import DotMatrix.Proofs.Bus.Transmission
import DotMatrix.Proofs.Console.Collaborators
import DotMatrix.Proofs.Console.Invariant
import DotMatrix.Session

/-!
# What a session takes from a program

After every chunk of a session somebody takes the bytes that the program has sent in it. Nobody
looks at a chunk that is not completed.

* `Machine.Follows`: what steps lead to while bytes are taken, frames acknowledged and saves made;
* `Session.collect`: to take the bytes after a chunk;
* `Session.Collected`: what has been taken when a session has ended, and what has not;
* `Session.run_collects`: it is so whenever a session ends;
* `Session.run_map`: a session that looks at less.
-/

namespace DotMatrix

/-! ### Steps while bytes are taken -/

namespace Machine

/-- A machine has come from `start` by `n` steps. On the way somebody has taken the bytes `taken`
and has acknowledged frames, and RAM may have been saved. -/
def Follows (start : Machine) (n : Nat) (taken : List UInt8) (m : Machine) : Prop :=
  ∃ m', (start.run n).Related (Bus.Taken taken) m' ∧ m'.Alike m

variable {start m : Machine} {n : Nat} {taken : List UInt8}

theorem Follows.refl (m : Machine) : m.Follows 0 [] m := ⟨m, .intro m.cpu (.refl m.bus), .refl m⟩

theorem Follows.cpu_eq (h : start.Follows n taken m) : m.cpu = (start.run n).cpu := by
  obtain ⟨m', hm, ha⟩ := h
  exact ha.cpu_eq.trans hm.cpu_eq

/-- What the steps have sent is what was taken and what is left. -/
theorem Follows.sent (h : start.Follows n taken m) :
    (start.run n).bus.serial.sent.toList = taken ++ m.bus.serial.sent.toList := by
  obtain ⟨m', hm, ha⟩ := h
  rw [hm.bus.sent, ha.bus.serial_eq]

/-- Somebody looks, and changes the bus. -/
theorem Follows.mapBus {taken' : List UInt8} {f : Bus → Bus} (h : start.Follows n taken m)
    (hf : ∀ {b b' : Bus}, Bus.Taken taken b b' → b'.serial = m.bus.serial →
      Bus.Taken taken' b (f b'))
    (ha : ∀ {b b' : Bus}, b.Alike b' → (f b).Alike (f b')) :
    start.Follows n taken' { m with bus := f m.bus } := by
  obtain ⟨m', hm, hm'⟩ := h
  exact ⟨{ m' with bus := f m'.bus }, hm.withBus (hf hm.bus hm'.bus.serial_eq.symm),
    Related.withBus hm' (ha hm'.bus)⟩

end Machine

namespace Console

variable {start : Machine} {c : Console} {n : Nat} {taken : List UInt8}

theorem follows_step (h : start.Follows n taken c.machine) :
    start.Follows (n + 1) taken c.step.1.machine := by
  obtain ⟨m, hm, ha⟩ := h
  obtain ⟨hstep, -⟩ := hm.step (Bus.taken_bisimulation taken)
  obtain ⟨halike, -⟩ := ha.step
  refine ⟨m.step.1, ?_, halike.trans c.step_alike.1⟩
  rw [Machine.run_succ]
  exact hstep

theorem follows_frameDone (h : start.Follows n taken c.machine) :
    start.Follows n taken c.frameDone.machine :=
  h.mapBus (f := fun b => { b with video := b.video.clearFrameReady })
    (fun h _ => h.clearFrameReady) fun h => h.clearFrameReady

theorem follows_takeSerial (h : start.Follows n taken c.machine) :
    start.Follows n (taken ++ c.takeSerial.1.toList) c.takeSerial.2.machine :=
  h.mapBus (f := fun b => { b with serial := b.serial.drain })
    (fun h hs => hs ▸ h.drain) fun h => h.drain

/-- Running takes steps and takes no bytes. -/
theorem follows_invariant (start : Machine) (k : Nat) (taken : List UInt8) :
    Invariant fun c => ∃ n, k ≤ n ∧ start.Follows n taken c.machine where
  step := by
    rintro c ⟨n, hn, h⟩
    exact ⟨n + 1, Nat.le_succ_of_le hn, follows_step h⟩
  frameDone := by
    rintro c ⟨n, hn, h⟩
    exact ⟨n, hn, follows_frameDone h⟩

end Console

/-! ### Chunks -/

namespace Session

variable {limits : Limits} {steps frames : Nat} {c d : Console}

theorem runChunk_invariant {P : Console → Prop} (hP : Console.Invariant P) (limits : Limits)
    (steps frames : Nat) (h : P c) : P (runChunk limits steps frames c).1 := by
  unfold runChunk
  split
  · dsimp only
    split
    · exact h
    · exact hP.runToCycle h _ _
  · exact hP.runToFrameEnd h _ _

/-- What steps, ends of frames and looks keep, a session keeps. -/
theorem run_invariant {P : Console → Prop} {σ : Type} {look : σ → Console → σ × Console}
    (hP : Console.Invariant P) (hlook : ∀ s {c}, P c → P (look s c).2) (limits : Limits)
    (clock : Nat → Nat) (steps fuel frames : Nat) (s : σ) (h : P c) :
    P (run limits clock look steps fuel frames s c).2.1 := by
  induction fuel generalizing frames s c with
  | zero => exact h
  | succ fuel ih =>
    have hchunk := runChunk_invariant hP limits steps frames h
    unfold run
    generalize runChunk limits steps frames c = x at hchunk
    obtain ⟨d, ending?⟩ := x
    cases ending? with
    | some ending => exact hchunk
    | none =>
      dsimp only
      split
      · exact hlook s hchunk
      · exact ih (frames + 1) _ (hlook s hchunk)

/-- The limit on clock ticks is reached. -/
def OutOfTicks (limits : Limits) (c : Console) : Prop :=
  ∃ limit, limits.cycles = some limit ∧ limit ≤ c.cycles

/-- A session ends at a limit before a chunk if it is out of ticks, and only then. -/
theorem runChunk_finished_iff {chunks : Nat} :
    runChunk limits steps frames c = (d, some (.finished chunks)) ↔
      d = c ∧ chunks = frames ∧ OutOfTicks limits c := by
  have hne (ending : DotMatrix.Ending) : Ending.ofChunk? ending ≠ some (.finished chunks) := by
    cases ending <;> nofun
  constructor
  · intro h
    unfold runChunk at h
    split at h
    · rename_i limit hlimit
      dsimp only at h
      split at h
      · cases h
        exact ⟨rfl, rfl, limit, hlimit, by omega⟩
      · exact absurd (congrArg Prod.snd h) (hne _)
    · exact absurd (congrArg Prod.snd h) (hne _)
  · rintro ⟨rfl, rfl, limit, hlimit, hle⟩
    unfold runChunk
    rw [hlimit]
    exact if_pos (Nat.sub_eq_zero_of_le hle)

/-- A session that ends at its limit on clock ticks ends before the next chunk. -/
theorem eq_of_runChunk_finished {chunks : Nat}
    (h : runChunk limits steps frames c = (d, some (.finished chunks))) : d = c :=
  (runChunk_finished_iff.1 h).1

/-! ### Sessions -/

/-- Take what the program has sent since the last look. -/
def collect (taken : List UInt8) (c : Console) : List UInt8 × Console :=
  (taken ++ c.takeSerial.1.toList, c.takeSerial.2)

/-- What has been taken when a session has ended after `n` steps: all that had been sent when the
last chunk was completed, after `k` steps. That is all there is, unless a chunk was begun that was
not completed. -/
structure Collected (limits : Limits) (steps : Nat) (start : Machine) (taken : List UInt8)
    (final : Console) (ending : Ending) (k n : Nat) : Prop where
  follows : start.Follows n taken final.machine
  le : k ≤ n
  taken_eq : (start.run k).bus.serial.sent.toList = taken
  finished {chunks : Nat} : ending = .finished chunks → k = n
  faulted {fault : Fault} : ending = .faulted fault →
    ∃ frames c, start.Follows k taken c.machine ∧
      runChunk limits steps frames c = (final, some ending)

/-- **What a session takes.** -/
theorem run_collects (limits : Limits) (steps : Nat) (clock : Nat → Nat) (fuel frames : Nat)
    {start : Machine} {k : Nat} {taken : List UInt8} (h : start.Follows k taken c.machine)
    (hempty : c.machine.bus.serial.sent = #[]) :
    ∃ taken' final ending k' n,
      run limits clock collect steps fuel frames taken c = (taken', final, ending) ∧
        Collected limits steps start taken' final ending k' n := by
  induction fuel generalizing frames k taken c with
  | zero =>
    refine ⟨taken, c, .unfinished, k, k, rfl, h, Nat.le_refl k, ?_, nofun, nofun⟩
    rw [h.sent, hempty, List.append_nil]
  | succ fuel ih =>
    have htaken : (start.run k).bus.serial.sent.toList = taken := by
      rw [h.sent, hempty, List.append_nil]
    obtain ⟨n, hn, hrun⟩ := runChunk_invariant (Console.follows_invariant start k taken) limits
      steps frames ⟨k, Nat.le_refl k, h⟩
    unfold run
    generalize hx : runChunk limits steps frames c = x at hrun
    obtain ⟨d, ending?⟩ := x
    cases ending? with
    | some ending =>
      cases ending with
      | finished chunks =>
        obtain rfl := eq_of_runChunk_finished hx
        exact ⟨taken, d, _, k, k, rfl, h, Nat.le_refl k, htaken, fun _ => rfl, nofun⟩
      | faulted fault =>
        exact ⟨taken, d, _, k, n, rfl, hrun, hn, htaken, nofun, fun _ => ⟨frames, c, h, hx⟩⟩
      | unfinished => exact ⟨taken, d, _, k, n, rfl, hrun, hn, htaken, nofun, nofun⟩
    | none =>
      have hlook := Console.follows_takeSerial hrun
      dsimp only
      split
      · refine ⟨_, _, _, n, n, rfl, hlook, Nat.le_refl n, ?_, fun _ => rfl, nofun⟩
        rw [hlook.sent]
        exact List.append_nil _
      · exact ih (frames + 1) hlook rfl

/-- A session that looks at less. -/
theorem run_map {σ τ : Type} (g : σ → τ) {look : σ → Console → σ × Console}
    {look' : τ → Console → τ × Console} (hg : ∀ s c, look' (g s) c = (look s c).map g id)
    (limits : Limits) (clock : Nat → Nat) (steps fuel frames : Nat) (s : σ) (c : Console) :
    run limits clock look' steps fuel frames (g s) c =
      (run limits clock look steps fuel frames s c).map g id := by
  induction fuel generalizing frames s c with
  | zero => rfl
  | succ fuel ih =>
    unfold run
    split
    · rfl
    · dsimp only
      rw [hg]
      dsimp only [Prod.map_fst, Prod.map_snd, id_eq]
      split
      · rfl
      · exact ih _ _ _

end Session

end DotMatrix
