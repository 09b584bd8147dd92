import DotMatrix.Proofs.Console.FrameEnd
import DotMatrix.Session

/-!
# Chunks cannot be seen

A session with a limit on clock ticks runs in chunks of a frame's ticks. Each of them ends between
two instructions, at a time that its last instruction decides, and the next one is measured from
there. All the same, the steps that are taken are those of one run to the limit.

* `Console.RunsTo`: what it means to run until the clock has reached a target;
* `RunsTo.det`, `RunsTo.trans`: there is one such run, and a stop on the way does not matter;
* `RunsTo.bounds`: where it ends;
* `Session.run_runsTo`: a session runs to its limit;
* `Session.chunks_run_through`: so it ends like one run.
-/

namespace DotMatrix

/-! ### Running to a target -/

namespace Console

/-- From `c`, steps are taken until the clock has reached the target, or until one is a fault. -/
inductive RunsTo (target : Nat) : Console → Console → Ending → Prop
  | reached {c : Console} : target ≤ c.cycles → RunsTo target c c .reached
  | faulted {c d : Console} {fault : Fault} : c.cycles < target → c.stepFrames = (d, some fault) →
    RunsTo target c d (.faulted fault)
  | step {c d e : Console} {ending : Ending} : c.cycles < target → c.stepFrames = (d, none) →
    RunsTo target d e ending → RunsTo target c e ending

variable {c d e : Console} {target mid : Nat} {ending : Ending}

/-- A step takes from 4 to 44 ticks, and the end of a frame takes none. -/
theorem stepFrames_cycles_bounds (c : Console) :
    c.cycles + 4 ≤ c.stepFrames.1.cycles ∧ c.stepFrames.1.cycles ≤ c.cycles + 44 := by
  have hstep := c.step_cycles_bounds
  have hsame : c.stepFrames.1.cycles = c.step.1.cycles := by
    unfold stepFrames
    generalize c.step = x
    obtain ⟨d, fault?⟩ := x
    cases fault? with
    | some fault => rfl
    | none =>
      dsimp only
      split <;> rfl
  rwa [hsame]

/-- A number of steps that is enough. -/
theorem runToCycle_runsTo {fuel : Nat} (hf : target ≤ c.cycles + fuel) :
    RunsTo target c (runToCycle target fuel c).1 (runToCycle target fuel c).2 := by
  induction fuel generalizing c with
  | zero =>
    unfold runToCycle
    have hreached : target ≤ c.cycles := hf
    rw [if_pos hreached]
    exact .reached hreached
  | succ fuel ih =>
    have hnext := c.stepFrames_cycles_bounds
    unfold runToCycle
    split
    · rename_i hreached
      exact .reached hreached
    · rename_i hlt
      generalize hx : c.stepFrames = x at hnext
      obtain ⟨d, fault?⟩ := x
      cases fault? with
      | some fault => exact .faulted (Nat.lt_of_not_le hlt) hx
      | none => exact .step (Nat.lt_of_not_le hlt) hx (ih (by dsimp only at hnext; omega))

theorem runCycles_runsTo (c : Console) (ticks : Nat) :
    RunsTo (c.cycles + ticks) c (c.runCycles ticks).1 (c.runCycles ticks).2 :=
  runToCycle_runsTo (Nat.le_refl _)

theorem runCycles_zero (c : Console) : c.runCycles 0 = (c, .reached) := by
  unfold runCycles runToCycle
  rw [Nat.add_zero, if_pos (Nat.le_refl c.cycles)]

/-- A run for the ticks that are left is a run to the target. -/
theorem runCycles_left_runsTo (c : Console) (target : Nat) :
    RunsTo target c (c.runCycles (target - c.cycles)).1 (c.runCycles (target - c.cycles)).2 := by
  by_cases hle : target ≤ c.cycles
  · rw [Nat.sub_eq_zero_of_le hle, runCycles_zero]
    exact .reached hle
  · have hrun := c.runCycles_runsTo (target - c.cycles)
    rwa [Nat.add_sub_cancel' (Nat.le_of_not_le hle)] at hrun

/-- There is one run to a target. -/
theorem RunsTo.det {e' : Console} {ending' : Ending} (h : RunsTo target c e ending)
    (h' : RunsTo target c e' ending') : e' = e ∧ ending' = ending := by
  induction h with
  | reached hle =>
    cases h' with
    | reached => exact ⟨rfl, rfl⟩
    | faulted hlt | step hlt => omega
  | faulted hlt hstep =>
    cases h' with
    | reached hle => omega
    | faulted _ hstep' =>
      rw [hstep] at hstep'
      cases hstep'
      exact ⟨rfl, rfl⟩
    | step _ hstep' =>
      rw [hstep] at hstep'
      cases hstep'
  | step hlt hstep _ ih =>
    cases h' with
    | reached hle => omega
    | faulted _ hstep' =>
      rw [hstep] at hstep'
      cases hstep'
    | step _ hstep' hrest =>
      rw [hstep] at hstep'
      cases hstep'
      exact ih hrest

/-- A fault before an earlier target is a fault before the target. -/
theorem RunsTo.faulted_of_le {fault : Fault} (hle : mid ≤ target)
    (h : RunsTo mid c d (.faulted fault)) : RunsTo target c d (.faulted fault) := by
  generalize hending : Ending.faulted fault = ending at h
  induction h with
  | reached => cases hending
  | faulted hlt hstep =>
    cases hending
    exact .faulted (by omega) hstep
  | step hlt hstep _ ih => exact .step (by omega) hstep (ih hending)

/-- A stop on the way to the target does not matter. -/
theorem RunsTo.trans (hle : mid ≤ target) (h : RunsTo mid c d .reached)
    (h' : RunsTo target d e ending) : RunsTo target c e ending := by
  generalize hreached : Ending.reached = ending' at h
  induction h with
  | reached => exact h'
  | faulted => cases hreached
  | step hlt hstep _ ih => exact .step (by omega) hstep (ih h' hreached)

/-- Where a run ends: at the target or within the ticks of the step that went past it. -/
theorem RunsTo.bounds (h : RunsTo target c e ending) :
    ending ≠ .unfinished ∧ (ending = .reached → target ≤ e.cycles) ∧
      (c.cycles < target → c.cycles < e.cycles ∧ e.cycles < target + 44) := by
  induction h with
  | reached hle => exact ⟨nofun, fun _ => hle, fun hlt => by omega⟩
  | @faulted c d fault hlt hstep =>
    have hbounds := c.stepFrames_cycles_bounds
    rw [hstep] at hbounds
    dsimp only at hbounds
    exact ⟨nofun, nofun, fun _ => by omega⟩
  | @step c d e ending hlt hstep hrest ih =>
    have hbounds := c.stepFrames_cycles_bounds
    rw [hstep] at hbounds
    dsimp only at hbounds
    obtain ⟨hending, hreached, hend⟩ := ih
    refine ⟨hending, hreached, fun _ => ?_⟩
    by_cases hd : d.cycles < target
    · have := hend hd
      omega
    · cases hrest with
      | reached => omega
      | faulted hlt' | step hlt' => exact absurd hlt' hd

end Console

/-! ### Sessions -/

namespace Session

/-- A limit on clock ticks, and no other. -/
def onlyCycles (limit : Nat) : Limits := ⟨none, some limit, none⟩

/-- Somebody who notes the time and changes nothing. -/
def noteTime (seen : List Nat) (c : Console) : List Nat × Console := (seen ++ [c.cycles], c)

/-- How a session ends after some chunks, when its last run has ended so. -/
def Ending.ofRun (chunks : Nat) : DotMatrix.Ending → Ending
  | .reached => .finished chunks
  | .faulted fault => .faulted fault
  | .unfinished => .unfinished

/-- A session runs to its limit. The times at which somebody looks go up, and there are none if the
limit was reached before. -/
theorem run_runsTo (limit steps : Nat) (clock : Nat → Nat) {fuel : Nat} (frames : Nat)
    (seen : List Nat) {c : Console} (hf : limit - c.cycles < fuel) :
    ∃ times d ending,
      run (onlyCycles limit) clock noteTime steps fuel frames seen c =
        (seen ++ times, d, .ofRun (frames + times.length) ending) ∧
      Console.RunsTo limit c d ending ∧ (c.cycles :: times).Pairwise (· < ·) ∧
      (limit ≤ c.cycles → times = []) := by
  induction fuel generalizing frames seen c with
  | zero => omega
  | succ fuel ih =>
    unfold run runChunk onlyCycles
    dsimp only
    by_cases hleft : limit - c.cycles = 0
    · rw [if_pos hleft]
      refine ⟨[], c, .reached, ?_, .reached (by omega), List.pairwise_singleton _ _, fun _ => rfl⟩
      rw [List.append_nil]
      rfl
    · rw [if_neg hleft]
      have hchunk := c.runCycles_runsTo (min (limit - c.cycles) Video.frameDots)
      have hmid : c.cycles + min (limit - c.cycles) Video.frameDots ≤ limit := by omega
      have hpos : 0 < min (limit - c.cycles) Video.frameDots := by
        have : 0 < Video.frameDots := by decide
        omega
      obtain ⟨hending, -, hlater⟩ := hchunk.bounds
      generalize c.runCycles (min (limit - c.cycles) Video.frameDots) = x at hchunk hending hlater
      obtain ⟨d, ending⟩ := x
      dsimp only at hchunk hending hlater ⊢
      cases ending with
      | unfinished => exact absurd rfl hending
      | faulted fault =>
        refine ⟨[], d, .faulted fault, ?_, hchunk.faulted_of_le hmid, List.pairwise_singleton _ _,
          fun _ => rfl⟩
        rw [List.append_nil]
        rfl
      | reached =>
        obtain ⟨hlt, -⟩ := hlater (by omega)
        obtain ⟨times, e, ending, hrun, hruns, htimes, -⟩ :=
          ih (frames + 1) (seen ++ [d.cycles]) (c := d) (by omega)
        refine ⟨d.cycles :: times, e, ending, ?_, hchunk.trans hmid hruns, ?_, fun hle => by omega⟩
        · refine hrun.trans ?_
          rw [List.append_assoc, List.length_cons, Nat.add_right_comm, Nat.add_assoc frames]
          rfl
        · refine List.pairwise_cons.2 ⟨fun t ht => ?_, htimes⟩
          rcases List.mem_cons.1 ht with rfl | ht
          · exact hlt
          · exact Nat.lt_trans hlt ((List.pairwise_cons.1 htimes).1 t ht)

/-- **Chunks cannot be seen.** A session that is limited by clock ticks alone, and watched by
somebody who changes nothing, ends like one run for the ticks that are left: with the same console,
to the last frame that was counted, and with the same fault if there is one. If no ticks are left it
does nothing. Otherwise, a session that is not ended by a fault ends at the limit or less than 44
ticks after it. The times at which somebody looks go up. -/
theorem chunks_run_through (c : Console) (limit steps : Nat) (clock : Nat → Nat) {fuel : Nat}
    (hf : limit - c.cycles < fuel) :
    let through := c.runCycles (limit - c.cycles)
    ∃ times, run (onlyCycles limit) clock noteTime steps fuel 0 [] c =
        (times, through.1, .ofRun times.length through.2) ∧
      (limit ≤ c.cycles → times = [] ∧ through = (c, .reached)) ∧
      through.2 ≠ .unfinished ∧ (through.2 = .reached → limit ≤ through.1.cycles) ∧
      (c.cycles < limit → c.cycles < through.1.cycles ∧ through.1.cycles < limit + 44) ∧
      (c.cycles :: times).Pairwise (· < ·) := by
  intro through
  have hthrough : Console.RunsTo limit c through.1 through.2 := c.runCycles_left_runsTo limit
  obtain ⟨times, d, ending, hrun, hruns, htimes, hnone⟩ := run_runsTo limit steps clock 0 [] hf
  obtain ⟨hd, hending⟩ := hthrough.det hruns
  obtain ⟨hne, hreached, hend⟩ := hthrough.bounds
  refine ⟨times, ?_, fun hle => ⟨hnone hle, ?_⟩, hne, hreached, hend, htimes⟩
  · rw [hrun, hd, hending, Nat.zero_add]
    rfl
  · show c.runCycles (limit - c.cycles) = _
    rw [Nat.sub_eq_zero_of_le hle, Console.runCycles_zero]

/-- The ticks that are left make two chunks. -/
theorem two_chunks_run_through :
    let c := Console.powerOn (.ofVolume .empty)
    let left := 2 * Video.frameDots - c.cycles
    ∃ times, run (onlyCycles (2 * Video.frameDots)) (fun _ => 0) noteTime 0 (left + 1) 0 [] c =
        (times, (c.runCycles left).1, .ofRun times.length (c.runCycles left).2) ∧
      (c.cycles :: times).Pairwise (· < ·) := by
  intro c left
  obtain ⟨times, hrun, -, -, -, -, htimes⟩ :=
    chunks_run_through c (2 * Video.frameDots) 0 (fun _ => 0) (Nat.lt_succ_self left)
  exact ⟨times, hrun, htimes⟩

end Session

end DotMatrix
