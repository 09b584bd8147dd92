import DotMatrix.Command.Basic
import DotMatrix.Proofs.Session.Collection

/-!
# What a run prints

A run that is asked to print what the program sends takes it after every chunk of the session. What
is printed is what the program has sent by then, each byte once and in order. When the session ends
at a limit that is everything. When it ends in a fault, what was sent in the chunk with the fault is
not printed.

* `prepare_cases`: what a run that gets as far as its session has done before;
* `run_collects`: the session of such a run, and what is printed;
* `printed_is_transmitted`: what is printed of what is sent.
-/

namespace DotMatrix

namespace Transcript

theorem ofBytes_append (xs ys : List UInt8) : ofBytes (xs ++ ys) = ofBytes xs ++ ofBytes ys := by
  unfold ofBytes
  rw [List.flatMap_append, String.ofList_append]

end Transcript

namespace Command

variable {arguments : Arguments} {around : Surroundings} {host : Host} {p : Prepared}
  {c d : Console}

/-! ### Before the session -/

section

variable {ε ε' α β : Type} {x : Except ε α} {b : β}

theorem exists_of_bind_eq_ok {f : α → Except ε β} (h : x >>= f = .ok b) :
    ∃ a, x = .ok a ∧ f a = .ok b := by
  cases x with
  | error e => cases h
  | ok a => exact ⟨a, rfl, h⟩

theorem eq_ok_of_mapError {f : ε → ε'} {a : α} (h : x.mapError f = .ok a) : x = .ok a := by
  cases x with
  | error e => cases h
  | ok a' => exact congrArg Except.ok (Except.ok.inj h)

end

/-- What a run has done that gets as far as its session. -/
theorem prepare_cases (h : prepare arguments around host = .ok p) :
    ∃ held c d, settings arguments around host.volume = .ok p.settings ∧
      buttons arguments.hold = .ok held ∧
      insertCartridge arguments ((Console.powerOn host).setPolicy p.settings.savePolicy) = .ok c ∧
      openTrace arguments c = .ok d ∧
      p.console = held.foldl (fun c held => c.setButton held true) d := by
  obtain ⟨settings, hsettings, h⟩ := exists_of_bind_eq_ok h
  obtain ⟨held, hheld, h⟩ := exists_of_bind_eq_ok h
  obtain ⟨c, hinsert, h⟩ := exists_of_bind_eq_ok h
  obtain ⟨d, htrace, h⟩ := exists_of_bind_eq_ok h
  cases h
  exact ⟨held, c, d, eq_ok_of_mapError hsettings, eq_ok_of_mapError hheld,
    eq_ok_of_mapError hinsert, eq_ok_of_mapError htrace, rfl⟩

theorem insertCartridge_cases (h : insertCartridge arguments c = .ok d) :
    ∃ cart events, Cartridge.ofFile c.host.volume arguments.rom = .ok (cart, events) ∧
      d = (c.mapHost (·.recordAll events)).insert cart := by
  have hinsert := eq_ok_of_mapError h
  unfold Console.insertFile at hinsert
  split at hinsert
  · cases hinsert
  · rename_i cart events hload
    cases hinsert
    exact ⟨cart, events, hload, rfl⟩

/-- A trace goes to a file that is empty at first. -/
theorem openTrace_cases (h : openTrace arguments c = .ok d) :
    d = c ∨ ∃ path w place, arguments.trace = some path ∧ c.host.volume.create path = .ok (w, place) ∧
      d = (c.mapHost fun h => { h with volume := w }).setTrace (some (.file (.ofPlace place))) := by
  unfold openTrace at h
  split at h
  · cases h
    exact .inl rfl
  · rename_i path hpath
    split at h
    · cases h
    · rename_i w place hcreate
      cases h
      exact .inr ⟨path, w, place, hpath, hcreate, rfl⟩

theorem insertCartridge_serial (h : insertCartridge arguments c = .ok d) :
    d.machine.bus.serial = c.machine.bus.serial := by
  obtain ⟨_, _, -, rfl⟩ := insertCartridge_cases h
  rfl

theorem openTrace_serial (h : openTrace arguments c = .ok d) :
    d.machine.bus.serial = c.machine.bus.serial := by
  obtain rfl | ⟨_, _, _, -, -, rfl⟩ := openTrace_cases h
  · rfl
  · rfl

theorem setButtons_serial (held : List Button) (c : Console) :
    (held.foldl (fun c held => c.setButton held true) c).machine.bus.serial =
      c.machine.bus.serial := by
  induction held generalizing c with
  | nil => rfl
  | cons button held ih => exact ih (c.setButton button true)

/-- Nothing is sent before the session. -/
theorem prepare_serial (h : prepare arguments around host = .ok p) :
    p.console.machine.bus.serial = .powerOn := by
  obtain ⟨held, c, d, -, -, hinsert, htrace, hp⟩ := prepare_cases h
  rw [hp, setButtons_serial, openTrace_serial htrace, insertCartridge_serial hinsert]
  rfl

/-! ### After the session -/

theorem takeScreenshot_cases (arguments : Arguments) (settings : Settings) (c : Console) :
    (takeScreenshot arguments settings c).2 = .completed ∨
      ∃ path e, (takeScreenshot arguments settings c).2 = .failed (.screenshot path e) := by
  unfold takeScreenshot
  split
  · exact .inl rfl
  · split
    · exact .inl rfl
    · exact .inr ⟨_, _, rfl⟩

/-- After a session that ended at a limit only the screenshot can fail. -/
theorem finish_finished (settings : Settings) (c : Console) (chunks : Nat) :
    (finish arguments settings c (.finished chunks)).2 ≠ .unfinished ∧
      ∀ fault, (finish arguments settings c (.finished chunks)).2 ≠ .failed (.fault fault) := by
  unfold finish conclude
  dsimp only
  obtain h | ⟨path, e, h⟩ :=
    takeScreenshot_cases arguments settings (if settings.saveOnExit then c.save else c)
  · rw [h]
    exact ⟨nofun, nofun⟩
  · rw [h]
    exact ⟨nofun, nofun⟩

/-! ### All of it -/

/-- A look at the console. What is taken is printed after what was printed before. -/
def lookOn (arguments : Arguments) (printed : String) (c : Console) : String × Console :=
  (printed ++ (look arguments c).1, (look arguments c).2)

/-- A run that gets as far as its session. -/
theorem run_of_prepared (hp : prepare arguments around host = .ok p) (clock : Nat → Nat)
    (steps fuel : Nat) {printed : String} {final : Console} {ending : Session.Ending}
    (h : Session.run (limits arguments p.settings) clock (lookOn arguments) steps fuel 0 ""
      p.console = (printed, final, ending)) :
    run arguments around host clock steps fuel =
      { host := (finish arguments p.settings final ending).1, printed
        result := (finish arguments p.settings final ending).2 } := by
  unfold run
  rw [hp]
  unfold lookOn at h
  dsimp only
  rw [h]

/-- A run prints the text of what its session takes. -/
theorem run_collects (hserial : arguments.serial = true)
    (hp : prepare arguments around host = .ok p) (clock : Nat → Nat) (steps fuel : Nat)
    {taken : List UInt8} {final : Console} {ending : Session.Ending}
    (h : Session.run (limits arguments p.settings) clock Session.collect steps fuel 0 [] p.console =
      (taken, final, ending)) :
    (run arguments around host clock steps fuel).printed = Transcript.ofBytes taken ∧
      (run arguments around host clock steps fuel).result =
        (finish arguments p.settings final ending).2 := by
  have hlook (taken : List UInt8) (c : Console) : lookOn arguments (Transcript.ofBytes taken) c =
      (Session.collect taken c).map Transcript.ofBytes id := by
    unfold lookOn look
    rw [if_pos hserial]
    exact congrArg (·, c.takeSerial.2) (Transcript.ofBytes_append _ _).symm
  have hsession := Session.run_map Transcript.ofBytes hlook (limits arguments p.settings) clock
    steps fuel 0 [] p.console
  rw [h] at hsession
  rw [run_of_prepared hp clock steps fuel hsession]
  exact ⟨rfl, rfl⟩

/-- **What is printed of what a program sends.** A run that is asked to print it gets as far as its
session, takes some steps, and prints what the first `k` of them sent: all of it, in order, and
nothing twice. Unless the run ends in a fault (or has taken all the steps it was given) these are
all steps. If it ends in a fault, they are the steps before the chunk in which the fault happens,
and what was sent in this chunk is still waiting to be taken. -/
theorem printed_is_transmitted (hserial : arguments.serial = true)
    (hp : prepare arguments around host = .ok p) (clock : Nat → Nat) (steps fuel : Nat) :
    let limits := limits arguments p.settings
    let start := p.console.machine
    let outcome := run arguments around host clock steps fuel
    ∃ taken final ending k n,
      Session.run limits clock Session.collect steps fuel 0 [] p.console = (taken, final, ending) ∧
      start.Follows n taken final.machine ∧ k ≤ n ∧
      outcome.printed = Transcript.ofBytes taken ∧ taken = start.transmitted k ∧
      start.transmitted n = taken ++ final.machine.bus.serial.sent.toList ∧
      (outcome.result ≠ .unfinished → (∀ fault, outcome.result ≠ .failed (.fault fault)) →
        taken = start.transmitted n) ∧
      ∀ fault, outcome.result = .failed (.fault fault) →
        ∃ frames c, start.Follows k taken c.machine ∧
          Session.runChunk limits steps frames c = (final, some (.faulted fault)) := by
  intro limits start outcome
  have hnone : start.bus.serial.sent = #[] := congrArg Serial.sent (prepare_serial hp)
  have hsent (n : Nat) : (start.run n).bus.serial.sent.toList = start.transmitted n := by
    rw [start.run_sent, hnone]
    rfl
  obtain ⟨taken, final, ending, k, n, hsession, hcollected⟩ :=
    Session.run_collects limits steps clock fuel 0 (Machine.Follows.refl start) hnone
  obtain ⟨hprinted, hresult⟩ := run_collects hserial hp clock steps fuel hsession
  have htaken : taken = start.transmitted k := hcollected.taken_eq.symm.trans (hsent k)
  refine ⟨taken, final, ending, k, n, hsession, hcollected.follows, hcollected.le, hprinted, htaken,
    (hsent n).symm.trans hcollected.follows.sent, fun hdone hfine => ?_, fun fault hfault => ?_⟩
  · cases ending with
    | finished chunks => rw [htaken, hcollected.finished rfl]
    | faulted fault => exact absurd hresult (hfine fault)
    | unfinished => exact absurd hresult hdone
  · have hends := hresult.symm.trans hfault
    cases ending with
    | finished chunks => exact absurd hends ((finish_finished p.settings final chunks).2 fault)
    | faulted fault' =>
      cases hends
      exact hcollected.faulted rfl
    | unfinished => cases hends

/-- The smallest image whose program sends a letter and goes on to a hole among the opcodes. -/
def letterImage : ByteArray :=
  ⟨⟨List.replicate 0x100 0 ++ [0x3E, 0x41, 0xE0, 0x01, 0x3E, 0x81, 0xE0, 0x02, 0xD3] ++
    List.replicate 0x44 0 ++ [0xE7, 0, 0]⟩⟩

/-- A working directory with the image. -/
def letterHost : Host := .ofVolume (Volume.empty.put ["letter.gb"] (.file letterImage))

/-- To run the image and print what it sends, perhaps with a limit on clock ticks. -/
def letterArguments (cycles : Option Nat) : Arguments :=
  { rom := "letter.gb", frames := none, cycles, seconds := none, realtime := false, serial := true
    screenshot := none, trace := none, settings := none, hold := [] }

/-- Five steps send the letter, and the fifth is a fault. -/
theorem letter_prepared (cycles : Option Nat) :
    ∃ p, prepare (letterArguments cycles) ⟨none, none⟩ letterHost = .ok p ∧
      p.console.machine.transmitted 5 = [0x41] ∧
      (p.console.machine.run 4).step.2 = some (.unusedOpcode 0xD3 0x108) := by
  -- The limit plays no part before the session.
  show ∃ p, prepare (letterArguments none) ⟨none, none⟩ letterHost = .ok p ∧ _
  have hsends : (prepare (letterArguments none) ⟨none, none⟩ letterHost).toOption.any (fun p =>
      p.console.machine.transmitted 5 = [0x41] ∧
        (p.console.machine.run 4).step.2 = some (.unusedOpcode 0xD3 0x108)) = true := by
    decide +kernel
  cases hp : prepare (letterArguments none) ⟨none, none⟩ letterHost with
  | error outcome =>
    rw [hp] at hsends
    cases hsends
  | ok p =>
    rw [hp] at hsends
    exact ⟨p, rfl, of_decide_eq_true hsends⟩

/-- With a limit after the fourth step the letter is printed. -/
theorem printed_letter_at_limit :
    let outcome := run (letterArguments (some 40)) ⟨none, none⟩ letterHost (fun _ => 0) 0 2
    ∃ p taken n, prepare (letterArguments (some 40)) ⟨none, none⟩ letterHost = .ok p ∧
      outcome.printed = Transcript.ofBytes taken ∧ taken = p.console.machine.transmitted n ∧
      outcome.printed = "A" ∧ outcome.result = .completed := by
  intro outcome
  obtain ⟨p, hp, -⟩ := letter_prepared (some 40)
  have hrun : outcome.printed = "A" ∧ outcome.result = .completed := by decide +kernel
  obtain ⟨hletter, hresult⟩ := hrun
  obtain ⟨taken, _, _, _, n, -, -, -, hprinted, -, -, hall, -⟩ :=
    printed_is_transmitted rfl hp (fun _ => 0) 0 2
  refine ⟨p, taken, n, hp, hprinted, hall ?_ ?_, hletter, hresult⟩
  · rw [hresult]
    nofun
  · rw [hresult]
    nofun

/-- Without a limit the letter is sent in the chunk in which the fault happens, and is lost. -/
theorem letter_lost_by_fault :
    let outcome := run (letterArguments none) ⟨none, none⟩ letterHost (fun _ => 0) 5 1
    ∃ p, prepare (letterArguments none) ⟨none, none⟩ letterHost = .ok p ∧
      (p.console.machine.run 4).step.2 = some (.unusedOpcode 0xD3 0x108) ∧
      outcome.result = .failed (.fault (.unusedOpcode 0xD3 0x108)) ∧
      p.console.machine.transmitted 5 = [0x41] ∧ outcome.printed = "" ∧
      outcome.printed ≠ Transcript.ofBytes (p.console.machine.transmitted 5) := by
  intro outcome
  obtain ⟨p, hp, hsent, hfault⟩ := letter_prepared none
  have hrun : outcome.result = .failed (.fault (.unusedOpcode 0xD3 0x108)) ∧
      outcome.printed = "" := by
    decide +kernel
  obtain ⟨hresult, hnothing⟩ := hrun
  refine ⟨p, hp, hfault, hresult, hsent, hnothing, ?_⟩
  rw [hnothing, hsent]
  decide +kernel

end Command

end DotMatrix
