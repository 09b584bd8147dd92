import DotMatrix.Proofs.Bus.History
import DotMatrix.Proofs.Cartridge.Backup
import DotMatrix.Proofs.Checked.Console
import DotMatrix.Proofs.Console.Invariant

/-!
# RAM that is not marked is saved

A cartridge is in, and its save file was read with it or was absent. Whatever the machine does then,
and whichever saves are refused, the file holds the RAM as long as the RAM is not marked as changed.

* `Bus.Stored`: a property of the cartridge and its files that writes and saves keep, and with them
  everything that happens on the bus;
* `Bus.Backed`: the cartridge is backed up by its file; `Bus.Allows`: its saves go through;
* `Console.Backed`: the first with a trace that goes somewhere else, which all operations keep;
* `Console.clean_is_saved`: what this means for a cartridge read from its files, and that the policy
  of saving after every instruction leaves no mark if its saves go through.
-/

namespace DotMatrix

/-! ### On the bus -/

namespace Bus

/-- A property of the cartridge that is in and of the files it is saved to, kept by writes and by
saves of RAM that is marked. -/
structure Stored (P : Bus → Prop) : Prop where
  congr {b b' : Bus} : P b → b'.cartridge = b.cartridge → b'.host.volume = b.host.volume →
    b'.host.refusals = b.host.refusals → P b'
  write {b : Bus} (a : UInt16) (x : UInt8) : P b → P (b.write a x)
  saveRam {b : Bus} : P b → b.needsSave = true → P b.saveRam

variable {b b' : Bus} {v : Volume} {c : Cartridge} {P : Bus → Prop}

theorem Stored.vblankBegan (hP : Stored P) (h : P b) : P b.vblankBegan := by
  unfold Bus.vblankBegan
  split
  · rename_i hflush
    have hn : b.needsSave = true := (Bool.and_eq_true_iff.1 hflush).2
    have hrecorded : P { b with host := b.host.record .flushing } := hP.congr h rfl rfl rfl
    exact hP.saveRam hrecorded hn
  · exact h

/-- In a machine cycle the cartridge is touched only when vertical blank begins. -/
theorem Stored.cycle (hP : Stored P) (h : P b) : P b.cycle := by
  have hrun : P (runVideo ticksPerCycle (runTimer ticksPerCycle b)).1 := by
    obtain ⟨_, htimer⟩ := b.runTimer_eq ticksPerCycle
    obtain ⟨_, hvideo⟩ := (runTimer ticksPerCycle b).runVideo_eq ticksPerCycle
    rw [hvideo, htimer]
    exact hP.congr h rfl rfl rfl
  have htransfer {b : Bus} (h : P b) : P b.stepTransfer := by
    obtain ⟨_, heq⟩ := b.stepTransfer_eq
    rw [heq]
    exact hP.congr h rfl rfl rfl
  unfold Bus.cycle
  dsimp only
  split
  · exact htransfer (hP.vblankBegan hrun)
  · exact htransfer hrun

theorem Stored.perform (hP : Stored P) (h : P b) (xs : List Access) : P (b.perform xs) := by
  induction xs generalizing b with
  | nil => exact h
  | cons x xs ih =>
    cases x with
    | quiet => exact ih (hP.cycle h)
    | write a x => exact ih (hP.cycle (hP.write a x h))
    | acknowledge source => exact ih (hP.congr h rfl rfl rfl)

theorem write_host (b : Bus) (a : UInt16) (x : UInt8) :
    (b.write a x).host.volume = b.host.volume ∧ (b.write a x).host.refusals = b.host.refusals := by
  unfold Bus.write
  cases Location.ofAddress a with
  | device r => cases r <;> exact ⟨rfl, rfl⟩
  | _ => exact ⟨rfl, rfl⟩

/-! ### The file is up to date -/

/-- The cartridge that is in is `c` after some use, and it is backed up by its file. -/
def Backed (v : Volume) (c : Cartridge) (b : Bus) : Prop :=
  ∃ d, b.cartridge = some d ∧ c.Succeeds d ∧
    ∀ file, c.saveTarget = some file → b.host.volume.Backs v file d

theorem backed_write (h : Backed v c b) (a : UInt16) (x : UInt8) : Backed v c (b.write a x) := by
  obtain ⟨d, hd, hs, hb⟩ := h
  refine ⟨d.write a x, ?_, hs.trans (d.write_succeeds a x), fun file hf => ?_⟩
  · rw [b.write_cartridge, hd]
    rfl
  · rw [(b.write_host a x).1]
    exact (hb file hf).write a x

theorem backed_saveRam (h : Backed v c b) (hn : b.needsSave = true) : Backed v c b.saveRam := by
  obtain ⟨d, hd, hs, hb⟩ := h
  have hdirty : d.dirty = true := by
    rw [needsSave, hd] at hn
    exact hn
  unfold Bus.saveRam
  rw [hd]
  dsimp only
  cases hf : c.saveTarget with
  | none =>
    -- Nothing is written and the mark goes all the same: there is no file that could be behind.
    rw [b.host.save_of_none (hs.saveTarget_eq.trans hf)]
    refine ⟨_, rfl, hs.trans d.succeeds_clean, fun file hf' => ?_⟩
    rw [hf] at hf'
    cases hf'
  | some file =>
    obtain ⟨hfailed, hdone⟩ := Host.save_backs (hs.saveTarget_eq.trans hf) hdirty (hb file hf)
    split
    · rename_i host e hsave
      rw [hsave] at hdone
      obtain ⟨rfl, hback⟩ := hdone e rfl
      refine ⟨_, rfl, hs.trans d.succeeds_clean, fun file' hf' => ?_⟩
      obtain rfl := Option.some.inj (hf.symm.trans hf')
      exact hback
    · -- The mark stays, and with it whatever the file holds now will do.
      rename_i host e hsave
      rw [hsave] at hfailed
      refine ⟨d, rfl, hs, fun file' hf' => ?_⟩
      obtain rfl := Option.some.inj (hf.symm.trans hf')
      exact hfailed

theorem backed_stored (v : Volume) (c : Cartridge) : Stored (Backed v c) where
  congr h hc hv _ := by
    unfold Backed
    rw [hc, hv]
    exact h
  write a x h := backed_write h a x
  saveRam := backed_saveRam

/-! ### Saves that go through -/

/-- No save of the cartridge that is in will be refused. -/
def Allows (b : Bus) : Prop := ∀ d, b.cartridge = some d → b.host.Allows d

theorem Allows.write (h : b.Allows) (a : UInt16) (x : UInt8) : (b.write a x).Allows := by
  intro d hd
  rw [b.write_cartridge, Option.map_eq_some_iff] at hd
  obtain ⟨e, he, rfl⟩ := hd
  obtain ⟨hvolume, hrefusals⟩ := b.write_host a x
  have hallows := (h e he).congr (e.write_succeeds a x).saveTarget_eq
  exact ⟨hrefusals ▸ hallows.refusals, hvolume ▸ hallows.accepts⟩

/-- A save that goes through leaves no mark. -/
theorem Allows.saveRam (h : b.Allows) : b.saveRam.Allows ∧ b.saveRam.needsSave = false := by
  unfold Bus.saveRam
  cases hd : b.cartridge with
  | none =>
    refine ⟨h, ?_⟩
    rw [needsSave]
    dsimp only
    rw [hd]
    rfl
  | some d =>
    obtain ⟨host, hsave, hallows⟩ := (h d hd).save
    dsimp only
    rw [hsave]
    refine ⟨fun e he => ?_, rfl⟩
    obtain rfl := Option.some.inj he
    exact hallows

theorem allows_stored : Stored Allows where
  congr h hc hv hr d hd := by
    have hallows := h d (hc ▸ hd)
    exact ⟨hr ▸ hallows.refusals, hv ▸ hallows.accepts⟩
  write a x h := h.write a x
  saveRam h _ := h.saveRam.1

/-- Without a write no mark appears. -/
theorem needsSave_perform_of_quiet {xs : List Access} (hx : ∀ x ∈ xs, x = .quiet)
    (h : b.needsSave = false) : (b.perform xs).needsSave = false := by
  induction xs generalizing b with
  | nil => exact h
  | cons x xs ih =>
    obtain rfl := hx x List.mem_cons_self
    refine ih (fun y hy => hx y (List.mem_cons_of_mem _ hy)) ?_
    obtain ⟨_, _, _, heq, hclean⟩ := b.cycle_eq
    show b.cycle.needsSave = false
    rw [heq]
    unfold needsSave
    dsimp only
    rw [hclean h]
    exact h

end Bus

/-- A step that ends with a fault has written nothing. -/
theorem Machine.quiet_of_fault {m : Machine} (h : m.step.2 ≠ none) :
    ∀ x ∈ m.stepAccesses, x = .quiet := by
  unfold step at h
  unfold stepAccesses
  by_cases hh : m.cpu.halted = true
  · rw [if_pos hh] at h
    exact absurd rfl h
  rw [if_neg hh] at h ⊢
  unfold runInstruction at h
  unfold instructionAccesses
  dsimp only at h ⊢
  cases hi : Instruction.decode m.fetch.1 with
  | unused | stop => simp [Instruction.fault?, accesses]
  | _ =>
    rw [hi] at h
    exact absurd rfl h

/-! ### The trace -/

namespace Trace

variable {v w : Volume} {c : Cartridge} {P : Volume → Prop}

/-- A property of the volume that writes to a place keep. -/
def Lasting (place : Place) (P : Volume → Prop) : Prop :=
  ∀ {w w' : Volume} {offset : Nat} {bytes : ByteArray},
    P w → w.writeAt place offset bytes = .ok w' → P w'

namespace BufferedFile

variable (f : BufferedFile)

theorem flush_place (w : Volume) : (f.flush w).1.place = f.place := by
  unfold flush
  split <;> rfl

theorem flush_lasting (hP : Lasting f.place P) (h : P w) : P (f.flush w).2 := by
  unfold flush
  split
  · rename_i hw
    exact hP h hw
  · exact h

theorem write_place (w : Volume) (bytes : ByteArray) : (f.write w bytes).1.place = f.place := by
  unfold write
  split
  · rfl
  dsimp only
  split
  · split <;> exact f.flush_place w
  · rfl

theorem write_lasting (hP : Lasting f.place P) (h : P w) (bytes : ByteArray) :
    P (f.write w bytes).2 := by
  unfold write
  split
  · exact h
  dsimp only
  split
  · split <;> exact f.flush_lasting hP h
  · exact h

end BufferedFile

namespace Sink

/-- The place that a sink writes to. -/
def place? : Sink → Option Place
  | .memory _ => none
  | .file f => some f.place

theorem record_place (s : Sink) (w : Volume) (line : String) :
    (s.record w line).1.place? = s.place? := by
  cases s with
  | memory lines => rfl
  | file f =>
    have hplace : ((f.write w line.toUTF8).1.write (f.write w line.toUTF8).2 "\n".toUTF8).1.place =
        f.place :=
      (BufferedFile.write_place _ _ _).trans (f.write_place w _)
    exact congrArg some hplace

theorem record_lasting (s : Sink) (hP : ∀ place, s.place? = some place → Lasting place P) (h : P w)
    (line : String) : P (s.record w line).2 := by
  cases s with
  | memory lines => exact h
  | file f =>
    have hf : Lasting f.place P := hP f.place rfl
    have hrest : Lasting (f.write w line.toUTF8).1.place P := by
      rw [f.write_place]
      exact hf
    exact BufferedFile.write_lasting _ hrest (f.write_lasting hf h line.toUTF8) _

theorem close_lasting (s : Sink) (hP : ∀ place, s.place? = some place → Lasting place P) (h : P w) :
    P (s.close w) := by
  cases s with
  | memory lines => exact h
  | file f => exact f.flush_lasting (hP f.place rfl) h

/-- A sink writes to no place where the cartridge is saved. -/
def Spares (v : Volume) (c : Cartridge) (s : Sink) : Prop :=
  ∀ file place, c.saveTarget = some file → s.place? = some place → v.locate file ≠ .ok place

end Sink

end Trace

/-! ### On the console -/

namespace Console

variable {c d : Console} {v : Volume} {cart : Cartridge}

/-- The cartridge is backed up, and the trace goes somewhere else. -/
structure Backed (v : Volume) (cart : Cartridge) (c : Console) : Prop where
  bus : Bus.Backed v cart c.machine.bus
  trace : ∀ s, c.trace = some s → s.Spares v cart

theorem traceStep_cases (c : Console) :
    c.traceStep = c ∨ ∃ s, c.trace = some s ∧
      c.traceStep = mapHost { c with trace := some (s.record c.host.volume c.traceLine).1 }
        fun h => { h with volume := (s.record c.host.volume c.traceLine).2 } := by
  unfold traceStep
  split
  · exact .inl rfl
  · split
    · exact .inl rfl
    · rename_i s hs
      exact .inr ⟨s, hs, rfl⟩

theorem Backed.traceStep (h : c.Backed v cart) : c.traceStep.Backed v cart := by
  obtain heq | ⟨s, hs, heq⟩ := c.traceStep_cases <;> rw [heq]
  · exact h
  have hspares := h.trace s hs
  obtain ⟨d, hd, hsucceeds, hbacks⟩ := h.bus
  -- The sink has moved on in its file, but it is still the same file.
  refine ⟨⟨d, hd, hsucceeds, fun file hf => ?_⟩, fun s' hs' => ?_⟩
  · have hlasting (place : Place) (hp : s.place? = some place) :
        Trace.Lasting place fun w => w.Backs v file d :=
      fun hb hw => hb.writeAt (hspares file place hf hp) hw
    exact s.record_lasting hlasting (hbacks file hf) _
  · obtain rfl := Option.some.inj hs'
    intro file place hf hp
    exact hspares file place hf ((s.record_place _ _).symm.trans hp)

theorem stored_save {P : Bus → Prop} (hP : Bus.Stored P) (h : P c.machine.bus) :
    P c.save.machine.bus := by
  unfold Console.save
  split
  · rename_i hn
    exact hP.saveRam h hn
  · exact h

theorem save_trace (c : Console) : c.save.trace = c.trace := by
  unfold save
  split <;> rfl

theorem Backed.save (h : c.Backed v cart) : c.save.Backed v cart := by
  refine ⟨stored_save (Bus.backed_stored v cart) h.bus, ?_⟩
  rw [c.save_trace]
  exact h.trace

/-- A property of the cartridge and its files that tracing keeps is kept by a step. -/
theorem stored_step {P : Bus → Prop} (hP : Bus.Stored P) (h : P c.traceStep.machine.bus) :
    P c.step.1.machine.bus := by
  have hbus : P c.traceStep.machine.step.1.bus := by
    rw [c.traceStep.machine.step_performs.bus_eq]
    exact hP.perform h _
  unfold Console.step
  dsimp only
  split
  · rename_i machine fault heq
    rwa [heq] at hbus
  · rename_i machine heq
    rw [heq] at hbus
    dsimp only
    split
    · exact stored_save (c := { c.traceStep with machine }) hP hbus
    · exact hbus

theorem Backed.step (h : c.Backed v cart) : c.step.1.Backed v cart := by
  have htraced := h.traceStep
  obtain ⟨_, hstep⟩ := c.step_withMachine
  have htrace : c.step.1.trace = c.traceStep.trace := by rw [hstep]
  refine ⟨stored_step (Bus.backed_stored v cart) htraced.bus, ?_⟩
  rw [htrace]
  exact htraced.trace

theorem Backed.frameDone (h : c.Backed v cart) : c.frameDone.Backed v cart :=
  ⟨(Bus.backed_stored v cart).congr h.bus rfl rfl rfl, h.trace⟩

theorem backed_invariant (v : Volume) (cart : Cartridge) : Invariant (Backed v cart) where
  step h := h.step
  frameDone h := h.frameDone

/-- The operation leaves the cartridge in, and sends no trace where it is saved. -/
def Operation.Spares (v : Volume) (cart : Cartridge) : Operation → Prop
  | .insert _ | .insertImage _ => False
  | .setTrace sink => ∀ s, sink = some s → s.Spares v cart
  | _ => True

theorem Backed.perform {o : Operation} (h : c.Backed v cart) (ho : o.Spares v cart) :
    (o.perform c).Backed v cart := by
  have hcongr {b : Bus} (hc : b.cartridge = c.machine.bus.cartridge)
      (hh : b.host = c.machine.bus.host) : Bus.Backed v cart b :=
    (Bus.backed_stored v cart).congr h.bus hc (congrArg Host.volume hh) (congrArg Host.refusals hh)
  cases o with
  | step => exact h.step
  | runCycles ticks => exact (backed_invariant v cart).runToCycle h _ _
  | runFrame steps => exact (backed_invariant v cart).runToFrameEnd h _ _
  | write a x => exact ⟨Bus.backed_write h.bus a x, h.trace⟩
  | save => exact h.save
  | insert cartridge => cases ho
  | insertImage image => cases ho
  | setTrace sink => exact ⟨h.bus, ho⟩
  | read a => exact h
  | setButton | takeSerial | reset | setPolicy => exact ⟨hcongr rfl rfl, h.trace⟩

/-- **Operations keep a cartridge backed up.** -/
theorem Backed.run {os : List Operation} (h : c.Backed v cart)
    (hos : ∀ o ∈ os, o.Spares v cart) : (Operation.run os c).Backed v cart := by
  induction os generalizing c with
  | nil => exact h
  | cons o os ih =>
    exact ih (h.perform (hos o List.mem_cons_self)) fun o' ho' => hos o' (List.mem_cons_of_mem _ ho')

/-! ### Saving after every instruction -/

theorem traceStep_allows (h : c.machine.bus.Allows) : c.traceStep.machine.bus.Allows := by
  obtain heq | ⟨s, hs, heq⟩ := c.traceStep_cases <;> rw [heq]
  · exact h
  intro d hd
  have hallows := h d hd
  refine ⟨hallows.refusals, fun file hf => ?_⟩
  have hlasting (place : Place) (_ : s.place? = some place) :
      Trace.Lasting place fun w => w.Accepts file :=
    fun haccepts hw => haccepts.writeAt hw
  exact s.record_lasting hlasting (hallows.accepts file hf) _

theorem save_clean (h : c.machine.bus.Allows) :
    c.save.machine.bus.Allows ∧ c.save.machine.bus.needsSave = false := by
  unfold Console.save
  split
  · exact h.saveRam
  · rename_i hn
    exact ⟨h, Bool.eq_false_iff.2 hn⟩

/-- The mark is gone after every step, if the policy asks for that and the saves go through. A step
that ends with a fault is not followed by a save, but it has written nothing. -/
theorem step_clean (hpolicy : c.policy = .everyInstruction)
    (hclean : c.machine.bus.needsSave = false) (hallows : c.machine.bus.Allows) :
    c.step.1.machine.bus.needsSave = false := by
  have hbus := c.traceStep.machine.step_performs.bus_eq
  have hpolicy' : c.traceStep.policy = .everyInstruction := by
    obtain heq | ⟨s, hs, heq⟩ := c.traceStep_cases <;> rw [heq] <;> exact hpolicy
  have hclean' : c.traceStep.machine.bus.needsSave = false := by
    obtain heq | ⟨s, hs, heq⟩ := c.traceStep_cases <;> rw [heq] <;> exact hclean
  unfold Console.step
  dsimp only
  split
  · rename_i machine fault heq
    have hfault : c.traceStep.machine.step.2 ≠ none := by
      rw [heq]
      nofun
    rw [heq] at hbus
    dsimp only at hbus ⊢
    rw [hbus]
    exact Bus.needsSave_perform_of_quiet (Machine.quiet_of_fault hfault) hclean'
  · rename_i machine heq
    rw [heq] at hbus
    dsimp only at hbus ⊢
    rw [if_pos hpolicy']
    have hstepped : machine.bus.Allows := by
      rw [hbus]
      exact Bus.allows_stored.perform (traceStep_allows hallows) _
    exact (save_clean hstepped).2

end Console

/-! ### A cartridge read from its files -/

/-- The cartridge keeps nothing, or its save file holds its RAM. A file that is shorter counts as
filled up with zeros, and of one that is longer only the beginning counts. -/
def Cartridge.Saved (c : Cartridge) (v : Volume) : Prop :=
  c.header.hasBattery = false ∨ c.ram.isEmpty = true ∨
    ∃ file bytes, c.savePath = some file ∧ v.Holds file bytes ∧ fitted bytes c.ram.size = c.ram

namespace Console

theorem Backed.saved {v₀ v : Volume} {path : String} {cart : Cartridge} {events : List Log.Event}
    {c : Console} (hload : Cartridge.ofFile v₀ path = .ok (cart, events)) (h : c.Backed v cart)
    (hclean : c.machine.bus.needsSave = false) :
    ∃ d, c.cartridge = some d ∧ d.Saved c.host.volume := by
  obtain ⟨d, hd, hsucceeds, hbacks⟩ := h.bus
  refine ⟨d, hd, ?_⟩
  unfold Cartridge.Saved
  cases hbattery : d.header.hasBattery with
  | false => exact .inl rfl
  | true =>
    cases hempty : d.ram.isEmpty with
    | true => exact .inr (.inl rfl)
    | false =>
      have hpath := Cartridge.ofFile_savePath hload (hsucceeds.header_eq ▸ hbattery)
      rw [← hsucceeds.savePath_eq] at hpath
      have htarget := Cartridge.saveTarget_eq_some.2 ⟨hbattery, hempty, hpath⟩
      rw [hsucceeds.saveTarget_eq] at htarget
      obtain ⟨bytes, hholds, hram⟩ := (hbacks _ htarget).holds
      rw [Bus.needsSave, hd] at hclean
      exact .inr (.inr ⟨_, bytes, hpath, hholds, hram hclean⟩)

/-- **A cartridge that is not marked is saved.** It was read from its files, its save file was absent
or readable, and it was put in while that file was still the same. Whatever is done then, with saves
refused in any pattern and no other writer of the file: while no mark is set, the file holds the
RAM. Under the policy of saving after every instruction no step leaves a mark that was not there
before, if the saves go through. -/
theorem clean_is_saved {v : Volume} {path : String} {cart : Cartridge} {events : List Log.Event}
    (c : Console) (os : List Operation)
    (hload : Cartridge.ofFile v path = .ok (cart, events))
    (hfile : ∀ file, cart.saveTarget = some file →
      (∃ bytes, v.Holds file bytes) ∧ c.host.volume.read file = v.read file)
    (htrace : ∀ s, c.trace = some s → s.Spares c.host.volume cart)
    (hos : ∀ o ∈ os, o.Spares c.host.volume cart) :
    let d := Operation.run os (c.insert cart)
    (d.machine.bus.needsSave = false → ∃ e, d.cartridge = some e ∧ e.Saved d.host.volume) ∧
      (d.policy = .everyInstruction → d.machine.bus.needsSave = false → d.machine.bus.Allows →
        d.step.1.machine.bus.needsSave = false) := by
  have hstart : (c.insert cart).Backed c.host.volume cart := by
    refine ⟨⟨cart, rfl, .refl cart, fun file hf => ?_⟩, htrace⟩
    obtain ⟨hholds, hread⟩ := hfile file hf
    exact Cartridge.ofFile_backs hload hf hread hholds
  exact ⟨(hstart.run hos).saved hload, step_clean⟩

/-- A byte is written to the RAM of a cartridge that was just read, and saved. -/
theorem clean_is_saved_after_write :
    ∃ cart events, Cartridge.ofFile (Cartridge.batteryVolume "game.gb") "game.gb" = .ok (cart, events) ∧
      let c := powerOn (.ofVolume (Cartridge.batteryVolume "game.gb"))
      let d := Operation.run [.write 0 0x0A, .write 0xA000 0x55, .save] (c.insert cart)
      d.machine.bus.needsSave = false ∧
        (∃ e, d.cartridge = some e ∧ e.Saved d.host.volume) ∧
        d.step.1.machine.bus.needsSave = false := by
  obtain ⟨cart, events, hload, htarget, -⟩ :=
    Cartridge.batteryVolume_accepted Cartridge.isName_game.1
  rw [show Path.withExtension "game.gb" "sav" = "game.sav" by decide +kernel] at htarget
  refine ⟨cart, events, hload, ?_⟩
  intro c d
  have hnone : c.host.volume.at? ["game.sav"] = none := rfl
  have hfile (file : String) (hf : cart.saveTarget = some file) :
      (∃ bytes, (Cartridge.batteryVolume "game.gb").Holds file bytes) ∧
        c.host.volume.read file = (Cartridge.batteryVolume "game.gb").read file := by
    obtain rfl := Option.some.inj (htarget.symm.trans hf)
    refine ⟨⟨.empty, .inr ⟨?_, rfl⟩⟩, rfl⟩
    rw [Volume.read, Volume.locate_name Cartridge.isName_game.2]
    rfl
  have hspares : ∀ o ∈ [Operation.write 0 0x0A, .write 0xA000 0x55, .save],
      o.Spares c.host.volume cart := by
    intro o ho
    simp only [List.mem_cons, List.not_mem_nil, or_false] at ho
    obtain rfl | rfl | rfl := ho <;> trivial
  have hallows : (c.insert cart).machine.bus.Allows := by
    intro e he
    obtain rfl := Option.some.inj he
    refine ⟨fun _ hr => absurd hr List.not_mem_nil, fun file hf => ?_⟩
    obtain rfl := Option.some.inj (htarget.symm.trans hf)
    exact Volume.accepts_name Cartridge.isName_game.2 (.inl hnone)
  have hwritten := (hallows.write 0 0x0A).write 0xA000 0x55
  have htrace (s : Trace.Sink) (hs : c.trace = some s) : s.Spares c.host.volume cart :=
    absurd hs (Option.some_ne_none s).symm
  obtain ⟨hsaved, hstep⟩ := clean_is_saved c _ hload hfile htrace hspares
  obtain ⟨hdallows, hd⟩ : d.machine.bus.Allows ∧ d.machine.bus.needsSave = false :=
    save_clean hwritten
  have hpolicy : d.policy = .everyInstruction := by
    show (save _).policy = _
    unfold Console.save
    split <;> rfl
  exact ⟨hd, hsaved hd, hstep hpolicy hd hdallows⟩

end Console

end DotMatrix
