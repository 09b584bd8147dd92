import DotMatrix.Proofs.Bus.History
import DotMatrix.Proofs.Processor.Bisimulation

/-!
# Saving is not seen by the processor

Where and when cartridge RAM is saved, whether that works, and what is recorded in the log have no
way back into the machine.

* `Cartridge.Alike`: the same cartridge, up to its save file and the mark of changed RAM;
* `Bus.Alike`: the same bus, up to that, the setting for saves, and the files and the log;
* `Bus.saveRam_alike`, `Bus.vblankBegan_alike`: saves lead to an alike bus;
* `Bus.alike_bisimulation`: alike buses stay alike, and the processor cannot tell them apart.
-/

namespace DotMatrix

/-! ### Cartridges -/

namespace Cartridge

/-- The same cartridge, with another save file or another mark. -/
inductive Alike (c : Cartridge) : Cartridge → Prop
  | intro (savePath : Option String) (dirty : Bool) : Alike c { c with savePath, dirty }

variable {c d e : Cartridge}

theorem Alike.refl (c : Cartridge) : Alike c c := .intro c.savePath c.dirty

theorem Alike.symm (h : Alike c d) : Alike d c := by
  cases h
  exact .intro c.savePath c.dirty

theorem Alike.trans (h : Alike c d) (h' : Alike d e) : Alike c e := by
  cases h
  cases h'
  exact .intro _ _

theorem Alike.writeRom (h : Alike c d) (a : Fin 0x8000) (v : UInt8) :
    Alike (c.writeRom a v) (d.writeRom a v) := by
  cases h
  unfold Cartridge.writeRom
  dsimp only
  split <;> exact .intro _ _

theorem Alike.writeRam (h : Alike c d) (i : Fin 0x2000) (v : UInt8) :
    Alike (c.writeRam i v) (d.writeRam i v) := by
  cases h with
  | intro savePath dirty =>
    have hvisible : ramVisible { c with savePath, dirty } = c.ramVisible := rfl
    have hindex : ramIndex { c with savePath, dirty } i = c.ramIndex i := rfl
    unfold Cartridge.writeRam
    simp only [hvisible, hindex]
    split
    · split <;> exact .intro _ _
    · exact .intro _ _

/-- Slots with alike cartridges, or both empty. -/
def AlikeIn : Option Cartridge → Option Cartridge → Prop := Option.Rel Alike

theorem AlikeIn.refl (slot : Option Cartridge) : AlikeIn slot slot := by
  cases slot with
  | none => exact .none
  | some c => exact .some (.refl c)

theorem AlikeIn.symm {slot slot' : Option Cartridge} (h : AlikeIn slot slot') :
    AlikeIn slot' slot := by
  cases h with
  | none => exact .none
  | some hc => exact .some hc.symm

theorem AlikeIn.trans {slot slot' slot'' : Option Cartridge} (h : AlikeIn slot slot')
    (h' : AlikeIn slot' slot'') : AlikeIn slot slot'' := by
  cases h with
  | none => exact h'
  | some hc =>
    cases h' with
    | some hd => exact .some (hc.trans hd)

theorem AlikeIn.map {slot slot' : Option Cartridge} {f : Cartridge → Cartridge}
    (h : AlikeIn slot slot') (hf : ∀ {c d : Cartridge}, Alike c d → Alike (f c) (f d)) :
    AlikeIn (slot.map f) (slot'.map f) := by
  cases h with
  | none => exact .none
  | some hc => exact .some (hf hc)

/-- A save changes nothing but the mark. -/
theorem save_alike {v w : Volume} (h : c.save v = .ok (w, d)) : Alike c d := by
  unfold save at h
  split at h
  · cases h
    exact .intro c.savePath false
  · split at h
    · cases h
    · cases h
      exact .intro c.savePath false

end Cartridge

/-- A save changes nothing but the mark. -/
theorem Host.save_alike {h h' : Host} {c d : Cartridge} (hs : h.save c = (h', .ok d)) :
    c.Alike d := by
  unfold Host.save at hs
  split at hs
  · cases hs
    exact .intro c.savePath false
  · dsimp only at hs
    split at hs
    · cases hs
    · split at hs
      · cases hs
      · rename_i hsave
        cases hs
        exact Cartridge.save_alike hsave

/-! ### Buses -/

namespace Bus

/-- The same bus, with another setting for saves, other files and another log, and with a cartridge
that is the same up to its save file and its mark. -/
inductive Alike (b : Bus) : Bus → Prop
  | intro {cartridge : Option Cartridge} (saveAtVBlank : Bool) (host : Host) :
    Cartridge.AlikeIn b.cartridge cartridge → Alike b { b with cartridge, saveAtVBlank, host }

variable {b b' b'' : Bus}

/-- Only the setting, the files and the log are others. -/
theorem Alike.of_host (b : Bus) (saveAtVBlank : Bool) (host : Host) :
    Alike b { b with saveAtVBlank, host } :=
  .intro saveAtVBlank host (.refl b.cartridge)

theorem Alike.refl (b : Bus) : Alike b b := .of_host b b.saveAtVBlank b.host

theorem Alike.symm (h : Alike b b') : Alike b' b := by
  cases h with
  | intro saveAtVBlank host hc => exact .intro b.saveAtVBlank b.host hc.symm

theorem Alike.trans (h : Alike b b') (h' : Alike b' b'') : Alike b b'' := by
  cases h with
  | intro _ _ hc =>
    cases h' with
    | intro saveAtVBlank host hd => exact .intro saveAtVBlank host (hc.trans hd)

theorem Alike.cartridge (h : b.Alike b') : Cartridge.AlikeIn b.cartridge b'.cartridge := by
  cases h with
  | intro saveAtVBlank host hc => exact hc

/-- Other cartridges are put in, and the settings, the files and the logs become others. -/
theorem Alike.exchange (h : b.Alike b') {slot slot' : Option Cartridge}
    (hs : Cartridge.AlikeIn slot slot') (save save' : Bool) (host host' : Host) :
    Alike { b with cartridge := slot, saveAtVBlank := save, host }
      { b' with cartridge := slot', saveAtVBlank := save', host := host' } := by
  cases h with
  | intro _ _ _ => exact .intro save' host' hs

/-- A change that has nothing to do with saves. -/
theorem Alike.map (h : b.Alike b') {f : Bus → Bus}
    (hc : ∀ b, (f b).cartridge = b.cartridge)
    (hf : ∀ (b : Bus) (cartridge : Option Cartridge) (saveAtVBlank : Bool) (host : Host),
      f { b with cartridge, saveAtVBlank, host } =
        { f b with cartridge, saveAtVBlank, host }) : (f b).Alike (f b') := by
  cases h with
  | @intro cartridge saveAtVBlank host h =>
    rw [hf b cartridge saveAtVBlank host]
    refine .intro saveAtVBlank host ?_
    rw [hc]
    exact h

theorem Alike.clearFrameReady (h : b.Alike b') :
    Alike { b with video := b.video.clearFrameReady }
      { b' with video := b'.video.clearFrameReady } :=
  h.map (f := fun b => { b with video := b.video.clearFrameReady }) (fun _ => rfl)
    fun _ _ _ _ => rfl

theorem Alike.drain (h : b.Alike b') :
    Alike { b with serial := b.serial.drain } { b' with serial := b'.serial.drain } :=
  h.map (f := fun b => { b with serial := b.serial.drain }) (fun _ => rfl) fun _ _ _ _ => rfl

theorem Alike.video_eq (h : b.Alike b') : b'.video = b.video := by
  cases h
  rfl

theorem Alike.serial_eq (h : b.Alike b') : b'.serial = b.serial := by
  cases h
  rfl

theorem Alike.timer_eq (h : b.Alike b') : b'.timer = b.timer := by
  cases h
  rfl

/-! ### Saves -/

theorem saveRam_alike (b : Bus) : b.Alike b.saveRam := by
  unfold saveRam
  split
  · exact .refl b
  · rename_i c hc
    split
    · rename_i host d hsave
      refine .intro b.saveAtVBlank host ?_
      rw [hc]
      exact .some (Host.save_alike hsave)
    · exact .of_host b b.saveAtVBlank _

theorem vblankBegan_alike (b : Bus) : b.Alike b.vblankBegan := by
  unfold vblankBegan
  split
  · exact (Alike.of_host b b.saveAtVBlank _).trans (saveRam_alike _)
  · exact .refl b

/-! ### Reads and writes -/

theorem Alike.read (h : b.Alike b') (a : UInt16) : b'.read a = b.read a := by
  cases h with
  | intro saveAtVBlank host hc =>
    unfold Bus.read
    cases Location.ofAddress a with
    | rom i | cartridgeRam i =>
      unfold readAt
      dsimp only
      generalize b.cartridge = slot at hc
      cases hc with
      | none => rfl
      | some hc =>
        cases hc
        rfl
    | device r => cases r <;> rfl
    | _ => rfl

theorem Alike.write (h : b.Alike b') (a : UInt16) (v : UInt8) :
    (b.write a v).Alike (b'.write a v) := by
  cases h with
  | intro saveAtVBlank host hc =>
    unfold Bus.write
    cases Location.ofAddress a with
    | rom i => exact .intro saveAtVBlank host (hc.map fun h => h.writeRom i v)
    | cartridgeRam i => exact .intro saveAtVBlank host (hc.map fun h => h.writeRam i v)
    | device r => cases r <;> exact .intro saveAtVBlank host hc
    | _ => exact .intro saveAtVBlank _ hc

/-! ### Time -/

theorem alike_lockstep : Lockstep Alike where
  read h := h.read
  transfer_eq h := by
    cases h
    rfl
  setTransfer h transfer :=
    h.map (f := fun b => { b with transfer }) (fun _ => rfl) fun _ _ _ _ => rfl
  writeObject h i v := h.map (f := (·.writeObject i v)) (fun _ => rfl) fun _ _ _ _ => rfl
  tickTimer h := h.map (f := tickTimer) (fun _ => rfl) fun _ _ _ _ => rfl
  tickVideo h :=
    ⟨h.map (f := fun b => b.tickVideo.1) (fun _ => rfl) fun _ _ _ _ => rfl,
      congrArg (fun v => v.tick.2.vblank) h.video_eq⟩
  vblankBegan {b b'} h := (b.vblankBegan_alike.symm.trans h).trans b'.vblankBegan_alike

/-- **The processor does not learn about saves.** -/
theorem alike_bisimulation : Bisimulation Alike where
  read h := h.read
  interrupts h := by
    cases h
    rfl
  write h := h.write
  cycle h := alike_lockstep.cycle h
  acknowledge h source :=
    h.map (f := fun b => { b with interrupts := b.interrupts.acknowledge source }) (fun _ => rfl)
      fun _ _ _ _ => rfl

end Bus

/-! ### Machines -/

/-- The same processor on alike buses. -/
def Machine.Alike (m m' : Machine) : Prop := m.Related Bus.Alike m'

namespace Machine.Alike

variable {m m' m'' : Machine}

theorem refl (m : Machine) : m.Alike m := .intro m.cpu (.refl m.bus)

theorem symm (h : m.Alike m') : m'.Alike m := Related.symm (fun h => h.symm) h

theorem trans (h : m.Alike m') (h' : m'.Alike m'') : m.Alike m'' :=
  Related.trans (fun h h' => h.trans h') h h'

theorem cpu_eq (h : m.Alike m') : m'.cpu = m.cpu := Related.cpu_eq h

theorem bus (h : m.Alike m') : m.bus.Alike m'.bus := Related.bus h

theorem step (h : m.Alike m') : m.step.1.Alike m'.step.1 ∧ m'.step.2 = m.step.2 :=
  Related.step Bus.alike_bisimulation h

end Machine.Alike

end DotMatrix
