import DotMatrix.Proofs.Bus.History
import DotMatrix.Proofs.Video.Blank

/-!
# What accesses leave alone

A program that runs from a plain cartridge can rely on its code, on the interrupts that it has
enabled and requested, and on the display, as long as it does not write to them itself.

* `Interrupts.Raised`: requests have been added and nothing else has changed;
* `Fixed`: a cartridge without switches and RAM is in, which no access changes;
* `Shows`: the display is on, no frame is complete, and vertical blank is some dots away;
* `Dark`: the display is off, and no frame is complete.
-/

namespace DotMatrix

/-- The last access, if it is a write, and then its machine cycle. -/
theorem Bus.perform_concat_write (b : Bus) (xs : List Access) (a : UInt16) (v : UInt8) :
    b.perform (xs ++ [.write a v]) = ((b.perform xs).write a v).cycle := by
  rw [perform_append]
  rfl

/-! ### Interrupts -/

namespace Interrupts

/-- From `i` to `j` requests have been added and nothing else has changed. -/
structure Raised (i j : Interrupts) : Prop where
  enable_eq : j.enable = i.enable
  flags {n : Nat} : Byte.bit i.flags n = true → Byte.bit j.flags n = true

variable {i j k : Interrupts}

theorem Raised.refl (i : Interrupts) : Raised i i := ⟨rfl, id⟩

theorem Raised.trans (h : Raised i j) (h' : Raised j k) : Raised i k :=
  ⟨h'.enable_eq.trans h.enable_eq, h'.flags ∘ h.flags⟩

theorem raised_requestIf (i : Interrupts) (on : Bool) (source : Interrupt) :
    Raised i (i.requestIf on source) := by
  unfold requestIf
  split
  · refine ⟨rfl, fun {n} h => ?_⟩
    have hbit : i.flags.toNat.testBit n = true := h
    simp [Byte.bit, request, hbit]
  · exact .refl i

/-- Of several pending sources vertical blank comes first. -/
theorem highest?_eq_vblank (he : Byte.bit i.enable 0 = true) (hf : Byte.bit i.flags 0 = true) :
    i.highest? = some .vblank := by
  have hbit : Byte.bit (i.pending &&& Interrupt.vblank.mask) 0 = true := by
    simp only [Byte.bit, Nat.testBit_zero, decide_eq_true_eq] at he hf
    simp [Byte.bit, pending, Interrupt.mask, he, hf]
  have hpending : (i.pending &&& Interrupt.vblank.mask != 0) = true := by
    rw [bne_iff_ne]
    intro hzero
    rw [hzero] at hbit
    cases hbit
  simp only [highest?, Interrupt.all, List.find?_cons, hpending]

end Interrupts

namespace Bus

variable {b : Bus}

theorem runTimer_raised (n : Nat) : b.interrupts.Raised (runTimer n b).interrupts := by
  induction n generalizing b with
  | zero => exact .refl _
  | succ n ih => exact (Interrupts.raised_requestIf _ _ _).trans (ih (b := b.tickTimer))

theorem runVideo_raised (n : Nat) : b.interrupts.Raised (runVideo n b).1.interrupts := by
  induction n generalizing b with
  | zero => exact .refl _
  | succ n ih =>
    have htick : b.interrupts.Raised b.tickVideo.1.interrupts :=
      (Interrupts.raised_requestIf _ _ _).trans (Interrupts.raised_requestIf _ _ _)
    exact htick.trans (ih (b := b.tickVideo.1))

/-- A machine cycle only adds requests. -/
theorem cycle_raised (b : Bus) : b.interrupts.Raised b.cycle.interrupts := by
  obtain ⟨_, _, _, h, -⟩ := b.cycle_eq
  rw [h]
  exact (runTimer_raised _).trans (runVideo_raised _)

/-- A write only adds requests, unless it goes to one of the interrupt registers. -/
theorem write_raised (b : Bus) {a : UInt16} (v : UInt8) (hf : a ≠ 0xFF0F) (he : a ≠ 0xFFFF) :
    b.interrupts.Raised (b.write a v).interrupts := by
  unfold Bus.write
  cases hl : Location.ofAddress a with
  | device r =>
    cases r with
    | serial r => exact Interrupts.raised_requestIf _ _ _
    | interruptFlags => exact absurd (Location.ofAddress_eq_device_iff.1 hl) hf
    | joypad | timer | video => exact .refl _
  | interruptEnable => exact absurd (Location.ofAddress_eq_interruptEnable hl) he
  | _ => exact .refl _

/-- A write leaves the enabled sources alone, unless it goes to their register. -/
theorem write_enable (b : Bus) {a : UInt16} (v : UInt8) (he : a ≠ 0xFFFF) :
    (b.write a v).interrupts.enable = b.interrupts.enable := by
  unfold Bus.write
  cases hl : Location.ofAddress a with
  | device r =>
    cases r with
    | serial r => exact (Interrupts.raised_requestIf _ _ _).enable_eq
    | interruptFlags | joypad | timer | video => rfl
  | interruptEnable => exact absurd (Location.ofAddress_eq_interruptEnable hl) he
  | _ => rfl

theorem perform_raised {xs : List Access} (hf : ∀ v, .write 0xFF0F v ∉ xs)
    (he : ∀ v, .write 0xFFFF v ∉ xs) (ha : ∀ source, .acknowledge source ∉ xs) :
    b.interrupts.Raised (b.perform xs).interrupts := by
  induction xs generalizing b with
  | nil => exact .refl _
  | cons x xs ih =>
    have hrest (b : Bus) : b.interrupts.Raised (b.perform xs).interrupts :=
      ih (fun v hv => hf v (List.mem_cons_of_mem x hv)) (fun v hv => he v (List.mem_cons_of_mem x hv))
        fun source hs => ha source (List.mem_cons_of_mem x hs)
    cases x with
    | quiet => exact b.cycle_raised.trans (hrest _)
    | write a v =>
      have hwrite : b.interrupts.Raised (b.write a v).interrupts := by
        refine b.write_raised v ?_ ?_
        · rintro rfl
          exact hf v List.mem_cons_self
        · rintro rfl
          exact he v List.mem_cons_self
      exact (hwrite.trans (cycle_raised _)).trans (hrest _)
    | acknowledge source => exact absurd List.mem_cons_self (ha source)

theorem perform_enable {xs : List Access} (he : ∀ v, .write 0xFFFF v ∉ xs) :
    (b.perform xs).interrupts.enable = b.interrupts.enable := by
  induction xs generalizing b with
  | nil => rfl
  | cons x xs ih =>
    have hrest (b : Bus) : (b.perform xs).interrupts.enable = b.interrupts.enable :=
      ih fun v hv => he v (List.mem_cons_of_mem x hv)
    rw [perform_cons, hrest]
    cases x with
    | quiet => exact b.cycle_raised.enable_eq
    | write a v =>
      refine (cycle_raised _).enable_eq.trans (b.write_enable v ?_)
      rintro rfl
      exact he v List.mem_cons_self
    | acknowledge source => rfl

/-- A write to a register goes to its device. -/
theorem write_address (b : Bus) (r : DeviceRegister) (v : UInt8) :
    b.write r.address v = b.writeDevice r v := by
  rw [write, Location.ofAddress_address]
  rfl

/-- A write to the register of requests replaces them. -/
theorem write_flags_interrupts (b : Bus) (v : UInt8) :
    (b.write 0xFF0F v).interrupts = b.interrupts.writeFlags v :=
  congrArg (·.interrupts) (b.write_address .interruptFlags v)

/-- A write to the register of enabled sources replaces them. -/
theorem write_enable_interrupts (b : Bus) (v : UInt8) :
    (b.write 0xFFFF v).interrupts = { b.interrupts with enable := v } := by
  have ha : Location.ofAddress 0xFFFF = .interruptEnable := by decide
  rw [write, ha]
  rfl

/-! ### The cartridge -/

/-- A cartridge without switches and RAM is in, and nothing has been written to it. -/
structure Fixed (b : Bus) (c : Cartridge) : Prop where
  cartridge_eq : b.cartridge = some c
  mapper_eq : c.mapper = .direct
  dirty_eq : c.dirty = false

variable {c : Cartridge}

theorem Fixed.needsSave (h : b.Fixed c) : b.needsSave = false := by
  rw [Bus.needsSave, h.cartridge_eq]
  exact h.dirty_eq

theorem Fixed.read (h : b.Fixed c) {a : UInt16} (ha : a.toNat < 0x8000) :
    b.read a = c.romByte a.toNat := by
  have hrom : c.readRom ⟨a.toNat, ha⟩ = c.romByte a.toNat := by
    rw [Cartridge.readRom, h.mapper_eq]
  unfold Bus.read Location.ofAddress
  dsimp only
  rw [dif_pos ha, readAt, h.cartridge_eq]
  exact hrom

theorem Fixed.cycle (h : b.Fixed c) : b.cycle.Fixed c := by
  obtain ⟨_, _, _, he, hclean⟩ := b.cycle_eq
  refine ⟨?_, h.mapper_eq, h.dirty_eq⟩
  rw [he]
  exact (hclean h.needsSave).trans h.cartridge_eq

theorem Fixed.write (h : b.Fixed c) (a : UInt16) (v : UInt8) : (b.write a v).Fixed c := by
  have hvisible : c.ramVisible = false := by simp [Cartridge.ramVisible, h.mapper_eq]
  refine ⟨?_, h.mapper_eq, h.dirty_eq⟩
  unfold Bus.write
  cases Location.ofAddress a with
  | rom i =>
    have hrom : c.writeRom i v = c := by rw [Cartridge.writeRom, h.mapper_eq]
    rw [writeAt, mapCartridge, h.cartridge_eq, Option.map_some, hrom]
  | cartridgeRam i =>
    have hram : c.writeRam i v = c := by
      rw [Cartridge.writeRam, hvisible]
      rfl
    rw [writeAt, mapCartridge, h.cartridge_eq, Option.map_some, hram]
  | device r => cases r <;> exact h.cartridge_eq
  | _ => exact h.cartridge_eq

theorem Fixed.perform (h : b.Fixed c) (xs : List Access) : (b.perform xs).Fixed c := by
  induction xs generalizing b with
  | nil => exact h
  | cons x xs ih =>
    cases x with
    | quiet => exact ih h.cycle
    | write a v => exact ih (h.write a v).cycle
    | acknowledge source => exact ih ⟨h.cartridge_eq, h.mapper_eq, h.dirty_eq⟩

/-! ### The display -/

/-- The display is on, no frame is complete, and more than `n` dots are left before vertical
blank. -/
structure Shows (b : Bus) (n : Nat) : Prop where
  onSchedule : b.video.OnSchedule
  displayOn : b.video.displayOn = true
  frameReady : b.video.frameReady = false
  toBlank : n < b.video.toBlank

/-- The display is off, and no frame is complete. -/
structure Dark (b : Bus) : Prop where
  onSchedule : b.video.OnSchedule
  displayOn : b.video.displayOn = false
  frameReady : b.video.frameReady = false

theorem Shows.mono {m n : Nat} (h : b.Shows m) (hn : n ≤ m) : b.Shows n :=
  ⟨h.onSchedule, h.displayOn, h.frameReady, Nat.lt_of_le_of_lt hn h.toBlank⟩

/-- Accesses that keep the display on, and take fewer ticks than are left. -/
theorem Shows.perform {m n : Nat} {xs : List Access} (h : b.Shows m)
    (hx : ∀ v, .write 0xFF40 v ∈ xs → Byte.bit v 7 = true)
    (hn : n + ticksPerCycle * Access.length xs = m) : (b.perform xs).Shows n := by
  have hvideo : (b.perform xs).video = b.video.run (Video.device.history b xs) :=
    Video.device.state_perform b xs
  have hk : ∀ e ∈ Video.device.history b xs, e.KeepsOn := fun _ => Video.keepsOn_of_mem_history hx
  have hticks := Video.ticks_history b xs
  have hfar := h.toBlank
  obtain ⟨-, hle⟩ | ⟨hready, hnear⟩ := Video.run_toBlank h.onSchedule h.displayOn hk
    fun _ => Video.ne_acknowledge_of_mem_history
  · omega
  · rw [← hvideo] at hready hnear
    refine ⟨?_, ?_, hready.trans h.frameReady, by omega⟩
    · rw [hvideo]
      exact h.onSchedule.run _
    · rw [hvideo]
      exact (Video.run_phase h.onSchedule h.displayOn hk).1

theorem Shows.cycle {n : Nat} (h : b.Shows (n + 4)) : b.cycle.Shows n := by
  have hperform : (b.perform [.quiet]).Shows n := h.perform (by simp) rfl
  exact hperform

theorem write_control_video (b : Bus) (v : UInt8) :
    (b.write 0xFF40 v).video = b.video.writeControl v :=
  congrArg Bus.video (b.write_address (.video .control) v)

theorem Shows.switchOff {n : Nat} (h : b.Shows n) {v : UInt8} (hv : Byte.bit v 7 = false) :
    (b.write 0xFF40 v).Dark := by
  refine ⟨?_, ?_, ?_⟩ <;> rw [write_control_video]
  · exact h.onSchedule.writeControl v
  · exact Video.Event.displayOff (e := .write .control v) (by simp [Video.Event.KeepsOn, hv])
  · exact (Video.Event.frameReady_eq (e := .write .control v) rfl (by simp)).trans h.frameReady

theorem Dark.cycle (h : b.Dark) : b.cycle.Dark := by
  obtain ⟨_, _, _, he, -⟩ := b.cycle_eq
  rw [he, Video.run_ticks_of_off h.displayOn]
  exact ⟨h.onSchedule.congr rfl rfl rfl rfl rfl, h.displayOn, h.frameReady⟩

theorem Dark.writeStatus (h : b.Dark) (v : UInt8) : (b.write 0xFF41 v).Dark := by
  have hvideo : (b.write 0xFF41 v).video = b.video.write .status v :=
    congrArg Bus.video (b.write_address (.video .status) v)
  refine ⟨?_, ?_, ?_⟩ <;> rw [hvideo]
  · exact h.onSchedule.write .status v
  · exact h.displayOn
  · exact h.frameReady

theorem Dark.switchOn (h : b.Dark) {v : UInt8} (hv : Byte.bit v 7 = true) :
    (b.write 0xFF40 v).Shows (Video.blankPhase - 1) := by
  obtain ⟨hon, hready, hblank⟩ := Video.writeControl_toBlank h.onSchedule h.displayOn hv
  refine ⟨?_, ?_, ?_, ?_⟩ <;> rw [write_control_video]
  · exact h.onSchedule.writeControl v
  · exact hon
  · exact hready.trans h.frameReady
  · rw [hblank]
    decide

end Bus

end DotMatrix
