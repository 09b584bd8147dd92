import DotMatrix.Proofs.Processor.Accesses
import DotMatrix.Proofs.Timer.Reload
import DotMatrix.Proofs.Video.History

/-!
# What accesses make of the devices

A device learns of the processor's accesses in two ways: its clock goes on in every machine cycle,
and writes to its registers reach it. All that happens to it while accesses are performed is one
history, in the order in which it happens.

* `ofAddress_eq_device_iff`: each device register has one address;
* `Bus.Device`: a device, with what it learns of an access;
* `Device.state_perform`: after accesses it is in the state that its history leads to;
* `Timer.device`, `Video.device`, `ObjectTransfer.device`: the devices that have a clock.
-/

namespace DotMatrix

/-! ### Addresses -/

/-- The address of a register. -/
def DeviceRegister.address : DeviceRegister → UInt16
  | .joypad => 0xFF00
  | .serial .data => 0xFF01
  | .serial .control => 0xFF02
  | .timer .divider => 0xFF04
  | .timer .counter => 0xFF05
  | .timer .modulo => 0xFF06
  | .timer .control => 0xFF07
  | .interruptFlags => 0xFF0F
  | .video .control => 0xFF40
  | .video .status => 0xFF41
  | .video .scrollY => 0xFF42
  | .video .scrollX => 0xFF43
  | .video .line => 0xFF44
  | .video .lineCompare => 0xFF45
  | .video .transfer => 0xFF46
  | .video .backgroundPalette => 0xFF47
  | .video .objectPalette0 => 0xFF48
  | .video .objectPalette1 => 0xFF49
  | .video .windowY => 0xFF4A
  | .video .windowX => 0xFF4B

theorem DeviceRegister.address_of_mem_ofOffset? :
    ∀ n : Fin 0x80, ∀ r ∈ ofOffset? n, r.address.toNat = 0xFF00 + n := by
  decide

theorem Location.ofAddress_address (r : DeviceRegister) : ofAddress r.address = .device r := by
  rcases r with _ | r | r | _ | r
  case serial | timer | video => cases r <;> decide +kernel
  all_goals decide +kernel

/-- Each register has one address. -/
theorem Location.ofAddress_eq_device_iff {a : UInt16} {r : DeviceRegister} :
    ofAddress a = .device r ↔ a = r.address := by
  constructor
  · intro h
    unfold ofAddress at h
    dsimp only at h
    -- The parts of the address space that come before the registers lead elsewhere.
    iterate 7 (split at h; · cases h)
    split at h
    · rw [ofOffset] at h
      split at h
      case h_1 r' hr =>
        obtain rfl := Location.device.inj h
        have hoffset := DeviceRegister.address_of_mem_ofOffset? ⟨a.toNat - 0xFF00, by omega⟩ r' hr
        apply UInt16.toNat.inj
        rw [hoffset]
        dsimp only
        omega
      case h_2 => cases h
    · split at h <;> cases h
  · rintro rfl
    exact ofAddress_address r

theorem Location.ofAddress_eq_interruptEnable {a : UInt16} (h : ofAddress a = .interruptEnable) :
    a = 0xFFFF := by
  unfold ofAddress at h
  dsimp only at h
  iterate 7 (split at h; · cases h)
  split at h
  · rw [ofOffset] at h
    split at h <;> cases h
  · split at h
    · cases h
    · apply UInt16.toNat.inj
      have hlt := a.toNat_lt
      show a.toNat = 0xFFFF
      omega

/-! ### Devices -/

namespace Bus

/-- A part of the machine that changes with time and with writes: its state, what happens to it in a
machine cycle and on a write, and what these events make of the state. -/
structure Device (σ ε : Type) where
  state : Bus → σ
  apply : σ → ε → σ
  cycle : Bus → List ε
  write : Bus → UInt16 → UInt8 → List ε
  cycle_eq (b : Bus) : state b.cycle = (cycle b).foldl apply (state b)
  write_eq (b : Bus) (a : UInt16) (v : UInt8) : state (b.write a v) = (write b a v).foldl apply (state b)
  interrupts_eq (b : Bus) (interrupts : Interrupts) : state { b with interrupts } = state b

namespace Device

variable {σ ε : Type} (d : Device σ ε) (b : Bus)

/-- What happens to the device in an access. -/
def events : Access → List ε
  | .quiet => d.cycle b
  | .write a v => d.write b a v ++ d.cycle (b.write a v)
  | .acknowledge _ => []

/-- What happens to the device in accesses in a row. -/
def history (b : Bus) : List Access → List ε
  | [] => []
  | x :: xs => d.events b x ++ history (b.access x) xs

theorem state_access (x : Access) :
    d.state (b.access x) = (d.events b x).foldl d.apply (d.state b) := by
  cases x with
  | quiet => exact d.cycle_eq b
  | write a v =>
    rw [events, List.foldl_append, ← d.write_eq, ← d.cycle_eq]
    rfl
  | acknowledge source => exact d.interrupts_eq b _

/-- **After accesses the device is where its history leads.** -/
theorem state_perform (xs : List Access) :
    d.state (b.perform xs) = (d.history b xs).foldl d.apply (d.state b) := by
  induction xs generalizing b with
  | nil => rfl
  | cons x xs ih =>
    rw [perform_cons, ih, state_access, history, List.foldl_append]

/-- An event that every machine cycle brings `n` times, and no write, happens as often as there are
machine cycles, times `n`. -/
theorem countP_history {p : ε → Bool} {n : Nat} (hcycle : ∀ b, (d.cycle b).countP p = n)
    (hwrite : ∀ b a v, (d.write b a v).countP p = 0) (xs : List Access) :
    (d.history b xs).countP p = n * Access.length xs := by
  induction xs generalizing b with
  | nil => rfl
  | cons x xs ih =>
    rw [history, List.countP_append, ih, Access.length_cons, Nat.mul_add]
    congr 1
    cases x with
    | quiet => rw [events, hcycle, Access.cycles_quiet, Nat.mul_one]
    | write a v =>
      rw [events, List.countP_append, hwrite, hcycle, Access.cycles_write, Nat.mul_one, Nat.zero_add]
    | acknowledge source => rfl

/-- An event that no machine cycle brings comes from a write. -/
theorem exists_write_of_mem_history {e : ε} (hcycle : ∀ b, e ∉ d.cycle b) {xs : List Access}
    (h : e ∈ d.history b xs) :
    ∃ c a v, Access.write a v ∈ xs ∧ e ∈ d.write c a v := by
  induction xs generalizing b with
  | nil => cases h
  | cons x xs ih =>
    rcases List.mem_append.1 h with h | h
    · cases x with
      | quiet => exact absurd h (hcycle b)
      | write a v =>
        rcases List.mem_append.1 h with h | h
        · exact ⟨b, a, v, List.mem_cons_self, h⟩
        · exact absurd h (hcycle _)
      | acknowledge source => cases h
    · obtain ⟨c, a, v, hmem, hwrite⟩ := ih (b.access x) h
      exact ⟨c, a, v, List.mem_cons_of_mem x hmem, hwrite⟩

end Device

/-! ### A machine cycle and a write

Each is a change of the devices it concerns and of nothing else that has a clock. -/

variable (b : Bus)

theorem runTimer_eq (n : Nat) : ∃ interrupts, runTimer n b =
    { b with timer := b.timer.run (List.replicate n .tick), interrupts } := by
  induction n generalizing b with
  | zero => exact ⟨_, rfl⟩
  | succ n ih =>
    obtain ⟨interrupts, h⟩ := ih b.tickTimer
    exact ⟨interrupts, h⟩

theorem runVideo_eq (n : Nat) : ∃ interrupts, (runVideo n b).1 =
    { b with video := b.video.run (List.replicate n .tick), interrupts } := by
  induction n generalizing b with
  | zero => exact ⟨_, rfl⟩
  | succ n ih =>
    obtain ⟨interrupts, h⟩ := ih b.tickVideo.1
    exact ⟨interrupts, h⟩

theorem saveRam_eq : ∃ cartridge host, b.saveRam = { b with cartridge, host } := by
  unfold saveRam
  split
  · exact ⟨_, _, rfl⟩
  · split
    · exact ⟨_, _, rfl⟩
    · exact ⟨_, _, rfl⟩

theorem vblankBegan_eq : ∃ cartridge host, b.vblankBegan = { b with cartridge, host } ∧
    (b.needsSave = false → cartridge = b.cartridge) := by
  unfold vblankBegan
  split
  · next h =>
    obtain ⟨cartridge, host, hsave⟩ := saveRam_eq { b with host := b.host.record .flushing }
    refine ⟨cartridge, host, hsave, fun hclean => ?_⟩
    rw [hclean, Bool.and_false] at h
    cases h
  · exact ⟨_, _, rfl, fun _ => rfl⟩

theorem stepTransfer_eq : ∃ objects, b.stepTransfer =
    { b with transfer := b.transfer.step.1, video := { b.video with objects } } := by
  unfold stepTransfer
  dsimp only
  split
  · exact ⟨_, rfl⟩
  · exact ⟨_, rfl⟩

/-- All that a machine cycle changes. The cartridge changes if its RAM is saved. -/
theorem cycle_eq : ∃ cartridge host objects, b.cycle =
    { b with
      timer := b.timer.run (List.replicate ticksPerCycle .tick)
      video := { b.video.run (List.replicate ticksPerCycle .tick) with objects }
      transfer := b.transfer.step.1
      interrupts := (runVideo ticksPerCycle (runTimer ticksPerCycle b)).1.interrupts
      cartridge, host } ∧
    (b.needsSave = false → cartridge = b.cartridge) := by
  obtain ⟨_, htimer⟩ := b.runTimer_eq ticksPerCycle
  obtain ⟨interrupts, hvideo⟩ := (runTimer ticksPerCycle b).runVideo_eq ticksPerCycle
  have hinterrupts : interrupts = (runVideo ticksPerCycle (runTimer ticksPerCycle b)).1.interrupts := by
    rw [hvideo]
  rw [← hinterrupts]
  unfold cycle
  dsimp only
  split
  · obtain ⟨cartridge, host, hvblank, hclean⟩ :=
      (runVideo ticksPerCycle (runTimer ticksPerCycle b)).1.vblankBegan_eq
    obtain ⟨objects, htransfer⟩ := stepTransfer_eq _
    rw [htransfer, hvblank]
    rw [hvideo, htimer] at hclean ⊢
    exact ⟨_, _, _, rfl, hclean⟩
  · obtain ⟨objects, htransfer⟩ := stepTransfer_eq _
    rw [htransfer, hvideo, htimer]
    exact ⟨_, _, _, rfl, fun _ => rfl⟩

end Bus

/-! ### The devices that have a clock -/

namespace Timer

/-- A write, as the timer sees it. -/
def written (a : UInt16) (v : UInt8) : List Event :=
  match Location.ofAddress a with
  | .device (.timer r) => [.write r v]
  | _ => []

/-- The timer on the bus. -/
def device : Bus.Device Timer Event where
  state b := b.timer
  apply := Event.apply
  cycle _ := List.replicate Bus.ticksPerCycle .tick
  write _ a v := written a v
  cycle_eq b := by
    obtain ⟨_, _, _, h, -⟩ := b.cycle_eq
    rw [h]
    rfl
  write_eq b a v := by
    unfold Bus.write written
    cases Location.ofAddress a with
    | device r => cases r <;> rfl
    | _ => rfl
  interrupts_eq _ _ := rfl

theorem ticks_history (b : Bus) (xs : List Access) :
    ticks (device.history b xs) = Bus.ticksPerCycle * Access.length xs := by
  refine device.countP_history b (fun _ => rfl) (fun _ a v => ?_) xs
  show (written a v).countP (· == .tick) = 0
  unfold written
  split <;> rfl

/-- The timer's registers are written by writes to their addresses alone. -/
theorem write_mem_of_mem_history {b : Bus} {xs : List Access} {r : Register} {v : UInt8}
    (h : .write r v ∈ device.history b xs) : .write (DeviceRegister.timer r).address v ∈ xs := by
  have hcycle : ∀ c, .write r v ∉ device.cycle c := by simp [device]
  obtain ⟨_, a, w, hmem, hw⟩ := device.exists_write_of_mem_history b hcycle h
  change .write r v ∈ written a w at hw
  unfold written at hw
  split at hw
  case h_1 r' ha =>
    obtain ⟨rfl, rfl⟩ := Event.write.inj (List.mem_singleton.1 hw)
    rwa [Location.ofAddress_eq_device_iff.1 ha] at hmem
  case h_2 => cases hw

end Timer

namespace ObjectTransfer

/-- What happens to a transfer. -/
inductive Event
  | step
  | start (page : UInt8)
  deriving DecidableEq, Repr

/-- The transfer after an event. -/
def Event.apply (t : ObjectTransfer) : Event → ObjectTransfer
  | step => t.step.1
  | start page => .start page

/-- The transfer after events in a row. -/
def run (t : ObjectTransfer) (es : List Event) : ObjectTransfer := es.foldl Event.apply t

/-- How many of the events are steps. -/
def steps (es : List Event) : Nat := es.count .step

/-- A write, as the transfer sees it. -/
def written (a : UInt16) (v : UInt8) : List Event :=
  match Location.ofAddress a with
  | .device (.video .transfer) => [.start v]
  | _ => []

/-- The object transfer on the bus. -/
def device : Bus.Device ObjectTransfer Event where
  state b := b.transfer
  apply := Event.apply
  cycle _ := [.step]
  write _ a v := written a v
  cycle_eq b := by
    obtain ⟨_, _, _, h, -⟩ := b.cycle_eq
    rw [h]
    rfl
  write_eq b a v := by
    unfold Bus.write written
    cases Location.ofAddress a with
    | device r =>
      cases r with
      | video r => cases r <;> rfl
      | _ => rfl
    | _ => rfl
  interrupts_eq _ _ := rfl

theorem steps_history (b : Bus) (xs : List Access) :
    steps (device.history b xs) = Access.length xs := by
  have hcount := device.countP_history b (p := (· == .step)) (n := 1) (fun _ => rfl)
    (fun _ a v => ?_) xs
  · rw [Nat.one_mul] at hcount
    exact hcount
  · show (written a v).countP (· == .step) = 0
    unfold written
    split <;> rfl

end ObjectTransfer

namespace Video

/-- A change of the memories to those of another unit. -/
def Event.memoriesOf (v : Video) : Event := .memories v.ram v.objects

/-- A write, as the video unit sees it. -/
def written (b : Bus) (a : UInt16) (v : UInt8) : List Event :=
  match Location.ofAddress a with
  | .device (.video r) => [.write r v]
  | _ => [.memoriesOf (b.write a v).video]

theorem written_eq_singleton (b : Bus) (a : UInt16) (v : UInt8) :
    ∃ e : Event, written b a v = [e] ∧ e.isTick = false := by
  unfold written
  split
  · exact ⟨_, rfl, rfl⟩
  · exact ⟨_, rfl, rfl⟩

/-- The video unit on the bus. Its memories are also written by programs and object transfers. -/
def device : Bus.Device Video Event where
  state b := b.video
  apply := Event.apply
  cycle b := List.replicate Bus.ticksPerCycle .tick ++ [.memoriesOf b.cycle.video]
  write := written
  cycle_eq b := by
    obtain ⟨_, _, _, h, -⟩ := b.cycle_eq
    rw [List.foldl_append, h]
    rfl
  write_eq b a v := by
    unfold written Bus.write
    cases Location.ofAddress a with
    | device r => cases r <;> rfl
    | _ => rfl
  interrupts_eq _ _ := rfl

theorem ticks_history (b : Bus) (xs : List Access) :
    ticks (device.history b xs) = Bus.ticksPerCycle * Access.length xs := by
  refine device.countP_history b (fun _ => rfl) (fun c a v => ?_) xs
  obtain ⟨e, he, ht⟩ := written_eq_singleton c a v
  show (written c a v).countP Event.isTick = 0
  rw [he, List.countP_singleton, ht]
  rfl

/-- The unit's registers are written by writes to their addresses alone. -/
theorem write_mem_of_mem_history {b : Bus} {xs : List Access} {r : Register} {v : UInt8}
    (h : .write r v ∈ device.history b xs) : .write (DeviceRegister.video r).address v ∈ xs := by
  have hcycle : ∀ c, .write r v ∉ device.cycle c := by simp [device, Event.memoriesOf]
  obtain ⟨c, a, w, hmem, hw⟩ := device.exists_write_of_mem_history b hcycle h
  change .write r v ∈ written c a w at hw
  unfold written at hw
  split at hw
  case h_1 r' ha =>
    obtain ⟨rfl, rfl⟩ := Event.write.inj (List.mem_singleton.1 hw)
    rwa [Location.ofAddress_eq_device_iff.1 ha] at hmem
  case h_2 => cases List.mem_singleton.1 hw

theorem ne_acknowledge_of_mem_history {b : Bus} {xs : List Access} {e : Event}
    (he : e ∈ device.history b xs) : e ≠ .acknowledge := by
  rintro rfl
  have hcycle : ∀ c, .acknowledge ∉ device.cycle c := by simp [device, Event.memoriesOf]
  obtain ⟨c, a, w, -, hw⟩ := device.exists_write_of_mem_history b hcycle he
  change .acknowledge ∈ written c a w at hw
  unfold written at hw
  split at hw
  · cases List.mem_singleton.1 hw
  · cases List.mem_singleton.1 hw

/-- Accesses that write no byte with bit 7 clear to the control register keep the display on. -/
theorem keepsOn_of_mem_history {b : Bus} {xs : List Access}
    (h : ∀ v, .write 0xFF40 v ∈ xs → Byte.bit v 7 = true) {e : Event}
    (he : e ∈ device.history b xs) : e.KeepsOn := by
  cases e with
  | write r v =>
    cases r with
    | control => exact h v (write_mem_of_mem_history he)
    | _ => trivial
  | _ => trivial

end Video

end DotMatrix
