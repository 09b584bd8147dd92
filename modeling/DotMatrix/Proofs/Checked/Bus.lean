import DotMatrix.Bus.Basic
import DotMatrix.Proofs.Checked.Cartridge
import DotMatrix.Proofs.Checked.Devices
import DotMatrix.Proofs.Checked.Video

/-!
# The bus, checked

An address leads to a cell of a memory by taking away the address of the memory's first cell; the
cell has to exist. In a machine cycle the bus lets every device go on.

* `Location.resolve?_eq`: every address leads somewhere;
* `Sound`: what the video unit, the timer and the object transfer need to go on;
* `cycle?_eq`: a machine cycle of a sound bus;
* `Sound.cycle`, `Sound.write`: a bus stays sound.
-/

namespace DotMatrix

/-! ### Addresses -/

/-- The cell of a memory of `size` bytes that begins at `base`. -/
def Location.cell? (size n base : Nat) : Option (Fin size) := do
  let i ← Checked.sub n base
  if h : i < size then some ⟨i, h⟩ else none

/-- What an address leads to. -/
def Location.resolve? (a : UInt16) : Option Location :=
  let n := a.toNat
  if n < 0x8000 then (cell? 0x8000 n 0).map .rom
  else if n < 0xA000 then (cell? 0x2000 n 0x8000).map .videoRam
  else if n < 0xC000 then (cell? 0x2000 n 0xA000).map .cartridgeRam
  else if n < 0xE000 then (cell? 0x2000 n 0xC000).map .workRam
  else if n < 0xFE00 then (cell? 0x2000 n 0xE000).map .workRam
  else if n < 0xFEA0 then (cell? 160 n 0xFE00).map .objects
  else if n < 0xFF00 then some .nothing
  else if n < 0xFF80 then some (.ofOffset (n - 0xFF00))
  else if n < 0xFFFF then (cell? 0x7F n 0xFF80).map .highRam
  else some .interruptEnable

theorem Location.cell?_eq {size n base : Nat} (h : base ≤ n) (h' : n - base < size) :
    cell? size n base = some ⟨n - base, h'⟩ := by
  rw [cell?, Checked.sub_eq h, Option.bind_eq_bind, Option.bind_some, dif_pos h']

theorem Location.resolve?_eq (a : UInt16) : resolve? a = some (ofAddress a) := by
  unfold resolve? ofAddress
  by_cases h1 : a.toNat < 0x8000
  · rw [if_pos h1, dif_pos h1, cell?_eq (by omega) (by omega)]
    rfl
  rw [if_neg h1, dif_neg h1]
  by_cases h2 : a.toNat < 0xA000
  · rw [if_pos h2, dif_pos h2, cell?_eq (by omega) (by omega)]
    rfl
  rw [if_neg h2, dif_neg h2]
  by_cases h3 : a.toNat < 0xC000
  · rw [if_pos h3, dif_pos h3, cell?_eq (by omega) (by omega)]
    rfl
  rw [if_neg h3, dif_neg h3]
  by_cases h4 : a.toNat < 0xE000
  · rw [if_pos h4, dif_pos h4, cell?_eq (by omega) (by omega)]
    rfl
  rw [if_neg h4, dif_neg h4]
  by_cases h5 : a.toNat < 0xFE00
  · rw [if_pos h5, dif_pos h5, cell?_eq (by omega) (by omega)]
    rfl
  rw [if_neg h5, dif_neg h5]
  by_cases h6 : a.toNat < 0xFEA0
  · rw [if_pos h6, dif_pos h6, cell?_eq (by omega) (by omega)]
    rfl
  rw [if_neg h6, dif_neg h6]
  by_cases h7 : a.toNat < 0xFF00
  · rw [if_pos h7, if_pos h7]
  rw [if_neg h7, if_neg h7]
  by_cases h8 : a.toNat < 0xFF80
  · rw [if_pos h8, if_pos h8]
  rw [if_neg h8, if_neg h8]
  by_cases h9 : a.toNat < 0xFFFF
  · rw [if_pos h9, dif_pos h9, cell?_eq (by omega) (by omega)]
    rfl
  rw [if_neg h9, dif_neg h9]

namespace Bus

/-! ### Reading and writing -/

/-- A read of a location. -/
def readAt? (b : Bus) : Location → Option UInt8
  | .rom a =>
    match b.cartridge with
    | some c => c.readRom? a.val
    | none => some 0xFF
  | .cartridgeRam i =>
    match b.cartridge with
    | some c => c.readRam? i.val
    | none => some 0xFF
  | l => some (b.readAt l)

/-- The byte at an address. -/
def read? (b : Bus) (a : UInt16) : Option UInt8 := do b.readAt? (← Location.resolve? a)

/-- A write to the cartridge's RAM, if there is a cartridge. -/
def writeCartridgeRam? (b : Bus) (offset : Nat) (v : UInt8) : Option Bus := do
  let cartridge ← b.cartridge.mapM (·.writeRam? offset v)
  some { b with cartridge }

/-- A write to a location. -/
def writeAt? (b : Bus) (a : UInt16) (l : Location) (v : UInt8) : Option Bus :=
  match l with
  | .cartridgeRam i => b.writeCartridgeRam? i.val v
  | l => some (b.writeAt a l v)

/-- Write the byte at an address. -/
def write? (b : Bus) (a : UInt16) (v : UInt8) : Option Bus := do
  b.writeAt? a (← Location.resolve? a) v

theorem readAt?_eq (b : Bus) (l : Location) : b.readAt? l = some (b.readAt l) := by
  cases l with
  | rom a =>
    unfold readAt? readAt
    cases b.cartridge with
    | none => rfl
    | some c => exact c.readRom?_eq a
  | cartridgeRam i =>
    unfold readAt? readAt
    cases b.cartridge with
    | none => rfl
    | some c => exact c.readRam?_eq i
  | _ => rfl

theorem read?_eq (b : Bus) (a : UInt16) : b.read? a = some (b.read a) := by
  rw [read?, Location.resolve?_eq, Option.bind_eq_bind, Option.bind_some, readAt?_eq, read]

theorem writeCartridgeRam?_eq (b : Bus) (i : Fin 0x2000) (v : UInt8) :
    b.writeCartridgeRam? i.val v = some (b.mapCartridge (·.writeRam i v)) := by
  unfold writeCartridgeRam? mapCartridge
  rw [funext fun c : Cartridge => c.writeRam?_eq i v]
  cases b.cartridge <;> rfl

theorem writeAt?_eq (b : Bus) (a : UInt16) (l : Location) (v : UInt8) :
    b.writeAt? a l v = some (b.writeAt a l v) := by
  cases l with
  | cartridgeRam i => exact b.writeCartridgeRam?_eq i v
  | _ => rfl

theorem write?_eq (b : Bus) (a : UInt16) (v : UInt8) : b.write? a v = some (b.write a v) := by
  rw [write?, Location.resolve?_eq, Option.bind_eq_bind, Option.bind_some, writeAt?_eq, write]

/-! ### Time -/

/-- One clock tick of the timer. -/
def tickTimer? (b : Bus) : Option Bus := do
  let timer ← b.timer.tick?
  some { b with timer, interrupts := b.interrupts.requestIf timer.reloading .timer }

/-- Clock ticks of the timer. -/
def runTimer? : Nat → Bus → Option Bus
  | 0, b => some b
  | n + 1, b => do runTimer? n (← b.tickTimer?)

/-- One clock tick of the video unit, and whether vertical blank began. -/
def tickVideo? (b : Bus) : Option (Bus × Bool) := do
  let (video, s) ← b.video.tick?
  some ({ b with video, interrupts := receive b.interrupts s }, s.vblank)

/-- Clock ticks of the video unit, and whether vertical blank began in one of them. -/
def runVideo? : Nat → Bus → Option (Bus × Bool)
  | 0, b => some (b, false)
  | n + 1, b => do
    let (b, began) ← b.tickVideo?
    let (b, beganLater) ← runVideo? n b
    some (b, began || beganLater)

/-- Copy the next byte of an object transfer, if one is due. -/
def stepTransfer? (b : Bus) : Option Bus := do
  let (transfer, copy?) ← b.transfer.step?
  let b := { b with transfer }
  match copy? with
  | none => some b
  | some copy => b.write? copy.destination (← b.read? copy.source)

/-- One machine cycle. -/
def cycle? (b : Bus) : Option Bus := do
  let (b, began) ← runVideo? ticksPerCycle (← runTimer? ticksPerCycle b)
  stepTransfer? (if began then b.vblankBegan else b)

/-- What the devices need to go on. -/
structure Sound (b : Bus) : Prop where
  onSchedule : b.video.OnSchedule
  latched : b.video.Latched
  windowOpen : b.timer.WindowOpen
  counting : b.transfer.Counting

variable {b : Bus}

theorem powerOn_sound (host : Host) : Sound (powerOn host) :=
  ⟨Video.powerOn_onSchedule, Video.powerOn_latched, Timer.powerOn_windowOpen,
    ObjectTransfer.idle_counting⟩

/-- A change that leaves the three devices alone. -/
theorem Sound.congr {c : Bus} (h : Sound b) (hv : c.video = b.video) (ht : c.timer = b.timer)
    (hd : c.transfer = b.transfer) : Sound c :=
  ⟨hv ▸ h.onSchedule, hv ▸ h.latched, ht ▸ h.windowOpen, hd ▸ h.counting⟩

theorem Sound.tickTimer (h : Sound b) : Sound b.tickTimer :=
  ⟨h.onSchedule, h.latched, h.windowOpen.tick, h.counting⟩

theorem Sound.runTimer (h : Sound b) (n : Nat) : Sound (runTimer n b) := by
  induction n generalizing b with
  | zero => exact h
  | succ n ih => exact ih h.tickTimer

theorem Sound.tickVideo (h : Sound b) : Sound b.tickVideo.1 :=
  ⟨h.onSchedule.tick, h.latched.tick, h.windowOpen, h.counting⟩

theorem Sound.runVideo (h : Sound b) (n : Nat) : Sound (runVideo n b).1 := by
  induction n generalizing b with
  | zero => exact h
  | succ n ih => exact ih h.tickVideo

theorem Sound.saveRam (h : Sound b) : Sound b.saveRam := by
  unfold Bus.saveRam
  split
  · exact h
  · split <;> exact h.congr rfl rfl rfl

theorem Sound.vblankBegan (h : Sound b) : Sound b.vblankBegan := by
  unfold Bus.vblankBegan
  split
  · exact saveRam (h.congr rfl rfl rfl)
  · exact h

/-- A change of the two memories of the video unit. -/
theorem Sound.memories (h : Sound b) (ram : Memory 0x2000) (objects : Memory 160) :
    Sound { b with video := { b.video with ram, objects } } :=
  ⟨h.onSchedule.congr rfl rfl rfl rfl rfl, h.latched.congr rfl rfl rfl id, h.windowOpen, h.counting⟩

theorem Sound.writeObject (h : Sound b) (i : Fin 160) (v : UInt8) : Sound (b.writeObject i v) :=
  h.memories _ _

theorem Sound.stepTransfer (h : Sound b) : Sound b.stepTransfer := by
  have hstep : Sound { b with transfer := b.transfer.step.1 } :=
    ⟨h.onSchedule, h.latched, h.windowOpen, h.counting.step⟩
  unfold Bus.stepTransfer
  dsimp only
  split
  · exact hstep
  · exact hstep.writeObject _ _

theorem Sound.cycle (h : Sound b) : Sound b.cycle := by
  have hrun := (h.runTimer ticksPerCycle).runVideo ticksPerCycle
  unfold Bus.cycle
  dsimp only
  split
  · exact hrun.vblankBegan.stepTransfer
  · exact hrun.stepTransfer

theorem Sound.writeVideo (h : Sound b) (r : Video.Register) (v : UInt8) :
    Sound (b.writeVideo r v) where
  onSchedule := h.onSchedule.write r v
  latched := h.latched.write r v
  windowOpen := h.windowOpen
  counting := by
    unfold Bus.writeVideo
    dsimp only
    split
    · exact ObjectTransfer.start_counting v
    · exact h.counting

theorem Sound.writeDevice (h : Sound b) (r : DeviceRegister) (v : UInt8) :
    Sound (b.writeDevice r v) := by
  cases r with
  | timer r => exact ⟨h.onSchedule, h.latched, h.windowOpen.write r v, h.counting⟩
  | video r => exact h.writeVideo r v
  | joypad => exact h.congr rfl rfl rfl
  | serial r => exact h.congr rfl rfl rfl
  | interruptFlags => exact h.congr rfl rfl rfl

theorem Sound.write (h : Sound b) (a : UInt16) (v : UInt8) : Sound (b.write a v) := by
  unfold Bus.write
  cases Location.ofAddress a with
  | videoRam i => exact h.memories _ _
  | objects i => exact h.writeObject i v
  | device r => exact h.writeDevice r v
  | _ => exact h.congr rfl rfl rfl

theorem tickTimer?_eq (h : Sound b) : b.tickTimer? = some b.tickTimer := by
  rw [tickTimer?, Timer.tick?_eq h.windowOpen]
  rfl

theorem runTimer?_eq (h : Sound b) (n : Nat) : runTimer? n b = some (runTimer n b) := by
  induction n generalizing b with
  | zero => rfl
  | succ n ih =>
    rw [runTimer?, tickTimer?_eq h]
    exact ih h.tickTimer

theorem tickVideo?_eq (h : Sound b) : b.tickVideo? = some b.tickVideo := by
  rw [tickVideo?, Video.tick?_eq h.onSchedule h.latched]
  rfl

theorem runVideo?_eq (h : Sound b) (n : Nat) : runVideo? n b = some (runVideo n b) := by
  induction n generalizing b with
  | zero => rfl
  | succ n ih =>
    rw [runVideo?, tickVideo?_eq h]
    simp only [Option.bind_eq_bind, Option.bind_some]
    rw [ih h.tickVideo]
    rfl

/-- A copy goes to a cell of object memory. -/
theorem ofAddress_destination (c : ObjectTransfer.Copy) :
    Location.ofAddress c.destination = .objects c.index := by
  have hi := c.index.isLt
  have hn : c.destination.toNat = 0xFE00 + c.index.val := by
    show (0xFE00 + c.index.val % 2 ^ 16) % 2 ^ 16 = _
    omega
  unfold Location.ofAddress
  rw [dif_neg (by omega), dif_neg (by omega), dif_neg (by omega), dif_neg (by omega),
    dif_neg (by omega), dif_pos (by omega)]
  refine congrArg Location.objects (Fin.ext ?_)
  show c.destination.toNat - 0xFE00 = c.index.val
  omega

theorem stepTransfer?_eq (h : Sound b) : b.stepTransfer? = some b.stepTransfer := by
  unfold stepTransfer? stepTransfer
  rw [ObjectTransfer.step?_eq h.counting]
  obtain ⟨transfer, copy?⟩ := b.transfer.step
  cases copy? with
  | none => rfl
  | some copy =>
    simp only [Option.bind_eq_bind, Option.bind_some]
    -- A copy is a write like any other, and its address leads to object memory.
    rw [read?_eq, Option.bind_some, write?_eq, write, ofAddress_destination]
    rfl

/-- **A machine cycle of a sound bus.** -/
theorem cycle?_eq (h : Sound b) : b.cycle? = some b.cycle := by
  have hrun := (h.runTimer ticksPerCycle).runVideo ticksPerCycle
  unfold cycle? cycle
  rw [runTimer?_eq h]
  simp only [Option.bind_eq_bind, Option.bind_some]
  rw [runVideo?_eq (h.runTimer _)]
  simp only [Option.bind_some]
  split
  · exact stepTransfer?_eq hrun.vblankBegan
  · exact stepTransfer?_eq hrun

end Bus

end DotMatrix
