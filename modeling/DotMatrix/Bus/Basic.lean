import DotMatrix.Bus.Address
import DotMatrix.Cartridge.Storage
import DotMatrix.Interrupts
import DotMatrix.Joypad
import DotMatrix.Video.Clock

/-!
# The bus

The memories and devices of the machine, what a program reads and writes through them, and how they
advance with the clock.

* `Bus.read`, `Bus.write`: one byte. Reading changes nothing;
* `Bus.cycle`: one machine cycle, which is four clock ticks for the timer and the video unit and
  one step of an object transfer. When vertical blank begins, RAM that has changed may be saved.
-/

namespace DotMatrix

/-- Everything in the machine but the processor. -/
structure Bus where
  workRam : Memory 0x2000
  highRam : Memory 0x7F
  cartridge : Option Cartridge
  interrupts : Interrupts
  serial : Serial
  video : Video
  timer : Timer
  joypad : Joypad
  transfer : ObjectTransfer
  /-- Is changed RAM saved when vertical blank begins? -/
  saveAtVBlank : Bool
  host : Host

namespace Bus

/-- The bus when power comes on, with no cartridge. -/
def powerOn (host : Host) : Bus :=
  { workRam := .filled 0x2000 0, highRam := .filled 0x7F 0, cartridge := none
    interrupts := .powerOn, serial := .powerOn, video := .powerOn, timer := .powerOn
    joypad := .powerOn, transfer := .idle, saveAtVBlank := false, host }

variable (b : Bus)

/-! ### Reading -/

/-- A read of a device register. -/
def readDevice : DeviceRegister → UInt8
  | .joypad => b.joypad.read
  | .serial r => b.serial.read r
  | .timer r => b.timer.read r
  | .interruptFlags => b.interrupts.readFlags
  | .video r => b.video.read r

/-- A read of a location. An object transfer keeps object memory for itself; lines that nothing
drives read as ones. -/
def readAt : Location → UInt8
  | .rom a =>
    match b.cartridge with
    | some c => c.readRom a
    | none => 0xFF
  | .videoRam i => b.video.ram.get i
  | .cartridgeRam i =>
    match b.cartridge with
    | some c => c.readRam i
    | none => 0xFF
  | .workRam i => b.workRam.get i
  | .objects i => if b.transfer.isActive then 0xFF else b.video.objects.get i
  | .nothing => 0xFF
  | .device r => b.readDevice r
  | .unused => 0xFF
  | .highRam i => b.highRam.get i
  | .interruptEnable => b.interrupts.enable

/-- The byte at an address. -/
def read (a : UInt16) : UInt8 := b.readAt (.ofAddress a)

/-- The word at an address, low byte first. -/
def readWord (a : UInt16) : UInt16 := Word.ofBytes (b.read (a + 1)) (b.read a)

/-! ### Writing -/

/-- A write to a video register. The register for object transfers starts one. -/
def writeVideo (r : Video.Register) (v : UInt8) : Bus :=
  let transfer := if r = .transfer then .start v else b.transfer
  { b with video := b.video.write r v, transfer }

/-- A write to a device register. -/
def writeDevice (r : DeviceRegister) (v : UInt8) : Bus :=
  match r with
  | .joypad => { b with joypad := b.joypad.write v }
  | .serial r =>
    { b with
      serial := b.serial.write r v
      interrupts := b.interrupts.requestIf (Serial.starts r v) .serial }
  | .timer r => { b with timer := b.timer.write r v }
  | .interruptFlags => { b with interrupts := b.interrupts.writeFlags v }
  | .video r => b.writeVideo r v

/-- A byte of video RAM. -/
def writeVideoRam (i : Fin 0x2000) (v : UInt8) : Bus :=
  { b with video := { b.video with ram := b.video.ram.set i v } }

/-- A byte of object memory. -/
def writeObject (i : Fin 160) (v : UInt8) : Bus :=
  { b with video := { b.video with objects := b.video.objects.set i v } }

/-- Change the cartridge, if there is one. -/
def mapCartridge (f : Cartridge → Cartridge) : Bus := { b with cartridge := b.cartridge.map f }

/-- A write to a location. -/
def writeAt (a : UInt16) (l : Location) (v : UInt8) : Bus :=
  match l with
  | .rom i => b.mapCartridge (·.writeRom i v)
  | .videoRam i => b.writeVideoRam i v
  | .cartridgeRam i => b.mapCartridge (·.writeRam i v)
  | .workRam i => { b with workRam := b.workRam.set i v }
  | .objects i => b.writeObject i v
  | .nothing => b
  | .device r => b.writeDevice r v
  | .unused => { b with host := b.host.record (.writeIgnored v a) }
  | .highRam i => { b with highRam := b.highRam.set i v }
  | .interruptEnable => { b with interrupts := { b.interrupts with enable := v } }

/-- Write the byte at an address. -/
def write (a : UInt16) (v : UInt8) : Bus := b.writeAt a (.ofAddress a) v

/-- Write the word at an address, low byte first. -/
def writeWord (a : UInt16) (w : UInt16) : Bus :=
  (b.write a (Word.low w)).write (a + 1) (Word.high w)

/-! ### The cartridge's RAM -/

/-- Has the cartridge RAM that is not saved? -/
def needsSave : Bool := b.cartridge.any (·.dirty)

/-- Save the cartridge's RAM. A failure is recorded and leaves the RAM unsaved. -/
def saveRam : Bus :=
  match b.cartridge with
  | none => b
  | some c =>
    match b.host.save c with
    | (host, .ok c) => { b with cartridge := some c, host }
    | (host, .error e) => { b with host := host.record (.saveFailed e) }

/-- What happens when vertical blank begins. -/
def vblankBegan : Bus :=
  if b.saveAtVBlank && b.needsSave then saveRam { b with host := b.host.record .flushing } else b

/-- Put a cartridge in. -/
def insert (c : Cartridge) : Bus := { b with cartridge := some c }

/-! ### Time -/

/-- Clock ticks in a machine cycle. -/
def ticksPerCycle : Nat := 4

/-- One clock tick of the timer. -/
def tickTimer : Bus :=
  let timer := b.timer.tick
  { b with timer, interrupts := b.interrupts.requestIf timer.reloading .timer }

/-- Clock ticks of the timer. -/
def runTimer : Nat → Bus → Bus
  | 0, b => b
  | n + 1, b => runTimer n b.tickTimer

/-- The interrupt registers after the video unit has sent its signals. -/
def receive (i : Interrupts) (s : Video.Signals) : Interrupts :=
  (i.requestIf s.vblank .vblank).requestIf s.status .lcdStatus

/-- One clock tick of the video unit, and whether vertical blank began. -/
def tickVideo : Bus × Bool :=
  let (video, s) := b.video.tick
  ({ b with video, interrupts := receive b.interrupts s }, s.vblank)

/-- Clock ticks of the video unit, and whether vertical blank began in one of them. -/
def runVideo : Nat → Bus → Bus × Bool
  | 0, b => (b, false)
  | n + 1, b =>
    let (b, began) := b.tickVideo
    let (b, beganLater) := runVideo n b
    (b, began || beganLater)

/-- Copy the next byte of an object transfer, if one is due. -/
def stepTransfer : Bus :=
  let (transfer, copy?) := b.transfer.step
  let b := { b with transfer }
  match copy? with
  | none => b
  | some copy => b.writeObject copy.index (b.read copy.source)

/-- One machine cycle. -/
def cycle : Bus :=
  let (b, began) := runVideo ticksPerCycle (runTimer ticksPerCycle b)
  stepTransfer (if began then b.vblankBegan else b)

/-! ### The player -/

/-- Press or release a button. -/
def setButton (button : Button) (down : Bool) : Bus :=
  { b with
    joypad := b.joypad.setButton button down
    interrupts := b.interrupts.requestIf (b.joypad.isNewPress button down) .joypad }

/-- Take the bytes that have left over the serial link. -/
def takeSerial : Array UInt8 × Bus := (b.serial.sent, { b with serial := b.serial.drain })

end Bus

end DotMatrix
