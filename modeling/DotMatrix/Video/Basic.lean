import DotMatrix.Video.Shade
import DotMatrix.Video.Sprite

/-!
# The video unit: state and registers

The unit goes through the screen line by line. A line takes 456 dots: 80 of object scan, 172 of
transfer, the rest horizontal blank. Ten more lines of vertical blank follow the 144 that are
shown. `line` and `dot` say how far it has come, `mode` which of the four phases it is in.

Switching the display off holds the unit at the beginning of line 0; switching it on starts the
object scan of that line.
-/

namespace DotMatrix

namespace Video

/-- The four phases of the unit. -/
inductive Mode
  | hblank | vblank | objectScan | transfer
  deriving DecidableEq, Repr

/-- The mode's number in the status register. -/
def Mode.number : Mode → UInt8
  | .hblank => 0
  | .vblank => 1
  | .objectScan => 2
  | .transfer => 3

/-- The twelve registers that a program sees. -/
inductive Register
  | control | status | scrollY | scrollX | line | lineCompare | transfer
  | backgroundPalette | objectPalette0 | objectPalette1 | windowY | windowX
  deriving DecidableEq, Repr

/-- Dots of the object scan. -/
def scanDots : Nat := 80

/-- The dot at which the transfer of a line ends. -/
def transferEnd : Nat := 252

/-- Dots of a line. -/
def lineDots : Nat := 456

/-- Lines of a frame, shown or blank. -/
def frameLines : Nat := 154

/-- Dots of a frame. -/
def frameDots : Nat := 70224

end Video

/-- The state of the video unit. -/
structure Video where
  /-- Tile patterns and tile maps. -/
  ram : Memory 0x2000
  /-- Object memory: the sprites. -/
  objects : Memory 160
  control : UInt8
  /-- The four bits that choose the causes of the status interrupt. -/
  statusSelect : UInt8
  /-- Was `line` equal to `lineCompare` when the two were last compared? -/
  coincidence : Bool
  scrollY : UInt8
  scrollX : UInt8
  lineCompare : UInt8
  /-- The page of the last object transfer. -/
  transferPage : UInt8
  backgroundPalette : UInt8
  objectPalette0 : UInt8
  objectPalette1 : UInt8
  windowY : UInt8
  windowX : UInt8
  mode : Video.Mode
  line : Nat
  /-- Dots of the line that have passed. -/
  dot : Nat
  /-- The row of the window that the next line with a window will show. -/
  windowLine : UInt8
  /-- The sprites found by the last object scan, in drawing order. -/
  sprites : List Sprite
  /-- Did the last object scan look for tall sprites? -/
  tallSprites : Bool
  picture : Picture
  /-- A frame has been completed and nobody has acknowledged it. -/
  frameReady : Bool
  /-- Frames begun since power on, the first not counted. -/
  frames : Nat

namespace Video

/-- The unit when a program starts: part of the way through vertical blank. -/
def powerOn : Video :=
  { ram := .filled 0x2000 0, objects := .filled 160 0
    control := 0x91, statusSelect := 0, coincidence := false
    scrollY := 0, scrollX := 0, lineCompare := 0, transferPage := 0xFF
    backgroundPalette := 0xFC, objectPalette0 := 0xFF, objectPalette1 := 0xFF
    windowY := 0, windowX := 0
    mode := .vblank, line := 145, dot := 0, windowLine := 0
    sprites := [], tallSprites := false
    picture := .filled .white, frameReady := false, frames := 0 }

variable (v : Video)

/-! ### The control register -/

/-- Is the display on? -/
def displayOn : Bool := Byte.bit v.control 7

/-- Does the window use the second tile map? -/
def windowMapHigh : Bool := Byte.bit v.control 6

/-- Is the window switched on? -/
def windowOn : Bool := Byte.bit v.control 5

/-- Are background tiles numbered from the beginning of tile memory? -/
def tilesFromStart : Bool := Byte.bit v.control 4

/-- Does the background use the second tile map? -/
def backgroundMapHigh : Bool := Byte.bit v.control 3

/-- Are sprites sixteen rows tall? -/
def spritesTall : Bool := Byte.bit v.control 2

/-- Are sprites drawn? -/
def spritesOn : Bool := Byte.bit v.control 1

/-- Are background and window drawn? -/
def backgroundOn : Bool := Byte.bit v.control 0

/-! ### Causes of the status interrupt -/

def selectsCoincidence : Bool := Byte.bit v.statusSelect 6
def selectsScan : Bool := Byte.bit v.statusSelect 5
def selectsVBlank : Bool := Byte.bit v.statusSelect 4
def selectsHBlank : Bool := Byte.bit v.statusSelect 3

/-! ### The program's view -/

/-- The status register: its top bit is on, then the selected causes, the coincidence, the mode. -/
def status : UInt8 :=
  0x80 ||| v.statusSelect ||| (if v.coincidence then 0x04 else 0) ||| v.mode.number

/-- A program's read. -/
def read : Register → UInt8
  | .control => v.control
  | .status => v.status
  | .scrollY => v.scrollY
  | .scrollX => v.scrollX
  | .line => UInt8.ofNat v.line
  | .lineCompare => v.lineCompare
  | .transfer => v.transferPage
  | .backgroundPalette => v.backgroundPalette
  | .objectPalette0 => v.objectPalette0
  | .objectPalette1 => v.objectPalette1
  | .windowY => v.windowY
  | .windowX => v.windowX

/-- Is the current line the one that the program asked for? -/
def onCompareLine : Bool := v.line == v.lineCompare.toNat

/-- Store the control register, and stop or start the unit if the display is switched. -/
def writeControl (b : UInt8) : Video :=
  let wasOn := v.displayOn
  let v := { v with control := b }
  if wasOn && !v.displayOn then { v with mode := .hblank, dot := 0, windowLine := 0, line := 0 }
  else if !wasOn && v.displayOn then { v with mode := .objectScan, dot := 0 }
  else v

/-- A program's write. The line and the lower bits of the status cannot be written. -/
def write (register : Register) (b : UInt8) : Video :=
  match register with
  | .control => v.writeControl b
  | .status => { v with statusSelect := b &&& 0x78 }
  | .scrollY => { v with scrollY := b }
  | .scrollX => { v with scrollX := b }
  | .line => v
  | .lineCompare => { v with lineCompare := b, coincidence := v.line == b.toNat }
  | .transfer => { v with transferPage := b }
  | .backgroundPalette => { v with backgroundPalette := b }
  | .objectPalette0 => { v with objectPalette0 := b }
  | .objectPalette1 => { v with objectPalette1 := b }
  | .windowY => { v with windowY := b }
  | .windowX => { v with windowX := b }

/-- Acknowledge the completed frame. -/
def clearFrameReady : Video := { v with frameReady := false }

end Video

end DotMatrix
