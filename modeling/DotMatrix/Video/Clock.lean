import DotMatrix.Video.Scanline

/-!
# The video unit in time

`Video.tick` is one dot. The object scan does its work on the first dot of a line and the line is
drawn on the first dot of the transfer, so a program that changes registers or memory between the
two changes what it sees.

Entering vertical blank completes a frame and requests the vertical blank interrupt. The status
interrupt is requested on entering horizontal blank, vertical blank and object scan, and on
reaching the line that the program asked for, as far as the status register selects these causes.
-/

namespace DotMatrix.Video

/-- What the unit tells the rest of the machine on a dot. -/
structure Signals where
  /-- Vertical blank begins: the vertical blank interrupt is requested. -/
  vblank : Bool := false
  /-- The status interrupt is requested. -/
  status : Bool := false
  deriving DecidableEq, Repr

variable (v : Video)

/-- Select the sprites of the line. -/
def scanObjects : Video :=
  { v with
    tallSprites := v.spritesTall
    sprites := Sprite.drawOrder (Sprite.onLine v.objects v.spritesTall v.line) }

/-- Compare the line with the one that the program asked for. -/
def compareLine : Video := { v with coincidence := v.onCompareLine }

/-- Does the last comparison request the status interrupt? -/
def coincidenceSignal : Bool := v.coincidence && v.selectsCoincidence

/-- A dot of the object scan. -/
def tickScan : Video × Signals :=
  let v := if v.dot = 1 then v.scanObjects else v
  if scanDots ≤ v.dot then ({ v with mode := .transfer }, {}) else (v, {})

/-- A dot of the transfer. -/
def tickTransfer : Video × Signals :=
  let v := if v.dot = scanDots + 1 then v.drawLine else v
  if transferEnd ≤ v.dot then ({ v with mode := .hblank }, { status := v.selectsHBlank })
  else (v, {})

/-- A dot of horizontal blank. Its end leads to the next line or to vertical blank. -/
def tickHBlank : Video × Signals :=
  if lineDots ≤ v.dot then
    let v := compareLine { v with dot := 0, line := v.line + 1 }
    if screenHeight ≤ v.line then
      ({ v with mode := .vblank, frameReady := true },
        { vblank := true, status := v.coincidenceSignal || v.selectsVBlank })
    else ({ v with mode := .objectScan }, { status := v.coincidenceSignal || v.selectsScan })
  else (v, {})

/-- A dot of vertical blank. After its last line a new frame begins. -/
def tickVBlank : Video × Signals :=
  let v := { v with windowLine := 0 }
  if lineDots ≤ v.dot then
    let line := v.line + 1
    if frameLines ≤ line then
      let v := { v with dot := 0, line := 0, frames := v.frames + 1, mode := .objectScan }
      let v := v.compareLine
      (v, { status := v.selectsScan || v.coincidenceSignal })
    else
      let v := { v with dot := 0, line }
      let v := v.compareLine
      (v, { status := v.coincidenceSignal })
  else (v, {})

/-- One dot. Nothing happens while the display is off. -/
def tick : Video × Signals :=
  if v.displayOn then
    let v := { v with dot := v.dot + 1 }
    match v.mode with
    | .objectScan => v.tickScan
    | .transfer => v.tickTransfer
    | .hblank => v.tickHBlank
    | .vblank => v.tickVBlank
  else (v, {})

end DotMatrix.Video
