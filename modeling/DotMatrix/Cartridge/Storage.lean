import DotMatrix.Log

/-!
# Cartridges on disk

A cartridge is read from an image file. If it has a battery, its RAM is kept in a file beside the
image, whose name ends in `sav`: it is read with the image, as far as both reach, and written by
`Cartridge.save`. `Host.save` is the same under the conditions of a host, which may refuse a write.
-/

namespace DotMatrix.Cartridge

/-- Why no cartridge could be read from a file. -/
inductive LoadError
  | unreadable (path : String) (reason : FileError)
  | badImage (reason : ImageError)
  deriving DecidableEq, Repr

/-- The reason in words. -/
def ImageError.message : ImageError → String
  | .tooSmall size => s!"ROM image is {size} bytes, too small to hold a header"
  | .checksumMismatch expected computed =>
    s!"header checksum mismatch: header says {Hex.byte expected}, computed {Hex.byte computed}"

/-- The reason in words. -/
def LoadError.message : LoadError → String
  | .unreadable path reason => s!"failed to read ROM {path}: {reason.message}"
  | .badImage reason => reason.message

variable (c : Cartridge)

/-- What is recorded when an image with this header has been accepted. -/
def warnings : List Log.Event :=
  match c.mapper with
  | .unsupported kind => [.unsupportedKind kind]
  | _ => []

/-- Fill the RAM from the beginning with saved bytes; what does not fit is dropped. -/
def restoreRam (saved : ByteArray) : Cartridge :=
  { c with ram := saved.extract 0 c.ram.size ++ c.ram.extract saved.size c.ram.size }

/-- Give a cartridge with a battery its save file, and read the file if there is one. -/
def attachSave (volume : Volume) (path : String) : Cartridge × List Log.Event :=
  if c.header.hasBattery then
    let save := Path.withExtension path "sav"
    let c := { c with savePath := some save }
    match volume.read save with
    | .ok bytes => (c.restoreRam bytes, [.ramLoaded bytes.size save])
    | .error .notFound => (c, [])
    | .error e => (c, [.saveUnreadable save e])
  else (c, [])

/-- The cartridge whose image is in a file, and what is to be recorded about it. -/
def ofFile (volume : Volume) (path : String) : Except LoadError (Cartridge × List Log.Event) :=
  match volume.read path with
  | .error e => .error (.unreadable path e)
  | .ok image =>
    match ofImage image with
    | .error e => .error (.badImage e)
    | .ok c =>
      let (c', events) := c.attachSave volume path
      .ok (c', c.warnings ++ events ++ [.imageLoaded c.header])

/-- Where the RAM is to be written, if it is kept at all. -/
def saveTarget : Option String :=
  if c.header.hasBattery && !c.ram.isEmpty then c.savePath else none

/-- Write the RAM to the save file, if the cartridge has one. Afterwards the cartridge is clean. -/
def save (volume : Volume) : Except FileError (Volume × Cartridge) :=
  match c.saveTarget with
  | none => .ok (volume, { c with dirty := false })
  | some path =>
    match volume.write path c.ram with
    | .error e => .error e
    | .ok volume => .ok (volume, { c with dirty := false })

end DotMatrix.Cartridge

namespace DotMatrix

/-- Save the RAM of a cartridge, if nothing is in the way. A cartridge that has nothing to write meets
no refusal. -/
def Host.save (h : Host) (c : Cartridge) : Host × Except FileError Cartridge :=
  match c.saveTarget with
  | none => (h, .ok { c with dirty := false })
  | some path =>
    let later := { h with refusals := h.refusals.tail }
    match h.refusals.head?.join with
    | some r => ({ later with volume := h.volume.writeRefused path c.ram r }, .error r.reason)
    | none =>
      match c.save h.volume with
      | .error e => (later, .error e)
      | .ok (volume, c) => ({ later with volume }, .ok c)

end DotMatrix
