import DotMatrix.Cartridge.Basic
import DotMatrix.Files.Volume
import DotMatrix.Text.Hex

/-!
# The log

What happens beside the emulation itself is recorded as events. An event has a level and a text.
-/

namespace DotMatrix

namespace Log

/-- How much an event matters. -/
inductive Level
  | trace | debug | info | warn
  deriving DecidableEq, Repr

/-- Something worth recording. -/
inductive Event
  /-- A cartridge of a kind that the machine does not know was read. -/
  | unsupportedKind (kind : UInt8)
  /-- RAM was read back from the save file. -/
  | ramLoaded (size : Nat) (path : String)
  /-- There is a save file, and it could not be read. -/
  | saveUnreadable (path : String) (reason : FileError)
  | imageLoaded (header : Cartridge.Header)
  | cartridgeInserted (title : String)
  /-- A program wrote to a device register that does not exist. -/
  | writeIgnored (value : UInt8) (address : UInt16)
  /-- Vertical blank began and the RAM is about to be saved. -/
  | flushing
  | saveFailed (reason : FileError)
  deriving DecidableEq, Repr

/-- The level of an event. -/
def Event.level : Event → Level
  | .writeIgnored .. => .trace
  | .ramLoaded .. | .flushing => .debug
  | .imageLoaded _ | .cartridgeInserted _ => .info
  | .unsupportedKind _ | .saveUnreadable .. | .saveFailed _ => .warn

/-- The line for a cartridge image that was loaded. -/
def imageLoadedText (h : Cartridge.Header) : String :=
  s!"Loaded ROM: {h.title} ({h.kindName}, {h.romKib} KiB ROM, {h.ramKib} KiB RAM, " ++
    s!"licensee {h.licensee})"

/-- An event in words. -/
def Event.message : Event → String
  | .unsupportedKind kind =>
    s!"Cartridge type {Hex.byte kind} ({Cartridge.kindName kind}) is not supported; " ++
      "using MBC1 banking"
  | .ramLoaded size path => s!"Loaded {size} bytes of battery RAM from {path}"
  | .saveUnreadable path reason => s!"Failed to read save file {path}: {reason.message}"
  | .imageLoaded h => imageLoadedText h
  | .cartridgeInserted title => s!"Inserted cartridge \"{title}\""
  | .writeIgnored value address =>
    s!"Ignoring write {Hex.byte value} to unused I/O {Hex.word address}"
  | .flushing => "Flushing battery RAM at VBlank"
  | .saveFailed reason => s!"Failed to save RAM: {reason.message}"

end Log

/-- What the machine reaches outside itself: the files it may use and the log it keeps. -/
structure Host where
  volume : Volume
  log : Array Log.Event
  /-- What stands in the way of the next saves, an entry for each; later saves find nothing there. -/
  refusals : List (Option Volume.Refusal)

namespace Host

/-- A host with the given files, nothing recorded, and nothing in the way of a save. -/
def ofVolume (volume : Volume) : Host := { volume, log := #[], refusals := [] }

/-- Record an event. -/
def record (h : Host) (e : Log.Event) : Host := { h with log := h.log.push e }

/-- Record events in order. -/
def recordAll (h : Host) (events : List Log.Event) : Host := events.foldl record h

end Host

end DotMatrix
