import DotMatrix.Console.Basic
import DotMatrix.Settings.Statement

/-!
# Settings

What the user has chosen once and for all. Every setting is optional, and keys that are not settings
are passed over.

* `Settings.ofText?`: the settings that a text describes;
* `Settings.ofFile`: those in a file that the user named, where a failure is an error;
* `Settings.ofFileOrDefault`: those in the usual place, where a failure leaves the defaults;
* `Settings.usualPath`: the usual place.
-/

namespace DotMatrix

/-- A colour for each shade, the lightest first: red, green and blue, eight bits each. -/
abbrev Palette := Vector UInt32 4

/-- The usual colours. -/
def Palette.usual : Palette := Vector.ofFn fun i => (Shade.ofIndex i.val).rgb

/-- What the user can set. -/
structure Settings where
  /-- Keep the pace of the real machine? -/
  realtime : Bool
  palette : Palette
  /-- Save the cartridge's RAM at the end of a session? -/
  saveOnExit : Bool
  /-- Frames after which a session ends, if nothing else is asked for. -/
  frameLimit : Option Nat
  savePolicy : SavePolicy
  deriving DecidableEq

namespace Settings

/-- The settings of a user who has not chosen any. -/
def default : Settings :=
  { realtime := false, palette := .usual, saveOnExit := true, frameLimit := none
    savePolicy := .everyInstruction }

/-! ### From values -/

/-- A yes or a no. -/
def Value.toBool? : Value → Option Bool
  | .boolean b => some b
  | _ => none

/-- A natural number below a bound. -/
def Value.toNatBelow? (bound : Nat) : Value → Option Nat
  | .integer n => if 0 ≤ n ∧ n < bound then some n.toNat else none
  | _ => none

/-- A colour of 32 bits. -/
def Value.toColour? (v : Value) : Option UInt32 := (v.toNatBelow? UInt32.size).map UInt32.ofNat

/-- Four colours. What comes after them is not looked at. -/
def Value.toPalette? : Value → Option Palette
  | .array (v0 :: v1 :: v2 :: v3 :: _) =>
    match v0.toColour?, v1.toColour?, v2.toColour?, v3.toColour? with
    | some c0, some c1, some c2, some c3 => some #v[c0, c1, c2, c3]
    | _, _, _, _ => none
  | _ => none

/-- The policy with a name. -/
def policyOfName? : String → Option SavePolicy
  | "instruction" => some .everyInstruction
  | "vblank" => some .vblank
  | "manual" => some .manual
  | _ => none

/-- Is the value an array or a table with nothing in it? -/
def Value.isVoid : Value → Bool
  | .array [] | .table _ [] => true
  | _ => false

/-- A policy: its name, or a table with its name as the only key and nothing under it. -/
def Value.toPolicy? : Value → Option SavePolicy
  | .text name => policyOfName? name
  | .table _ [(name, v)] => if v.isVoid then policyOfName? name else none
  | _ => none

/-- Change the setting that a key stands for. Other keys only have to be readable. -/
def withEntry (s : Settings) (key : String) (v : Value) : Option Settings :=
  match key with
  | "realtime" => v.toBool?.map fun realtime => { s with realtime }
  | "palette" => v.toPalette?.map fun palette => { s with palette }
  | "save_on_exit" => v.toBool?.map fun saveOnExit => { s with saveOnExit }
  | "frame_limit" => (v.toNatBelow? UInt64.size).map fun n => { s with frameLimit := some n }
  | "save_policy" => v.toPolicy?.map fun savePolicy => { s with savePolicy }
  | _ => if v.isReadable then some s else none

/-- The settings in a table, and the given ones where the table says nothing. -/
def ofEntries? : Entries → Settings → Option Settings
  | [], s => some s
  | (key, v) :: rest, s => (s.withEntry key v).bind (ofEntries? rest)

/-- The settings that a text describes. -/
def ofText? (text : String) : Option Settings := (entries? text).bind (ofEntries? · default)

/-! ### From files -/

/-- Why no settings could be read from a file. -/
inductive LoadError
  | unreadable (path : String) (reason : FileError)
  | malformed (path : String)
  deriving DecidableEq, Repr

/-- The reason in words. -/
def LoadError.message : LoadError → String
  | .unreadable path reason => s!"failed to read config {path}: {reason.message}"
  | .malformed path => s!"failed to parse config {path}"

/-- The settings in a file that the user named. -/
def ofFile (volume : Volume) (path : String) : Except LoadError Settings :=
  match volume.readText path with
  | .error reason => .error (.unreadable path reason)
  | .ok text =>
    match ofText? text with
    | some s => .ok s
    | none => .error (.malformed path)

/-- The settings in the usual place. -/
def ofFileOrDefault (volume : Volume) (path : String) : Settings :=
  match ofFile volume path with
  | .ok s => s
  | .error _ => default

/-- The usual place of the settings: in the directory for settings, if the user has one, else in
the home directory, else in the working directory. -/
def usualPath (settingsDirectory? home? : Option String) : String :=
  let below (directory : String) := Path.join (Path.join directory "dmgemu") "config.toml"
  match settingsDirectory?, home? with
  | some directory, _ => below directory
  | none, some home => below (Path.join home ".config")
  | none, none => "config.toml"

end Settings

end DotMatrix
