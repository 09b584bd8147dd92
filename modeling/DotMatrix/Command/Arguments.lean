import DotMatrix.Text.Pieces

/-!
# Arguments of the command line

One argument is the path of the cartridge image. The others are options, which begin with two
hyphens; an option that takes a value has it after an equals sign or in the next argument. An
argument of two hyphens alone makes everything after it a path. An option is given once, only
buttons to hold may be given again and again.

`Request.ofArguments` says what a list of arguments asks for.
-/

namespace DotMatrix

namespace Command

/-- What a run of the command is told. -/
structure Arguments where
  /-- The path of the cartridge image. -/
  rom : String
  frames : Option Nat
  cycles : Option Nat
  seconds : Option Nat
  realtime : Bool
  /-- Print the bytes that the program sends? -/
  serial : Bool
  screenshot : Option String
  trace : Option String
  /-- The path of the settings, if not the usual one. -/
  settings : Option String
  /-- Names of the buttons to hold. -/
  hold : List String
  deriving DecidableEq, Repr

/-- What the arguments ask for. -/
inductive Request
  | run (arguments : Arguments)
  | help
  | version
  /-- The arguments make no sense. -/
  | misuse
  deriving DecidableEq, Repr

/-- Options without a value. -/
inductive Switch
  | realtime | serial | help | version
  deriving DecidableEq, Repr

/-- Options with a value. -/
inductive Setting
  | frames | cycles | seconds | screenshot | trace | settings | hold
  deriving DecidableEq, Repr

/-- The options by name. -/
def optionOfName? : String → Option (Switch ⊕ Setting)
  | "realtime" => some (.inl .realtime)
  | "serial" => some (.inl .serial)
  | "help" => some (.inl .help)
  | "version" => some (.inl .version)
  | "frames" => some (.inr .frames)
  | "cycles" => some (.inr .cycles)
  | "seconds" => some (.inr .seconds)
  | "screenshot" => some (.inr .screenshot)
  | "trace" => some (.inr .trace)
  | "config" => some (.inr .settings)
  | "hold" => some (.inr .hold)
  | _ => none

/-! ### Single arguments -/

/-- How an argument looks. -/
inductive Shape
  /-- Two hyphens alone. -/
  | separator
  /-- Two hyphens, a name, and perhaps an equals sign and a value. -/
  | long (name : String) (value? : Option String)
  /-- A hyphen and a letter, whatever follows it. -/
  | short (letter : Char)
  /-- Anything else, a single hyphen included. -/
  | plain
  deriving DecidableEq, Repr

/-- The parts before and after the first equals sign. -/
def splitAtEquals (s : List Char) : String × Option String :=
  match s.dropWhile (· != '=') with
  | [] => (String.ofList s, none)
  | _ :: value => (String.ofList (s.takeWhile (· != '=')), some (String.ofList value))

/-- How an argument looks. -/
def Shape.of (argument : String) : Shape :=
  match argument.toList with
  | ['-', '-'] => .separator
  | '-' :: '-' :: rest => .long (splitAtEquals rest).1 (splitAtEquals rest).2
  | '-' :: letter :: _ => .short letter
  | _ => .plain

/-- The number that a text of digits stands for, if 64 bits can hold it. A plus may stand in
front. -/
def number? (text : String) : Option Nat :=
  let digits :=
    match text.toList with
    | '+' :: rest => rest
    | s => s
  if digits ≠ [] ∧ digits.all Char.isDigit then
    let n := digits.foldl (fun n c => 10 * n + (c.toNat - '0'.toNat)) 0
    if n < UInt64.size then some n else none
  else none

/-- A text as a path. No path is empty. -/
def path? (text : String) : Option String := if text.isEmpty then none else some text

/-! ### All arguments -/

/-- What has been seen of the arguments. -/
structure Seen where
  rom : Option String := none
  frames : Option Nat := none
  cycles : Option Nat := none
  seconds : Option Nat := none
  realtime : Bool := false
  serial : Bool := false
  screenshot : Option String := none
  trace : Option String := none
  settings : Option String := none
  hold : List String := []

namespace Seen

/-- Fill an empty place, if there is something to fill it with. -/
def fill {α : Type} (old new : Option α) : Option (Option α) :=
  match old, new with
  | none, some x => some (some x)
  | _, _ => none

/-- Take the value of an option. -/
def withSetting (p : Seen) (s : Setting) (value : String) : Option Seen :=
  match s with
  | .frames => (fill p.frames (number? value)).map fun frames => { p with frames }
  | .cycles => (fill p.cycles (number? value)).map fun cycles => { p with cycles }
  | .seconds => (fill p.seconds (number? value)).map fun seconds => { p with seconds }
  | .screenshot => (fill p.screenshot (path? value)).map fun screenshot => { p with screenshot }
  | .trace => (fill p.trace (path? value)).map fun trace => { p with trace }
  | .settings => (fill p.settings (path? value)).map fun settings => { p with settings }
  | .hold => some { p with hold := p.hold ++ (Text.pieces ',' value.toList).map String.ofList }

/-- Take an argument that is no option. -/
def withPath (p : Seen) (argument : String) : Option Seen :=
  (fill p.rom (path? argument)).map fun rom => { p with rom }

/-- What is asked for when all arguments have been seen. -/
def request (p : Seen) : Request :=
  match p.rom with
  | none => .misuse
  | some rom =>
    .run
      { rom, frames := p.frames, cycles := p.cycles, seconds := p.seconds, realtime := p.realtime
        serial := p.serial, screenshot := p.screenshot, trace := p.trace, settings := p.settings
        hold := p.hold }

/-- Take an option without a value, or say what is asked for if that settles it. -/
def withSwitch (p : Seen) (s : Switch) : Except Request Seen :=
  match s with
  | .help => .error .help
  | .version => .error .version
  | .realtime => if p.realtime then .error .misuse else .ok { p with realtime := true }
  | .serial => if p.serial then .error .misuse else .ok { p with serial := true }

end Seen

/-- What paths alone ask for, after what has been seen. -/
def requestOfPaths : List String → Seen → Request
  | [], p => p.request
  | argument :: rest, p =>
    match p.withPath argument with
    | some p => requestOfPaths rest p
    | none => .misuse

/-- What arguments ask for, after what has been seen, while an option may be waiting for its
value. -/
def requestAfter : List String → (waiting : Option Setting) → Seen → Request
  | [], some _, _ => .misuse
  | [], none, p => p.request
  | argument :: rest, some s, p =>
    if Shape.of argument = .plain then
      match p.withSetting s argument with
      | some p => requestAfter rest none p
      | none => .misuse
    else .misuse
  | argument :: rest, none, p =>
    match Shape.of argument with
    | .separator => requestOfPaths rest p
    | .short 'h' => .help
    | .short 'V' => .version
    | .short _ => .misuse
    | .plain =>
      match p.withPath argument with
      | some p => requestAfter rest none p
      | none => .misuse
    | .long name value? =>
      match optionOfName? name, value? with
      | none, _ | some (.inl _), some _ => .misuse
      | some (.inl switch), none =>
        match p.withSwitch switch with
        | .ok p => requestAfter rest none p
        | .error request => request
      | some (.inr s), none => requestAfter rest (some s) p
      | some (.inr s), some value =>
        match p.withSetting s value with
        | some p => requestAfter rest none p
        | none => .misuse

/-- What the arguments of the command ask for. -/
def Request.ofArguments (arguments : List String) : Request := requestAfter arguments none {}

end Command

end DotMatrix
