import DotMatrix.Command.Basic

/-!
# The program

The outer layer of the command: it brings the files that a run may touch into a volume, runs the
session chunk by chunk, prints what the run prints as it comes, keeps the pace, and takes the files
that have changed back to disk. What is read, run, printed and written is decided by `Command`.
-/

namespace DotMatrix.Program

/-- More steps and chunks than a run will ever have. -/
def unbounded : Nat := 1 <<< 62

/-! ### Files -/

/-- What is on disk at a path. -/
def inspect (path : String) : IO (Option Entry) := do
  let item : IO.FS.DirEntry := ⟨".", path⟩
  try
    match (← item.path.metadata).type with
    | .dir => return some .directory
    | .file => return some (.file (← IO.FS.readBinFile path))
    | _ => return some (.file .empty)
  catch _ => return none

/-- A volume with what is on disk at a path and above it. -/
def addPath (v : Volume) (path : String) : IO Volume := do
  let start := if Path.isAbsolute path then "/" else ""
  let parts := Path.parts path
  let mut v := v
  for n in [0 : parts.length] do
    let here := start ++ String.intercalate "/" (parts.take (n + 1))
    if let .ok place := v.locate here then
      if let some e ← inspect here then v := v.put place e
  return v

/-- Take a file back to disk, if it has changed. -/
def writeBack (before after : Volume) (path : String) : IO Unit := do
  if let .ok bytes := after.read path then
    let unchanged :=
      match before.read path with
      | .ok old => old.data == bytes.data
      | .error _ => false
    unless unchanged do IO.FS.writeBinFile path bytes

/-! ### Messages -/

/-- The name of a level, for the levels that are shown. -/
def shownLevel? : Log.Level → Option String
  | .info => some "INFO"
  | .warn => some "WARN"
  | .trace | .debug => none

/-- Show the events of a log from a number on. -/
def showLog (log : Array Log.Event) (first : Nat) : IO Unit := do
  for e in log.extract first log.size do
    if let some level := shownLevel? e.level then IO.eprintln s!"[{level}] {e.message}"

/-- How the command is used. -/
def usage : String :=
  "Usage: dmgemu [--frames N] [--cycles N] [--seconds N] [--realtime] [--serial]\n" ++
    "              [--screenshot PNG] [--trace FILE] [--config TOML] [--hold BUTTONS] ROM"

/-! ### Sessions -/

/-- Wait for as long as the frames just run should have taken, and say when the next is due. -/
def keepPace (frames : Nat) (due? : Option Nat) : IO (Option Nat) := do
  let mut due? := due?
  for _ in [0 : frames] do
    let (wait, due) := Pacing.frameDone due? (← IO.monoNanosNow)
    IO.sleep (UInt32.ofNat (wait / 1000000))
    due? := some due
  return due?

/-- What stays the same during a session. -/
structure Plan where
  arguments : Command.Arguments
  limits : Limits
  paced : Bool
  /-- When the session began. -/
  start : Nat

/-- Run the chunks of a session, of which some have been run. -/
partial def runSession (plan : Plan) (c : Console) (frames : Nat) (due? : Option Nat) :
    IO (Console × Session.Ending) := do
  let before := c
  match Session.runChunk plan.limits unbounded frames c with
  | (c, some ending) =>
    showLog c.host.log before.host.log.size
    return (c, ending)
  | (c, none) =>
    let due? ← if plan.paced then keepPace (c.framesDone - before.framesDone) due? else pure none
    let (text, c) := Command.look plan.arguments c
    IO.print text
    (← IO.getStdout).flush
    showLog c.host.log before.host.log.size
    writeBack before.host.volume c.host.volume (Command.savePath plan.arguments)
    let elapsed := (← IO.monoNanosNow) - plan.start
    if plan.limits.reached (frames + 1) elapsed then return (c, .finished (frames + 1))
    else runSession plan c (frames + 1) due?

/-- The exit code for a result, after showing what went wrong. -/
def exitCode : Command.Result → IO UInt32
  | .completed => return 0
  | .failed e => do
    IO.eprintln s!"[ERROR] {e.message}"
    return 1
  | .unfinished => return 1

/-- A run of the command. -/
def run (arguments : Command.Arguments) : IO UInt32 := do
  let around : Command.Surroundings := ⟨← IO.getEnv "XDG_CONFIG_HOME", ← IO.getEnv "HOME"⟩
  let paths := Command.paths arguments around
  let volume ← paths.foldlM addPath .empty
  match Command.prepare arguments around (.ofVolume volume) with
  | .error outcome =>
    showLog outcome.host.log 0
    exitCode outcome.result
  | .ok { settings, console } =>
    showLog console.host.log 0
    let plan : Plan :=
      { arguments, limits := Command.limits arguments settings
        paced := Command.keepsPace arguments settings, start := ← IO.monoNanosNow }
    let (c, ending) ← runSession plan console 0 none
    let (host, result) := Command.finish arguments settings c ending
    showLog host.log c.host.log.size
    paths.forM (writeBack volume host.volume)
    exitCode result

end DotMatrix.Program

/-- Do what the arguments ask for. -/
def main (arguments : List String) : IO UInt32 :=
  match DotMatrix.Command.Request.ofArguments arguments with
  | .run arguments => DotMatrix.Program.run arguments
  | .help => do
    IO.println DotMatrix.Program.usage
    return 0
  | .version => do
    IO.println DotMatrix.Command.versionLine
    return 0
  | .misuse => do
    IO.eprintln DotMatrix.Program.usage
    return 2
