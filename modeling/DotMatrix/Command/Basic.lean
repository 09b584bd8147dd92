import DotMatrix.Command.Arguments
import DotMatrix.Pacing
import DotMatrix.Screenshot.Basic
import DotMatrix.Session
import DotMatrix.Text.Blank
import DotMatrix.Text.Quoted
import DotMatrix.Transcript

/-!
# The command

A run of the command reads the settings and the cartridge, runs a session and leaves behind what was
asked for: a transcript of what the program sends, a trace, the saved RAM, a screenshot.

* `Command.prepare`: everything up to the session. What goes wrong here stops the run;
* `Command.look`: what is done after every chunk of the session;
* `Command.finish`: everything after the session. RAM is saved whether or not the session ended in
  a fault, and the trace is closed last of all;
* `Command.run`: all three.
-/

namespace DotMatrix.Command

/-- Why a run failed. -/
inductive Error
  | settings (reason : Settings.LoadError)
  | unknownButton (name : String)
  | cartridge (reason : Cartridge.LoadError)
  | trace (path : String) (reason : FileError)
  | fault (f : Fault)
  | screenshot (path : String) (reason : FileError)
  deriving DecidableEq, Repr

/-- The reason in words. -/
def Error.message : Error → String
  | .settings reason => reason.message
  | .unknownButton name =>
    s!"unknown button {Text.quoted name} " ++
      "(expected up, down, left, right, a, b, select or start)"
  | .cartridge reason => reason.message
  | .trace path reason => s!"failed to create trace file {path}: {reason.message}"
  | .fault f => f.message
  | .screenshot path reason => s!"failed to write screenshot {path}: {reason.message}"

/-- The name and version of the command. -/
def versionLine : String := "dmgemu 0.1.0"

/-- What a user's surroundings say about where settings are. -/
structure Surroundings where
  settingsDirectory : Option String
  home : Option String
  deriving DecidableEq, Repr

/-- How a run ended. -/
inductive Result
  | completed
  | failed (e : Error)
  /-- The bound on the length of the session was reached. -/
  | unfinished
  deriving DecidableEq, Repr

/-- What a run leaves behind. -/
structure Outcome where
  host : Host
  /-- What was printed. -/
  printed : String
  result : Result

/-- What a run leaves behind that failed before its session. -/
def Outcome.failed (host : Host) (e : Error) : Outcome :=
  { host, printed := "", result := .failed e }

/-! ### Before the session -/

/-- The button that a name stands for. -/
def button (name : String) : Except Error Button :=
  match Button.ofName? (Text.trim name) with
  | some found => .ok found
  | none => .error (.unknownButton name)

/-- The buttons that names stand for. The first name that is none decides the error. -/
def buttons : List String → Except Error (List Button)
  | [] => .ok []
  | name :: rest =>
    match button name with
    | .error e => .error e
    | .ok found => (buttons rest).map (found :: ·)

/-- Where the settings for a run are. -/
def settingsPath (arguments : Arguments) (around : Surroundings) : String :=
  arguments.settings.getD (Settings.usualPath around.settingsDirectory around.home)

/-- The settings for a run. Those in the usual place may be missing. -/
def settings (arguments : Arguments) (around : Surroundings) (volume : Volume) :
    Except Error Settings :=
  let path := settingsPath arguments around
  if arguments.settings.isSome then (Settings.ofFile volume path).mapError .settings
  else .ok (.ofFileOrDefault volume path)

/-- Where the RAM of a run's cartridge is kept. -/
def savePath (arguments : Arguments) : String := Path.withExtension arguments.rom "sav"

/-- All files that a run may read or write. -/
def paths (arguments : Arguments) (around : Surroundings) : List String :=
  [settingsPath arguments around, arguments.rom, savePath arguments] ++
    arguments.trace.toList ++ arguments.screenshot.toList

/-- Send the trace of a console to a file, if one was asked for. -/
def openTrace (arguments : Arguments) (c : Console) : Except Error Console :=
  match arguments.trace with
  | none => .ok c
  | some path =>
    match c.host.volume.create path with
    | .error e => .error (.trace path e)
    | .ok (volume, place) =>
      .ok ((c.mapHost fun h => { h with volume }).setTrace (some (.file (.ofPlace place))))

/-- Put the cartridge in whose image is in the file that the arguments name. -/
def insertCartridge (arguments : Arguments) (c : Console) : Except Error Console :=
  (c.insertFile arguments.rom).mapError .cartridge

/-- A console that is ready to run, and the settings for the run. -/
structure Prepared where
  settings : Settings
  console : Console

/-- Read the settings and the cartridge, open the trace and press the buttons. -/
def prepare (arguments : Arguments) (around : Surroundings) (host : Host) :
    Except Outcome Prepared := do
  let settings ← (settings arguments around host.volume).mapError (Outcome.failed host)
  let held ← (buttons arguments.hold).mapError (Outcome.failed host)
  let c := (Console.powerOn host).setPolicy settings.savePolicy
  let c ← (insertCartridge arguments c).mapError (Outcome.failed host)
  let c ← (openTrace arguments c).mapError (Outcome.failed c.host)
  return { settings, console := held.foldl (fun c held => c.setButton held true) c }

/-- Does a run keep the pace of the real machine? -/
def keepsPace (arguments : Arguments) (settings : Settings) : Bool :=
  arguments.realtime || settings.realtime

/-- When the session of a run ends. -/
def limits (arguments : Arguments) (settings : Settings) : Limits :=
  { frames := arguments.frames.or settings.frameLimit
    cycles := arguments.cycles
    time := arguments.seconds.map (Pacing.nanosPerSecond * ·) }

/-! ### During the session -/

/-- Take what the program has sent since the last look, as text, if anyone wants it. -/
def look (arguments : Arguments) (c : Console) : String × Console :=
  if arguments.serial then
    let (bytes, c) := c.takeSerial
    (Transcript.ofBytes bytes.toList, c)
  else ("", c)

/-! ### After the session -/

/-- Write the screenshot, if one was asked for. -/
def takeScreenshot (arguments : Arguments) (settings : Settings) (c : Console) : Host × Result :=
  match arguments.screenshot with
  | none => (c.host, .completed)
  | some path =>
    match Screenshot.save c.host.volume path settings.palette c.picture with
    | .ok volume => ({ c.host with volume }, .completed)
    | .error e => (c.host, .failed (.screenshot path e))

/-- What is left to do after a session that ended in a given way. -/
def conclude (arguments : Arguments) (settings : Settings) (c : Console) :
    Session.Ending → Host × Result
  | .finished _ => takeScreenshot arguments settings c
  | .faulted fault => (c.host, .failed (.fault fault))
  | .unfinished => (c.host, .unfinished)

/-- Write out what a trace still holds. -/
def closeTrace (sink? : Option Trace.Sink) (host : Host) : Host :=
  match sink? with
  | some sink => { host with volume := sink.close host.volume }
  | none => host

/-- Save the RAM, write the screenshot and close the trace. -/
def finish (arguments : Arguments) (settings : Settings) (c : Console) (ending : Session.Ending) :
    Host × Result :=
  let c := if settings.saveOnExit then c.save else c
  let (host, result) := conclude arguments settings c ending
  (closeTrace c.trace host, result)

/-! ### All of it -/

/-- A run of the command, whose session is up to `fuel` chunks of up to `steps` steps. -/
def run (arguments : Arguments) (around : Surroundings) (host : Host) (clock : Nat → Nat)
    (steps fuel : Nat) : Outcome :=
  match prepare arguments around host with
  | .error outcome => outcome
  | .ok { settings, console } =>
    let lookOn (printed : String) (c : Console) : String × Console :=
      let (text, c) := look arguments c
      (printed ++ text, c)
    let (printed, c, ending) :=
      Session.run (limits arguments settings) clock lookOn steps fuel 0 "" console
    let (host, result) := finish arguments settings c ending
    { host, printed, result }

end DotMatrix.Command
