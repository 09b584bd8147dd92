import DotMatrix.Association
import DotMatrix.Files.Path

/-!
# Volumes

A volume is what the program sees of the file system: files, directories, and one device that is
always full. Its operations fail for the reasons for which a system refuses them.

A `Place` is a path with all its steps taken. The working directory is `[]`, the root is `["/"]`,
and the directories above the working directory are `[".."]`, `["..", ".."]` and so on.

* `Volume.read`, `Volume.readText`: the contents of a file;
* `Volume.create`, `Volume.write`, `Volume.writeAt`: an empty file, a whole file, a part of a file;
* `Volume.writeRefused`: what a write leaves that fails on the way;
* `Volume.listing`: everything below the working directory.
-/

namespace DotMatrix

/-- Why an operation on a file was refused. -/
inductive FileError
  | notFound
  | notADirectory
  | isADirectory
  | noSpace
  /-- The contents were to be text and are not UTF-8. -/
  | notText
  deriving DecidableEq, Repr

/-- The reason in words. -/
def FileError.message : FileError → String
  | .notFound => "No such file or directory (os error 2)"
  | .notADirectory => "Not a directory (os error 20)"
  | .isADirectory => "Is a directory (os error 21)"
  | .noSpace => "No space left on device (os error 28)"
  | .notText => "stream did not contain valid UTF-8"

/-- The parts of a path all of whose steps are taken. -/
abbrev Place := List String

/-- What can be at a place. -/
inductive Entry
  | file (contents : ByteArray)
  | directory
  /-- A device that takes no byte. -/
  | fullDevice

/-- The places that are in use. -/
structure Volume where
  entries : List (Place × Entry)

namespace Volume

/-- The root of all absolute paths. -/
def root : Place := ["/"]

/-- A volume with an empty working directory. -/
def empty : Volume :=
  ⟨[(["/", "dev"], .directory), (["/", "dev", "full"], .fullDevice)]⟩

variable (v : Volume)

/-- Is the place the working directory or a directory above it? -/
def isUpward (place : Place) : Bool := place.all (· == "..")

/-- What is at a place. The working directory, those above it and the root are always there. -/
def at? (place : Place) : Option Entry :=
  if isUpward place || place == root then some .directory else v.entries.lookup place

/-- Put an entry at a place, instead of what was there. -/
def put (place : Place) (e : Entry) : Volume := ⟨Association.put place e v.entries⟩

/-- Take steps from a place. Each step starts from a directory; the last may lead to a place that
is not in use. -/
def walk (here : Place) : List String → Except FileError Place
  | [] => .ok here
  | step :: rest =>
    match v.at? here with
    | none => .error .notFound
    | some (.file _) | some .fullDevice => .error .notADirectory
    | some .directory =>
      if step = "." then walk here rest
      else if step = ".." then
        if isUpward here then walk (here ++ [step]) rest
        else if here = root then walk here rest
        else walk here.dropLast rest
      else walk (here ++ [step]) rest

/-- The place that a path leads to. -/
def locate (path : String) : Except FileError Place :=
  if path.isEmpty then .error .notFound
  else v.walk (if Path.isAbsolute path then root else []) (Path.parts path)

/-- The contents of a file. -/
def read (path : String) : Except FileError ByteArray :=
  match v.locate path with
  | .error e => .error e
  | .ok place =>
    match v.at? place with
    | none => .error .notFound
    | some .directory => .error .isADirectory
    | some .fullDevice => .ok .empty
    | some (.file bytes) => if Path.isDirectory path then .error .notADirectory else .ok bytes

/-- The contents of a file as text. -/
def readText (path : String) : Except FileError String :=
  match v.read path with
  | .error e => .error e
  | .ok bytes =>
    match String.fromUTF8? bytes with
    | some text => .ok text
    | none => .error .notText

/-- Make a file empty, or make an empty file, and say where it is. -/
def create (path : String) : Except FileError (Volume × Place) :=
  match v.locate path with
  | .error e => .error e
  | .ok place =>
    if Path.isDirectory path then .error .isADirectory
    else
      match v.at? place with
      | some .directory => .error .isADirectory
      | some .fullDevice => .ok (v, place)
      | some (.file _) | none => .ok (v.put place (.file .empty), place)

/-- Old contents with new bytes from an offset on. A gap before the offset is filled with zeros. -/
def overlay (old : ByteArray) (offset : Nat) (bytes : ByteArray) : ByteArray :=
  let gap : ByteArray := ⟨Array.replicate (offset - old.size) 0⟩
  old.extract 0 offset ++ gap ++ bytes ++ old.extract (offset + bytes.size) old.size

/-- Write bytes into the file at a place, from an offset on. -/
def writeAt (place : Place) (offset : Nat) (bytes : ByteArray) : Except FileError Volume :=
  match v.at? place with
  | none => .error .notFound
  | some .directory => .error .isADirectory
  | some .fullDevice => if bytes.isEmpty then .ok v else .error .noSpace
  | some (.file old) => .ok (v.put place (.file (overlay old offset bytes)))

/-- Write a whole file. -/
def write (path : String) (bytes : ByteArray) : Except FileError Volume :=
  match v.create path with
  | .error e => .error e
  | .ok (v, place) => v.writeAt place 0 bytes

/-- A write that fails although nothing in the volume stands against it, because the medium is full or
broken, say. -/
structure Refusal where
  reason : FileError
  /-- How many of the bytes reach the file, if it is opened at all. -/
  kept : Option Nat

/-- What is left of writing a whole file when the write is refused on the way. -/
def writeRefused (path : String) (bytes : ByteArray) (r : Refusal) : Volume :=
  match r.kept with
  | none => v
  | some n =>
    match v.write path (bytes.extract 0 n) with
    | .error _ => v
    | .ok v => v

/-- Make a directory, if nothing is at its place. -/
def addLevel (place : Place) : Volume :=
  if (v.at? place).isSome then v else v.put place .directory

/-- Make a directory and those above it. -/
def addDirectory (place : Place) : Volume :=
  (List.range (place.length + 1)).foldl (fun v n => v.addLevel (place.take n)) v

/-- Put a file into the volume, with the directories above it. -/
def addFile (place : Place) (bytes : ByteArray) : Volume :=
  (v.addDirectory place.dropLast).put place (.file bytes)

/-- The name under which a place is listed. A directory's ends with a slash. -/
def listedName (place : Place) (e : Entry) : String :=
  let name := String.intercalate "/" place
  match e with
  | .directory => name ++ "/"
  | _ => name

/-- Everything below the working directory, by name. -/
def listing : List (String × Entry) :=
  let below := v.entries.filter fun p => p.1.head? != some "/" && p.1.head? != some ".."
  (below.map fun p => (listedName p.1 p.2, p.2)).mergeSort fun a b => a.1 ≤ b.1

end Volume

end DotMatrix
