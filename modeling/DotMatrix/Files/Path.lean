import DotMatrix.Text.Pieces

/-!
# Paths

A path is text whose parts are separated by slashes. Empty parts do not count, so several slashes
are as good as one. A path that begins with a slash starts at the root, any other at the working
directory.
-/

namespace DotMatrix.Path

/-- The parts of a path. -/
def parts (path : String) : List String :=
  ((Text.pieces '/' path.toList).filter (· ≠ [])).map String.ofList

/-- Does the path start at the root? -/
def isAbsolute (path : String) : Bool := path.toList.head? == some '/'

/-- Does the path end with a slash, so that only a directory can be meant? -/
def isDirectory (path : String) : Bool := path.toList.getLast? == some '/'

/-- A path below a directory. -/
def join (directory name : String) : String :=
  if directory.isEmpty || isDirectory directory then directory ++ name
  else directory ++ "/" ++ name

/-- The name without its extension: all before the last point, unless that point comes first. -/
def stem (name : List Char) : List Char :=
  match name.reverse.dropWhile (· != '.') with
  | _ :: [] => name
  | _ :: before => before.reverse
  | [] => name

/-- The path with another extension after the stem of its last part. -/
def withExtension (path extension : String) : String :=
  let name := (path.toList.reverse.takeWhile (· != '/')).reverse
  let directory := path.toList.take (path.length - name.length)
  String.ofList (directory ++ stem name) ++ "." ++ extension

end DotMatrix.Path
