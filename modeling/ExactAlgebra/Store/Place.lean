import ExactAlgebra.Error
import ExactAlgebra.Text.Quoted
import ExactAlgebra.Text.Split

/-!
# Places

A path leads from a directory to a place, part by part. Empty parts and the part `.` lead nowhere
else, the part `..` leads one directory up, and any other part leads to a file, behind which there
can be no more parts. The only directories that a part leads to by its name are the usual ones at
the root.

A place is named by the shortest path to it, so two paths to one file give one name.

## Main definitions

* `Place` — a directory or a file, by its name;
* `Place.enter` — the place behind one more part;
* `Place.ofPath` — the place that a path leads to.
-/

namespace ExactAlgebra

open ExactAlgebra.Text

/-- **A place.** The name of a directory is what stands in front of the names in it; it is empty for
the directory where paths begin. -/
inductive Place where
  | directory (name : String)
  | file (name : String)
  deriving DecidableEq

namespace Place

/-- The directories that are found at the root. -/
def rootDirectories : List String :=
  ["bin", "boot", "dev", "etc", "home", "lib", "media", "mnt", "opt", "proc", "root", "run", "sbin",
   "srv", "sys", "tmp", "usr", "var"]

/-- Whether a name is that of a directory at the root. -/
def isRootDirectory (name : String) : Bool :=
  rootDirectories.any fun directory => name = "/" ++ directory

/-- The greatest number of bytes of a part. -/
def partLimit : Nat :=
  255

/-- The greatest number of bytes of a path. -/
def pathLimit : Nat :=
  4095

/-- The name of the directory above a directory. -/
def above (name : String) : String :=
  if name.toList.head? = some '/' then "/" else name ++ "../"

/-- **The place behind one more part** of a path. `isFile` tells which files there are; behind one
of them, or behind a file that is missing, there is nothing. -/
def enter (isFile : String → Bool) (path : String) (place : Place) (part : String) :
    Except Error Place :=
  match place with
  | file name => .error (if isFile name then .notDirectory (quoted path) else .noFile (quoted path))
  | directory name =>
    if part = "." then .ok (directory name)
    else if part = ".." then .ok (directory (above name))
    else if partLimit < part.utf8ByteSize then .error (.longName (quoted path))
    else if isRootDirectory (name ++ part) then .ok (directory (name ++ part ++ "/"))
    else .ok (file (name ++ part))

/-- The directory where a path begins: the root, or the directory that paths are relative to. -/
def start (path : String) : Place :=
  directory (if path.toList.head? = some '/' then "/" else "")

/-- The parts of a path that are not empty. -/
def parts (path : String) : List String :=
  (splitOn "/" path).filter (· ≠ "")

/-- **The place that a path leads to.** -/
def ofPath (isFile : String → Bool) (path : String) : Except Error Place :=
  if '\x00' ∈ path.toList then .error .nullInPath
  else if path = "" then .error (.noFile (quoted path))
  else if pathLimit < path.utf8ByteSize then .error (.longName (quoted path))
  else (parts path).foldlM (enter isFile path) (start path)

/-- Whether a path ends with a slash, so that it can only mean a directory. -/
def wantsDirectory (path : String) : Bool :=
  path.toList.getLast? = some '/'

example : (ofPath (fun _ => false) ".//a.txt").toOption = some (file "a.txt") := by decide +kernel
example : (ofPath (fun _ => false) "/tmp/..").toOption = some (directory "/") := by decide +kernel
example : (ofPath (fun _ => false) "a.txt/../b").toOption = none := by decide +kernel

end Place

end ExactAlgebra
