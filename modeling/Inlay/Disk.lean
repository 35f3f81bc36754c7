import Inlay.Path

set_option autoImplicit false

/-! # Disk

A tree of directories and files as a value, with the working directory from which relative paths
are followed. An entry is known by the names on the way to it from the root. A path is followed
part by part: every part but the last one must lead to a directory, `.` and an empty part stay
where they are and `..` goes up.
-/

namespace Inlay

/-- What stands at a place of the tree; the time of the last change is in nanoseconds from the
epoch. -/
inductive Entry where
  | file (bytes : ByteArray) (modified : Int)
  | directory (modified : Int)

namespace Entry

/-- When an entry was last changed. -/
def modified : Entry → Int
  | .file _ t => t
  | .directory t => t

end Entry

/-- Why the system refuses a request. -/
inductive SystemFault where
  | notFound
  | notADirectory
  | isADirectory
  | nulInName
  | notUtf8
  deriving DecidableEq, Repr

/-- The wording of a fault. -/
def SystemFault.message : SystemFault → String
  | .notFound => "No such file or directory (os error 2)"
  | .notADirectory => "Not a directory (os error 20)"
  | .isADirectory => "Is a directory (os error 21)"
  | .nulInName => "file name contained an unexpected NUL byte"
  | .notUtf8 => "stream did not contain valid UTF-8"

/-- A tree of files with a working directory. -/
structure Disk where
  /-- The names on the way from the root to the working directory. -/
  workingDirectory : List String := []
  entries : List (List String × Entry) := []
  /-- The time that new entries are stamped with. -/
  now : Int := 0

namespace Disk

/-- What stands at a place; the root is always a directory. -/
def find? (d : Disk) (place : List String) : Option Entry :=
  match place with
  | [] => some (.directory d.now)
  | _ => d.entries.lookup place

/-- Whether a place is a directory. -/
def isDirectory (d : Disk) (place : List String) : Bool :=
  match d.find? place with
  | some (.directory _) => true
  | _ => false

/-- Put an entry at a place. -/
def put (d : Disk) (place : List String) (e : Entry) : Disk :=
  { d with entries := (place, e) :: d.entries.filter fun x => x.1 != place }

/-- Remove a place and all below it. -/
def remove (d : Disk) (place : List String) : Disk :=
  { d with entries := d.entries.filter fun x => !(place.isPrefixOf x.1) }

/-- Put directories at a place and at all places on the way to it that are free. -/
def makeDirectories (d : Disk) (place : List String) : Disk :=
  (List.range (place.length + 1)).foldl (fun d n =>
    let p := place.take n
    if (d.find? p).isSome then d else d.put p (.directory d.now)) d

/-- The place that the next part of a path leads to from the place reached so far. That place must
be a directory, and a name must be there unless it is the last part. -/
def follow (d : Disk) :
    (reached : List String) → List (List Char) → Except SystemFault (List String)
  | reached, [] => .ok reached
  | reached, part :: rest =>
    match d.find? reached with
    | none => .error .notFound
    | some (.file _ _) => .error .notADirectory
    | some (.directory _) =>
      if Path.isVoid part then d.follow reached rest
      else if part == ['.', '.'] then d.follow reached.dropLast rest
      else d.follow (reached ++ [String.ofList part]) rest

/-- The place a path names, whether or not there is anything at it. -/
def place (d : Disk) (p : Path) : Except SystemFault (List String) :=
  if p.text.isEmpty then .error .notFound
  else if p.text.toList.contains '\x00' then .error .nulInName
  else d.follow (if p.isAbsolute then [] else d.workingDirectory) (Path.parts p.text.toList)

/-- What stands at a path. -/
def entry (d : Disk) (p : Path) : Except SystemFault Entry := do
  let place ← d.place p
  match d.find? place with
  | some e => .ok e
  | none => .error .notFound

/-- Whether there is anything at a path. -/
def holds (d : Disk) (p : Path) : Bool :=
  match d.entry p with
  | .ok _ => true
  | .error _ => false

/-- The bytes of the file at a path. -/
def read (d : Disk) (p : Path) : Except SystemFault ByteArray := do
  match ← d.entry p with
  | .file bytes _ => .ok bytes
  | .directory _ => .error .isADirectory

/-- The text of the file at a path. -/
def readText (d : Disk) (p : Path) : Except SystemFault String := do
  match String.fromUTF8? (← d.read p) with
  | some text => .ok text
  | none => .error .notUtf8

/-- Write the file at a path in place of an earlier one. Its directory must be there. A path that
ends in a separator names a directory and is refused as one even when nothing is there. -/
def write (d : Disk) (p : Path) (bytes : ByteArray) : Except SystemFault Disk :=
  match d.place p with
  | .ok place =>
    match d.find? place with
    | some (.directory _) => .error .isADirectory
    | _ => .ok (d.put place (.file bytes d.now))
  | .error .notFound =>
    -- nothing is there with its separators, but there may be room for it without them
    let stem := (p.text.toList.reverse.dropWhile (· == '/')).reverse
    if stem != p.text.toList && (d.place ⟨String.ofList stem⟩).isOk then .error .isADirectory
    else .error .notFound
  | .error fault => .error fault

/-- The absolute path of a place. -/
def pathOf (place : List String) : Path := ⟨"/" ++ "/".intercalate place⟩

/-- The path of the working directory. -/
def workingPath (d : Disk) : Path := pathOf d.workingDirectory

end Disk

end Inlay
