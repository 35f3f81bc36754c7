import Inlay.Cache
import Inlay.Disk
import Inlay.Encoding
import Inlay.Text.Quoted

set_option autoImplicit false

/-! # Loading and writing texts

Sources are loaded by path and decoded; outputs are encoded and written. A loader is a function of
the disk, so sources may as well come from a table in memory. The caching loader keeps decoded
texts under the encoding and the path, in the version given by the time of the file's last change;
a file changed before the epoch has no version and is read every time.
-/

namespace Inlay

/-- Why a source could not be loaded. -/
inductive LoadError where
  | system (path : Path) (fault : SystemFault)
  | noSuchSource (path : Path)
  | undecodable (path : Path) (encoding : Encoding)
  deriving DecidableEq, Repr

/-- The wording of an error. -/
def LoadError.message : LoadError → String
  | .system path fault => "cannot read " ++ path.text ++ ": " ++ fault.message
  | .noSuchSource path => "cannot read " ++ path.text ++ ": no such source"
  | .undecodable path encoding => path.text ++ " is not valid " ++ encoding.name

/-- Why an output could not be written. -/
inductive WriteError where
  | system (path : Path) (fault : SystemFault)
  | unencodable (path : Path) (char : Char) (encoding : Encoding)
  deriving DecidableEq, Repr

/-- The wording of an error. -/
def WriteError.message : WriteError → String
  | .system path fault => "cannot write " ++ path.text ++ ": " ++ fault.message
  | .unencodable path char encoding =>
    "cannot write " ++ path.text ++ ": " ++ quotedLetter char ++ " is not representable in " ++
      encoding.name

/-- A way to load the text at a path. -/
abbrev Loader := Disk → Path → Encoding → Except LoadError String

/-! ## Sources in memory -/

/-- Texts by path. -/
structure Sources where
  entries : List (Path × String) := []

namespace Sources

/-- Add a text, in place of an earlier one at the same path. -/
def insert (s : Sources) (path : Path) (text : String) : Sources :=
  ⟨(path, text) :: s.entries.filter fun e => !e.1.same path⟩

/-- The text at a path. -/
def find? (s : Sources) (path : Path) : Option String :=
  (s.entries.find? fun e => e.1.same path).map Prod.snd

/-- The number of texts. -/
def size (s : Sources) : Nat := s.entries.length

/-- The loader of these texts; they are decoded already. -/
def loader (s : Sources) : Loader := fun _ path _ =>
  match s.find? path with
  | some text => .ok text
  | none => .error (.noSuchSource path)

end Sources

/-! ## Files -/

/-- Decode the bytes read from a path. -/
def decodeFile (path : Path) (encoding : Encoding) (bytes : ByteArray) : Except LoadError String :=
  match encoding.decode bytes with
  | some text => .ok text
  | none => .error (.undecodable path encoding)

/-- The text of the file at a path. -/
def fileLoader : Loader := fun disk path encoding =>
  match disk.read path with
  | .ok bytes => decodeFile path encoding bytes
  | .error fault => .error (.system path fault)

/-- The version of a file changed at the given time; empty before the epoch. -/
def versionAt (modified : Int) : String :=
  if modified < 0 then "" else toString modified.toNat

/-- The key that a decoded file is cached under. -/
def sourceKey (path : Path) (encoding : Encoding) : String := encoding.name ++ ":" ++ path.text

/-- The name of the bucket of decoded files. -/
def sourcesBucket : Bucket := .named "sources"

/-- Load the file at a path through a bucket of decoded files. -/
def loadCached (bucket : Bucket) (cache : Cache) (disk : Disk) (path : Path) (encoding : Encoding) :
    Except LoadError String × Cache :=
  match disk.entry path with
  | .error fault => (.error (.system path fault), cache)
  | .ok entry =>
    let version := versionAt entry.modified
    let key := sourceKey path encoding
    -- the empty version would be answered with any, so a file without one is not looked up
    match if version == "" then none else cache.getText? bucket key version with
    | some text => (.ok text, cache)
    | none =>
      match fileLoader disk path encoding with
      | .error e => (.error e, cache)
      | .ok text =>
        (.ok text, if version == "" then cache else cache.setText bucket key version text)

/-! ## Outputs -/

/-- The path that stands for standard output. -/
def standardOutput : Path := ⟨"-"⟩

/-- Where outputs go: a disk, and what was printed so far. -/
structure Outlet where
  disk : Disk := {}
  printed : ByteArray := ByteArray.empty

/-- Encode a text and write it to a path. -/
def Outlet.write (o : Outlet) (path : Path) (text : String) (encoding : Encoding) :
    Except WriteError Outlet :=
  match encoding.encode text with
  | .error c => .error (.unencodable path c encoding)
  | .ok bytes =>
    if path.same standardOutput then .ok { o with printed := o.printed ++ bytes }
    else match o.disk.write path bytes with
      | .ok disk => .ok { o with disk }
      | .error fault => .error (.system path fault)

end Inlay
