set_option autoImplicit false

/-! # Cache

A cache keeps byte strings under a bucket's name and a key, each stamped with a version. A reader
that names a version is answered only with that version; the empty version accepts any. Storing a
key replaces whatever was kept under it.

A bucket is opened through a cache or through a copy of it, and all handles of one name share
their entries. A handle without storage keeps nothing.
-/

namespace Inlay

/-- One stored value and the version it was stored with. -/
structure Stored where
  version : String
  bytes : ByteArray

/-- The entries of all buckets, by bucket name and key. -/
structure Cache where
  entries : List ((String × String) × Stored) := []

/-- A handle on the cached data of one kind. -/
inductive Bucket where
  /-- The bucket of a cache with this name. -/
  | named (name : String)
  /-- A bucket that keeps nothing. -/
  | null
  deriving DecidableEq, Repr

namespace Cache

/-- The entry of a bucket under a key. -/
def find? (c : Cache) (bucket key : String) : Option Stored := c.entries.lookup (bucket, key)

/-- The bytes kept under a key, in the version asked for. -/
def get? (c : Cache) (b : Bucket) (key version : String) : Option ByteArray :=
  match b with
  | .null => none
  | .named name =>
    match c.find? name key with
    | none => none
    | some e => if version == "" || e.version == version then some e.bytes else none

/-- Keep bytes under a key in place of any earlier version. -/
def set (c : Cache) (b : Bucket) (key version : String) (bytes : ByteArray) : Cache :=
  match b with
  | .null => c
  | .named name =>
    let id := (name, key)
    ⟨(id, ⟨version, bytes⟩) :: c.entries.filter fun e => e.1 != id⟩

/-- The text kept under a key; bytes that are no UTF-8 count as absent. -/
def getText? (c : Cache) (b : Bucket) (key version : String) : Option String :=
  (c.get? b key version).bind fun bytes => String.fromUTF8? bytes

/-- Keep a text under a key. -/
def setText (c : Cache) (b : Bucket) (key version text : String) : Cache :=
  c.set b key version text.toUTF8

end Cache

end Inlay
