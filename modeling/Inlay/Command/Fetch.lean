import Inlay.Loading

set_option autoImplicit false

/-! # Fetches

A handler that cannot say at once what replaces its tag answers with a fetch: work that delivers a
text, or a failure, some time after it was begun. Times are in milliseconds. A fetch may bring a
limit of its own in place of the document's, and a filter that its text passes through.
-/

namespace Inlay

/-- Why the text of a tag could not be fetched. -/
inductive FetchError where
  | timedOut (label : String) (limit : Nat)
  | abandoned (label : String)
  | failed (reason : String)
  deriving DecidableEq, Repr, Inhabited

/-- The wording of an error. -/
def FetchError.message : FetchError → String
  | .timedOut label limit => label ++ ": timed out after " ++ toString limit ++ "ms"
  | .abandoned label => label ++ ": fetcher finished without delivering a result"
  | .failed reason => reason

/-- What a fetch delivers. -/
abbrev Delivered := Except FetchError String

/-- How long a fetch may take before its slot fails. -/
inductive Deadline where
  /-- As long as the document's own limit says. -/
  | standard
  | after (limit : Nat)
  | never
  deriving DecidableEq, Repr, Inhabited

/-- The limit of a fetch in a document with the given limit; nothing if there is none. -/
def Deadline.resolve (d : Deadline) (limit : Option Nat) : Option Nat :=
  match d with
  | .standard => limit
  | .after own => some own
  | .never => none

/-- What becomes of a fetch once it is begun. -/
inductive Work where
  /-- It delivers a result after a delay. -/
  | deliver (delay : Nat) (result : Delivered)
  /-- It delivers the text at a path after a delay. -/
  | load (delay : Nat) (path : Path) (encoding : Encoding)
  /-- It ends after a delay without delivering. -/
  | abandon (delay : Nat)
  /-- It never ends. -/
  | hang
  /-- It hands its delivery to the host, which may use it at any time or never. -/
  | hold

/-- When a fetch is begun: together with all others, or one turn later. -/
inductive Turn where
  | first
  | second
  deriving DecidableEq, Repr, Inhabited

/-- Work that delivers the text for one tag. -/
structure Fetch where
  work : Work
  turn : Turn := .first
  deadline : Deadline := .standard
  filter : Option (String → Delivered) := none

/-- A delivered result after the filter, which sees texts only. -/
def filtered (filter : Option (String → Delivered)) (result : Delivered) : Delivered :=
  match filter, result with
  | some f, .ok text => f text
  | _, result => result

end Inlay
