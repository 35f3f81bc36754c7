import Inlay.Command.Fetch
import Inlay.Document.Phase
import Inlay.Document.Slots
import Inlay.Loading
import Inlay.Markup.Tag

set_option autoImplicit false

/-! # Errors of a rendering

What can end an operation on a document. An operation used in a phase that it does not belong to is
refused. A source that cannot be loaded, a tag that cannot be handled and a failing hook end the
rendering at once. An insert that cannot be fetched fails only its own segment; all such failures
are reported together when the last insert is settled.
-/

namespace Inlay

/-- Operations that belong to one phase. -/
inductive Operation where
  | tokenize
  | fetch
  | merge
  | replaceText
  | resume
  deriving DecidableEq, Repr

/-- How messages name an operation. -/
def Operation.name : Operation → String
  | .tokenize => "tokenize"
  | .fetch => "fetch inserts"
  | .merge => "merge segments"
  | .replaceText => "replace text"
  | .resume => "resume an aborted tokenize"

/-- Why an operation is refused. -/
inductive UsageError where
  | alreadyTokenized
  | noSource
  | outOfPhase (operation : Operation) (phase : Phase)
  | pendingInserts (count : Nat)
  | notRendered (phase : Phase)
  deriving DecidableEq, Repr

/-- The wording of an error. -/
def UsageError.message : UsageError → String
  | .alreadyTokenized => "cannot set source text: already tokenized"
  | .noSource => "document has neither source text nor a filename"
  | .outOfPhase operation phase => "cannot " ++ operation.name ++ " in phase " ++ phase.name
  | .pendingInserts count =>
    "cannot render while inserts are pending (" ++ toString count ++ " outstanding)"
  | .notRendered phase => "document is not rendered yet (phase " ++ phase.name ++ ")"

/-- Why segments cannot be merged. -/
inductive MergeFault where
  | unsettled
  | failed (error : FetchError)
  deriving DecidableEq, Repr

/-- The wording of a fault. -/
def MergeFault.message : MergeFault → String
  | .unsettled => "insert never settled"
  | .failed error => "stale fetch error: " ++ error.message

/-- An insert that could not be fetched. -/
structure FailedInsert where
  tag : Tag
  error : FetchError
  deriving DecidableEq, Repr

/-- What ended an operation. -/
inductive RenderError where
  | usage (error : UsageError)
  | load (error : LoadError)
  | tag (error : TagError)
  | merge (slot : Nat) (fault : MergeFault)
  | hook (label reason : String)
  | failedInserts (failed : Slots FailedInsert)
  | write (error : WriteError)
  deriving DecidableEq

/-- The wording of an error. -/
def RenderError.message : RenderError → String
  | .usage error => error.message
  | .load error => error.message
  | .tag error => error.message
  | .merge slot fault => "segment #" ++ toString slot ++ ": " ++ fault.message
  | .hook label reason => "hook " ++ label ++ " failed: " ++ reason
  | .failedInserts failed =>
    "errors in deferred rendering: " ++ toString failed.size ++ " of the inserts failed"
  | .write error => error.message

end Inlay
