import Inlay.Command.Handler

set_option autoImplicit false

/-! # Recipes

Handlers described by data, for hosts that take their commands from a description. A recipe may
leave a note, consume attributes, insist that none is left over, fail, and answer with a value
whose texts are put together from what the handler sees.
-/

namespace Inlay

/-- One part of a text that a recipe puts together. -/
inductive TextPart where
  | literal (s : String)
  | previous
  | name
  | command
  | line
  | column
  | position
  | label
  | source
  | segment
  | encoding
  | path
  | base
  | leftover
  /-- The value of an attribute, which stays. -/
  | attribute (key : String)
  /-- The value of an attribute, which is consumed. -/
  | consumed (key : String) (fallback : Option String)
  | valueOf (key : String)
  | file (reference : String)
  | virtual (reference : String)
  deriving Repr

/-- What stands for a part without a value. -/
def missingPart : String := "~"

/-- The text of a part, and the tag less what the part consumes. -/
def TextPart.evaluate (part : TextPart) (value : Value) (tag : Tag) (cursor : Cursor) :
    String × Tag :=
  match part with
  | .literal s => (s, tag)
  | .previous => (value.shown, tag)
  | .name => (tag.name, tag)
  | .command => (tag.command.getD missingPart, tag)
  | .line => (toString cursor.position.line, tag)
  | .column => (toString cursor.position.column, tag)
  | .position => (tag.position.text, tag)
  | .label => (tag.label, tag)
  | .source => (tag.source, tag)
  | .segment => (toString cursor.segment, tag)
  | .encoding => (cursor.encoding.name, tag)
  | .path => ((cursor.sourcePath.map Path.text).getD missingPart, tag)
  | .base => (cursor.baseDir.text, tag)
  | .leftover => (",".intercalate tag.leftover, tag)
  | .attribute key => ((tag.attr? key).getD missingPart, tag)
  | .consumed key fallback =>
    ((tag.attr? key).getD (fallback.getD missingPart), tag.without key)
  | .valueOf key => ((cursor.lookup? key).getD missingPart, tag)
  | .file reference => ((cursor.resolveFile reference).text, tag)
  | .virtual reference => ((cursor.resolveVirtual reference).text, tag)

/-- The text of several parts, evaluated from left to right. -/
def evaluateParts (parts : List TextPart) (value : Value) (tag : Tag) (cursor : Cursor) :
    String × Tag :=
  parts.foldl (fun (text, tag) part =>
    let (more, tag) := part.evaluate value tag cursor
    (text ++ more, tag)) ("", tag)

/-- A filter for fetched texts. -/
inductive FilterRule where
  | wrap (before after : String)
  | replace (result : Delivered)
  | upperCase

/-- What a filter makes of a text. -/
def FilterRule.apply (rule : FilterRule) (text : String) : Delivered :=
  match rule with
  | .wrap before after => .ok (before ++ text ++ after)
  | .replace result => result
  | .upperCase => .ok (text.map Char.toUpper)

/-- What a planned fetch delivers. -/
inductive PlannedWork where
  | text (parts : List TextPart)
  | result (result : Delivered)
  | load (parts : List TextPart)
  | abandon
  | hang
  | hold

/-- A fetch whose texts are put together by a recipe. -/
structure FetchPlan where
  work : PlannedWork
  delay : Nat := 0
  turn : Turn := .first
  deadline : Deadline := .standard
  filter : Option FilterRule := none

/-- The fetch that a plan describes, and the tag less what its parts consume. -/
def FetchPlan.build (plan : FetchPlan) (value : Value) (tag : Tag) (cursor : Cursor) :
    Fetch × Tag :=
  let (work, tag) : Work × Tag := match plan.work with
    | .text parts =>
      let (text, tag) := evaluateParts parts value tag cursor
      (.deliver plan.delay (.ok text), tag)
    | .result result => (.deliver plan.delay result, tag)
    | .load parts =>
      let (reference, tag) := evaluateParts parts value tag cursor
      (.load plan.delay (cursor.resolveFile reference) cursor.encoding, tag)
    | .abandon => (.abandon 0, tag)
    | .hang => (.hang, tag)
    | .hold => (.hold, tag)
  ({ work, turn := plan.turn, deadline := plan.deadline
     filter := plan.filter.map FilterRule.apply }, tag)

/-- The value that a recipe answers with. -/
inductive Outcome where
  | null
  | bool (b : Bool)
  | number (n : Binary64)
  | text (parts : List TextPart)
  | previous
  | fetch (plan : FetchPlan)
  /-- The previous value, with another filter if it is a fetch. -/
  | refilter (rule : FilterRule)

/-- How a recipe fails: with the label of the tag, or with one of its own. -/
inductive PlannedError where
  | about (reason : String)
  | labelled (label reason : String)

/-- A handler described by data; its parts take effect in the order of the fields. -/
structure Recipe where
  note : Option (List TextPart) := none
  consume : List String := []
  strict : Bool := false
  error : Option PlannedError := none
  outcome : Outcome := .null

namespace Outcome

/-- The value answered, and the tag less what its parts consume. -/
def build (o : Outcome) (value : Value) (tag : Tag) (cursor : Cursor) : Value × Tag :=
  match o with
  | .null => (.null, tag)
  | .bool b => (.bool b, tag)
  | .number n => (.number n, tag)
  | .text parts =>
    let (s, tag) := evaluateParts parts value tag cursor
    (.text s, tag)
  | .previous => (value, tag)
  | .fetch plan =>
    let (f, tag) := plan.build value tag cursor
    (.fetch f, tag)
  | .refilter rule =>
    match value with
    | .fetch f => (.fetch { f with filter := some rule.apply }, tag)
    | other => (other, tag)

end Outcome

/-- The handler that a recipe describes. -/
def Recipe.handler (recipe : Recipe) : Handler := fun value tag cursor => do
  let tag ← match recipe.note with
    | none => pure tag
    | some parts =>
      let (text, tag) := evaluateParts parts value tag cursor
      Reply.note text
      pure tag
  let tag := recipe.consume.foldl Tag.without tag
  match if recipe.strict then tag.leftoverError? else none with
  | some e => Reply.fail e
  | none =>
    match recipe.error with
    | some (.about reason) => Reply.fail (tag.error reason)
    | some (.labelled label reason) => Reply.fail ⟨label, reason⟩
    | none => pure (recipe.outcome.build value tag cursor)

end Inlay
