import Inlay.Command.Registry
import Inlay.Document.Error
import Inlay.Document.Script

set_option autoImplicit false

/-! # Documents

A document is a source on its way to the rendered text: its phase, the segments it was split into,
and the hooks that wait for the merge. Two tables tell of the inserts, by the number of their
segment: those that are not settled, and those that could not be fetched. A mark at the head of the
source is set aside and put before the text again if the options ask for it.
-/

namespace Inlay

/-- The settings of a rendering. -/
structure Options where
  encoding : Encoding := .utf8
  /-- Whether a mark found at the head of the source is put before the text. -/
  preserveMark : Bool := true
  /-- How many milliseconds an insert may take, if there is a limit. -/
  timeout : Option Nat := some 30000
  /-- Whether attributes that no handler consumed are an error. -/
  strict : Bool := true
  /-- The directory that rooted references are taken from. -/
  baseDir : Path := ⟨"."⟩

/-- One piece of the output, in source order. -/
inductive Segment where
  | text (s : String)
  /-- The place of an insert that is not settled. -/
  | pending
  /-- The place of an insert that could not be fetched. -/
  | failed (error : FetchError)
  deriving DecidableEq, Repr

/-- The text of a segment that has one. -/
def Segment.text? : Segment → Option String
  | .text s => some s
  | _ => none

/-- An insert that is not settled: its tag, less the attributes consumed, and its fetch. -/
structure PendingInsert where
  tag : Tag
  fetch : Fetch

/-- One rendering of one source. -/
structure Document where
  /-- The path that the source is loaded from, if there is one. -/
  filename : Option Path := none
  options : Options := {}
  phase : Phase := .init
  source : String := ""
  /-- Whether a mark was found at the head of the source. -/
  marked : Bool := false
  segments : List Segment := []
  /-- The inserts that are not settled. -/
  pending : Slots PendingInsert := ∅
  /-- The inserts that could not be fetched. -/
  failed : Slots FailedInsert := ∅
  merged : Option String := none
  postHooks : List Script := []
  lateHooks : List Script := []
  /-- How many hooks were started. -/
  started : Nat := 0
  registry : Registry := .standard
  bindings : List (String × String) := []
  loader : Loader := fileLoader

namespace Document

/-! ## The source -/

/-- Install a source text; one mark at its head is set aside. -/
def install (d : Document) (text : String) : Document :=
  match text.toList with
  | c :: rest =>
    if c = byteOrderMark then
      { d with source := String.ofList rest, marked := true, phase := .hasSourceText }
    else { d with source := text, marked := false, phase := .hasSourceText }
  | [] => { d with source := text, marked := false, phase := .hasSourceText }

/-- Give the source text instead of having it loaded, as long as nothing was made of it. -/
def setSource (d : Document) (text : String) : Except UsageError Document :=
  if Phase.tokenizing ≤ d.phase then .error .alreadyTokenized else .ok (d.install text)

/-- The source text without its mark, once it is installed. -/
def sourceText? (d : Document) : Option String :=
  if Phase.hasSourceText ≤ d.phase then some d.source else none

/-- Set a variable for the handlers. -/
def setVariable (d : Document) (name value : String) : Document :=
  { d with bindings := (name, value) :: d.bindings.filter fun v => v.1 != name }

/-- The cursor at a place of the document. -/
def cursorAt (d : Document) (position : Position) (segment : Nat) : Cursor :=
  { sourcePath := d.filename, baseDir := d.options.baseDir, position, segment
    encoding := d.options.encoding, bindings := d.bindings }

/-- The cursor at the start of the document. -/
def cursor (d : Document) : Cursor := d.cursorAt .start 0

/-! ## The text -/

/-- The text of the document, once its segments are merged, with the mark if it is preserved. -/
def text (d : Document) : Except UsageError String :=
  match d.merged with
  | some merged =>
    if Phase.segmentsMerged ≤ d.phase then
      .ok (if d.options.preserveMark && d.marked then byteOrderMark.toString ++ merged else merged)
    else .error (.notRendered d.phase)
  | none => .error (.notRendered d.phase)

/-- Replace the text, between the merge and the end of the rendering. -/
def replaceText (d : Document) (text : String) : Except UsageError Document :=
  match d.phase with
  | .segmentsMerged | .runningHooks => .ok { d with merged := some text }
  | phase => .error (.outOfPhase .replaceText phase)

/-- Replace the text by a function of it. -/
def reviseText (d : Document) (f : String → String) : Except UsageError Document := do
  d.replaceText (f (← d.text))

/-! ## The hooks -/

/-- Queue a hook. -/
def enqueue (d : Document) (queue : Queue) (script : Script) : Document :=
  match queue with
  | .post => { d with postHooks := d.postHooks ++ [script] }
  | .late => { d with lateHooks := d.lateHooks ++ [script] }

/-- The number of hooks that were not started. -/
def queuedHooks (d : Document) : Nat := d.postHooks.length + d.lateHooks.length

/-- The load of the waiting hooks. -/
def hookLoad (d : Document) : Nat := queueLoad d.postHooks + queueLoad d.lateHooks

/-- Take the hook that is next to run: its label, its script and the document without it. -/
def nextHook? (d : Document) : Option (String × Script × Document) :=
  let label (queue : Queue) := queue.name ++ "#" ++ toString (d.started + 1)
  match d.postHooks, d.lateHooks with
  -- a late hook waits until no other hook does, also for those that late hooks queue
  | script :: rest, _ =>
    some (label .post, script, { d with postHooks := rest, started := d.started + 1 })
  | [], script :: rest =>
    some (label .late, script, { d with lateHooks := rest, started := d.started + 1 })
  | [], [] => none

theorem nextHook?_load {d d' : Document} {label : String} {script : Script}
    (h : d.nextHook? = some (label, script, d')) :
    d'.hookLoad + scriptLoad script + 1 = d.hookLoad := by
  unfold nextHook? at h
  dsimp only at h
  split at h
  · rename_i hp
    simp only [Option.some.injEq, Prod.mk.injEq] at h
    obtain ⟨-, rfl, rfl⟩ := h
    simp only [hookLoad, hp, queueLoad_cons]
    omega
  · rename_i hp hl
    simp only [Option.some.injEq, Prod.mk.injEq] at h
    obtain ⟨-, rfl, rfl⟩ := h
    simp only [hookLoad, hp, hl, queueLoad_cons]
    omega
  · cases h

theorem nextHook?_phase {d d' : Document} {label : String} {script : Script}
    (h : d.nextHook? = some (label, script, d')) : d'.phase = d.phase := by
  unfold nextHook? at h
  dsimp only at h
  split at h
  · simp only [Option.some.injEq, Prod.mk.injEq] at h
    rw [← h.2.2]
  · simp only [Option.some.injEq, Prod.mk.injEq] at h
    rw [← h.2.2]
  · cases h

@[simp] theorem enqueue_hookLoad (d : Document) (queue : Queue) (script : Script) :
    (d.enqueue queue script).hookLoad = d.hookLoad + (1 + scriptLoad script) := by
  cases queue <;> simp only [enqueue, hookLoad, queueLoad_append, queueLoad_cons, queueLoad_nil]
    <;> omega

@[simp] theorem install_hookLoad (d : Document) (text : String) :
    (d.install text).hookLoad = d.hookLoad := by
  unfold install
  split
  · split <;> rfl
  · rfl

@[simp] theorem install_phase (d : Document) (text : String) :
    (d.install text).phase = .hasSourceText := by
  unfold install
  split
  · split <;> rfl
  · rfl

theorem setSource_hookLoad {d d' : Document} {text : String} (h : d.setSource text = .ok d') :
    d'.hookLoad = d.hookLoad := by
  unfold setSource at h
  split at h
  · cases h
  · rw [← Except.ok.inj h, install_hookLoad]

theorem replaceText_hookLoad {d d' : Document} {text : String} (h : d.replaceText text = .ok d') :
    d'.hookLoad = d.hookLoad := by
  unfold replaceText at h
  split at h
  · rw [← Except.ok.inj h]
    rfl
  · rw [← Except.ok.inj h]
    rfl
  · cases h

theorem reviseText_hookLoad {d d' : Document} {f : String → String}
    (h : d.reviseText f = .ok d') : d'.hookLoad = d.hookLoad := by
  unfold reviseText at h
  cases ht : d.text with
  | error e =>
    rw [ht] at h
    cases h
  | ok text =>
    rw [ht] at h
    exact replaceText_hookLoad h

/-! ## How a document is shown -/

/-- The document by its name. -/
def shown (d : Document) : String :=
  match d.filename with
  | some path => "[Document " ++ path.text ++ "]"
  | none => "[Document <no file name>]"

/-- The document in a summary of its state. -/
def summary (d : Document) : String :=
  let filename := match d.filename with
    | some path => "Some(" ++ quotedText path.text ++ ")"
    | none => "None"
  "Document \x7b filename: " ++ filename ++ ", phase: " ++ d.phase.title ++
    ", segments: " ++ toString d.segments.length ++ ", pending: " ++ toString d.pending.size ++
    ", failed: " ++ toString d.failed.size ++ ", queued_hooks: " ++ toString d.queuedHooks ++
    ", .. \x7d"

end Document

end Inlay
