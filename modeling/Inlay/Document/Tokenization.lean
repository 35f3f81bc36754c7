import Inlay.Command.Chain
import Inlay.Document.Basic

set_option autoImplicit false

/-! # Tokenization

A source becomes segments. A scan goes through the source and asks at every `<` what it begins. A
command tag is handed to its handlers as soon as it is found, and becomes one segment: the text
that they answer, or a pending insert. The text between two command tags is one segment too, unless
it is empty. A tag that is malformed or whose handlers fail ends the scan, and the document never
gets beyond it.
-/

namespace Inlay

/-- A tag handed to its handlers: where it stood, and what they replied. -/
structure Dispatch where
  tag : Tag
  cursor : Cursor
  reply : Reply (Replacement × Tag)

/-- What a scan has come to. -/
structure Scan where
  segments : List Segment := []
  pending : Slots PendingInsert := ∅
  /-- The tags that were handed to their handlers, in order. -/
  dispatches : List Dispatch := []

namespace Scan

/-- Add the segment of a literal text, if there is any text. -/
def literal (s : Scan) (text : List Char) : Scan :=
  if text.isEmpty then s else { s with segments := s.segments ++ [.text (String.ofList text)] }

/-- Add the segment of a tag that was replaced. -/
def replace (s : Scan) (replacement : Replacement) (tag : Tag) : Scan :=
  match replacement with
  | .text text => { s with segments := s.segments ++ [.text text] }
  | .later fetch =>
    { s with
      segments := s.segments ++ [.pending]
      pending := s.pending.insert s.segments.length ⟨tag, fetch⟩ }

/-- The notes of the handlers that ran. -/
def notes (s : Scan) : List String := s.dispatches.flatMap fun x => x.reply.notes

end Scan

namespace Document

/-- Hand a tag to its handlers, with the number of the next segment. -/
def handleTag (d : Document) (s : Scan) (tag : Tag) : Scan × Except TagError Unit :=
  let cursor := d.cursorAt tag.position s.segments.length
  let reply := d.registry.dispatch d.options.strict tag cursor
  -- handlers that fail were run all the same, and their notes are kept
  let s := { s with dispatches := s.dispatches ++ [⟨tag, cursor, reply⟩] }
  match reply.result with
  | .ok (replacement, tag) => (s.replace replacement tag, .ok ())
  | .error e => (s, .error e)

/-- Go on with a scan at `text`, which stands at `position`, when the literal text `passed` was read
before it, last character first. -/
def scanFrom (d : Document) (s : Scan) (position : Position) (passed text : List Char) :
    Scan × Except TagError Unit :=
  match text with
  | [] => (s.literal passed.reverse, .ok ())
  | c :: text =>
    if c != '<' then d.scanFrom s (position.next c) (c :: passed) text
    else
      match _h : d.registry.markers.recognise position text with
      | .error e => (s, .error e)
      | .ok .noTag => d.scanFrom s (position.next c) (c :: passed) text
      | .ok (.markup body rest) =>
        let source := c :: body ++ ['>']
        d.scanFrom s (position.after source) (source.reverse ++ passed) rest
      | .ok (.command tag rest) =>
        match d.handleTag (s.literal passed.reverse) tag with
        | (s, .ok ()) => d.scanFrom s (position.after tag.source.toList) [] rest
        | (s, .error e) => (s, .error e)
termination_by text.length
decreasing_by
  · simp
  · simp
  · have := congrArg List.length (Markers.recognise_markup _h)
    simp only [List.length_append, List.length_cons] at this ⊢
    omega
  · obtain ⟨body, _, ht, _⟩ := Markers.recognise_command _h
    have := congrArg List.length ht
    simp only [List.length_append, List.length_cons] at this ⊢
    omega

section Equations

variable (d : Document) (s : Scan) {position : Position} (passed : List Char)

theorem scanFrom_nil : d.scanFrom s position passed [] = (s.literal passed.reverse, .ok ()) := by
  rw [scanFrom]

theorem scanFrom_cons {c : Char} (h : c ≠ '<') (text : List Char) :
    d.scanFrom s position passed (c :: text) =
      d.scanFrom s (position.next c) (c :: passed) text := by
  rw [scanFrom, if_pos (bne_iff_ne.mpr h)]

theorem scanFrom_malformed {text : List Char} {e : TagError}
    (h : d.registry.markers.recognise position text = .error e) :
    d.scanFrom s position passed ('<' :: text) = (s, .error e) := by
  rw [scanFrom, if_neg (by decide)]
  split <;> simp_all

theorem scanFrom_noTag {text : List Char}
    (h : d.registry.markers.recognise position text = .ok .noTag) :
    d.scanFrom s position passed ('<' :: text) =
      d.scanFrom s (position.next '<') ('<' :: passed) text := by
  rw [scanFrom, if_neg (by decide)]
  split <;> simp_all

theorem scanFrom_markup {text body rest : List Char}
    (h : d.registry.markers.recognise position text = .ok (.markup body rest)) :
    d.scanFrom s position passed ('<' :: text) =
      d.scanFrom s (position.after ('<' :: body ++ ['>']))
        (('<' :: body ++ ['>']).reverse ++ passed) rest := by
  rw [scanFrom, if_neg (by decide)]
  split <;> simp_all

theorem scanFrom_command {text rest : List Char} {tag : Tag}
    (h : d.registry.markers.recognise position text = .ok (.command tag rest)) :
    d.scanFrom s position passed ('<' :: text) =
      match d.handleTag (s.literal passed.reverse) tag with
      | (s, .ok ()) => d.scanFrom s (position.after tag.source.toList) [] rest
      | (s, .error e) => (s, .error e) := by
  rw [scanFrom, if_neg (by decide)]
  split <;> simp_all

end Equations

/-- Scan the source. -/
def scan (d : Document) : Scan × Except TagError Unit :=
  d.scanFrom {} .start [] d.source.toList

/-- Split the source into segments. The notes are those of the handlers that ran, also of a
tokenization that failed. -/
def tokenize (d : Document) : Document × List String × Except RenderError Unit :=
  match d.phase with
  | .hasSourceText =>
    match d.scan with
    | (s, .ok ()) =>
      ({ d with phase := .tokenized, segments := s.segments, pending := s.pending }, s.notes,
        .ok ())
    | (s, .error e) => ({ d with phase := .tokenizing }, s.notes, .error (.tag e))
  | .init | .readSourceFile => (d, [], .error (.usage (.outOfPhase .tokenize d.phase)))
  | _ => (d, [], .error (.usage .alreadyTokenized))

/-- What a tokenization that succeeds makes of its document. -/
theorem tokenize_eq_ok {d d' : Document} {notes : List String}
    (h : d.tokenize = (d', notes, .ok ())) :
    ∃ s, d.scan = (s, .ok ()) ∧ notes = s.notes ∧
      d' = { d with phase := .tokenized, segments := s.segments, pending := s.pending } := by
  unfold tokenize at h
  split at h
  · split at h
    · rename_i s hs
      cases h
      exact ⟨s, hs, rfl, rfl⟩
    · cases h
  · cases h
  · cases h
  · cases h

@[simp] theorem tokenize_hookLoad (d : Document) : d.tokenize.1.hookLoad = d.hookLoad := by
  unfold tokenize
  split
  · split <;> rfl
  · rfl
  · rfl
  · rfl

theorem tokenize_rank {d : Document} (h : d.tokenize.2.2 = .ok ()) :
    d.phase.rank < d.tokenize.1.phase.rank := by
  unfold tokenize at h ⊢
  split
  · rename_i hp
    simp only [hp] at h ⊢
    split
    · exact (by decide : Phase.rank .hasSourceText < Phase.rank .tokenized)
    · rename_i he
      rw [he] at h
      cases h
  · rename_i hp
    rw [hp] at h
    cases h
  · rename_i hp
    rw [hp] at h
    cases h
  · rename_i h₁ h₂ h₃
    split at h
    · exact absurd ‹_› h₁
    · exact absurd ‹_› h₂
    · exact absurd ‹_› h₃
    · cases h

end Document

end Inlay
