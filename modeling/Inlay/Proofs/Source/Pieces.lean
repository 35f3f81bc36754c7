import Inlay.Document.Tokenization

set_option autoImplicit false

/-! # The pieces of a source

A scan cuts a source into pieces, one for each segment: the literal texts and the command tags.
`Cut` says how the segments, the pending inserts and the tags handed to their handlers come from
the pieces. Adding a piece keeps it (`Cut.add`), and so a scan that succeeds cuts its whole source
into pieces (`scan_cut`).
-/

namespace Inlay

/-- A part of a source that became a segment: a literal text, or a tag with what replaces it and
what its handlers left of it. -/
inductive Piece where
  | literal (text : String)
  | command (x : Dispatch) (replacement : Replacement) (left : Tag)

/-- The segment of a tag that was replaced. -/
def Replacement.segment : Replacement → Segment
  | .text s => .text s
  | .later _ => .pending

/-- Whether a tag that stands after the text `before` was handled there, as the segment of number
`slot`, with the given answer. -/
structure Dispatch.Stands (d : Document) (before : List Char) (slot : Nat)
    (replacement : Replacement) (left : Tag) (x : Dispatch) : Prop where
  position : x.tag.position = Position.start.after before
  bracket : x.tag.source.toList.head? = some '<'
  cursor : x.cursor = d.cursorAt x.tag.position slot
  reply : x.reply = d.registry.dispatch d.options.strict x.tag x.cursor
  result : x.reply.result = .ok (replacement, left)

namespace Piece

/-- The piece as it stands in the source. -/
def source : Piece → String
  | literal text => text
  | command x _ _ => x.tag.source

/-- The segment of the piece. -/
def segment : Piece → Segment
  | literal text => .text text
  | command _ replacement _ => replacement.segment

/-- The tag of the piece, handed to its handlers. -/
def dispatch? : Piece → Option Dispatch
  | literal _ => none
  | command x _ _ => some x

/-- The pending insert of the piece. -/
def insert? : Piece → Option PendingInsert
  | command _ (.later fetch) left => some ⟨left, fetch⟩
  | _ => none

/-- The segments that are not settled are those of the pending inserts. -/
theorem insert?_isSome (p : Piece) : p.insert?.isSome ↔ p.segment = .pending := by
  cases p with
  | literal text => simp [insert?, segment]
  | command x replacement left =>
      cases replacement <;> simp [insert?, segment, Replacement.segment]

theorem segment_ne_failed (p : Piece) (e : FetchError) : p.segment ≠ .failed e := by
  cases p with
  | literal text => simp [segment]
  | command x replacement left => cases replacement <;> simp [segment, Replacement.segment]

/-- Whether a piece may stand after the text `before` as the segment of number `slot`: a literal
text is not empty, and a tag was handled there. -/
def Stands (d : Document) (before : List Char) (slot : Nat) : Piece → Prop
  | literal text => text ≠ ""
  | command x replacement left => x.Stands d before slot replacement left

/-- The text that some pieces stand for. -/
def spelled (pieces : List Piece) : List Char := pieces.flatMap fun p => p.source.toList

theorem spelled_concat (pieces : List Piece) (p : Piece) :
    spelled (pieces ++ [p]) = spelled pieces ++ p.source.toList := by
  unfold spelled
  rw [List.flatMap_append, List.flatMap_singleton]

/-- Whether a literal text may follow: the last piece is no literal text. -/
def Closed (pieces : List Piece) : Prop := ∀ p ∈ pieces.getLast?, p.dispatch?.isSome

end Piece

/-- Whether a scan is what some pieces make. -/
structure Cut (d : Document) (s : Scan) (pieces : List Piece) : Prop where
  segments : s.segments = pieces.map Piece.segment
  dispatches : s.dispatches = pieces.filterMap Piece.dispatch?
  pending : ∀ i : Nat, s.pending[i]? = pieces[i]?.bind Piece.insert?
  stands : ∀ (i : Nat) (p : Piece), pieces[i]? = some p →
    p.Stands d (Piece.spelled (pieces.take i)) i
  apart : ∀ (i : Nat) (p q : Piece), pieces[i]? = some p → pieces[i + 1]? = some q →
    p.dispatch?.isSome ∨ q.dispatch?.isSome

/-! ## One more piece -/

/-- The scan with one more piece. -/
def Scan.add (s : Scan) (p : Piece) : Scan where
  segments := s.segments ++ [p.segment]
  pending := match p.insert? with
    | some insert => s.pending.insert s.segments.length insert
    | none => s.pending
  dispatches := s.dispatches ++ p.dispatch?.toList

theorem Scan.literal_eq (s : Scan) {text : List Char} (h : text ≠ []) :
    s.literal text = s.add (.literal (String.ofList text)) := by
  unfold Scan.literal
  rw [if_neg (by rwa [List.isEmpty_iff])]
  simp [add, Piece.segment, Piece.insert?, Piece.dispatch?]

namespace Document

variable {d : Document} {s : Scan}

/-- A tag handed to its handlers as the segment of the given number. -/
def handed (d : Document) (tag : Tag) (slot : Nat) : Dispatch :=
  let cursor := d.cursorAt tag.position slot
  ⟨tag, cursor, d.registry.dispatch d.options.strict tag cursor⟩

theorem handleTag_of_ok {tag left : Tag} {replacement : Replacement}
    (h : (d.handed tag s.segments.length).reply.result = .ok (replacement, left)) :
    d.handleTag s tag =
      (s.add (.command (d.handed tag s.segments.length) replacement left), .ok ()) := by
  unfold handed at h
  dsimp only at h
  unfold handleTag
  dsimp only
  rw [h]
  cases replacement <;> rfl

theorem handleTag_of_error {tag : Tag} {e : TagError}
    (h : (d.handed tag s.segments.length).reply.result = .error e) :
    d.handleTag s tag =
      ({ s with dispatches := s.dispatches ++ [d.handed tag s.segments.length] }, .error e) := by
  unfold handed at h
  dsimp only at h
  unfold handleTag
  dsimp only
  rw [h]
  rfl

theorem handleTag_eq {s' : Scan} {tag : Tag} (h : d.handleTag s tag = (s', .ok ())) :
    ∃ x replacement left, s' = s.add (.command x replacement left) ∧ x.tag = tag ∧
      x.cursor = d.cursorAt tag.position s.segments.length ∧
      x.reply = d.registry.dispatch d.options.strict x.tag x.cursor ∧
      x.reply.result = .ok (replacement, left) := by
  cases hx : (d.handed tag s.segments.length).reply.result with
  | ok a =>
      obtain ⟨replacement, left⟩ := a
      rw [handleTag_of_ok hx] at h
      cases h
      exact ⟨_, replacement, left, rfl, rfl, rfl, rfl, hx⟩
  | error e =>
      rw [handleTag_of_error hx] at h
      cases h

end Document

namespace Cut

variable {d : Document} {s : Scan} {pieces : List Piece}

theorem start (d : Document) : Cut d {} [] where
  segments := rfl
  dispatches := rfl
  pending := by simp
  stands := by simp
  apart := by simp

theorem lt_length {i : Nat} {p : Piece} (h : pieces[i]? = some p) : i < pieces.length :=
  (List.getElem?_eq_some_iff.mp h).1

theorem getElem?_concat {i : Nat} {p q : Piece} (h : (pieces ++ [p])[i]? = some q) :
    pieces[i]? = some q ∨ i = pieces.length ∧ q = p := by
  rcases Nat.lt_or_ge i pieces.length with hi | hi
  · rw [List.getElem?_append_left hi] at h
    exact .inl h
  · rw [List.getElem?_append_right hi, List.getElem?_singleton] at h
    split at h
    · exact .inr ⟨by omega, (Option.some.inj h).symm⟩
    · cases h

theorem length (h : Cut d s pieces) : s.segments.length = pieces.length := by
  rw [h.segments, List.length_map]

/-- A piece may be added where it stands, if it is a tag or follows one. -/
theorem add (h : Cut d s pieces) {p : Piece}
    (hp : p.Stands d (Piece.spelled pieces) pieces.length)
    (ha : p.dispatch?.isSome ∨ Piece.Closed pieces) : Cut d (s.add p) (pieces ++ [p]) where
  segments := by
    rw [List.map_append, ← h.segments]
    rfl
  dispatches := by
    rw [List.filterMap_append, ← h.dispatches]
    unfold Scan.add
    cases hx : p.dispatch? <;> simp [hx]
  pending i := by
    have ht : (s.add p).pending[i]? =
        if i = pieces.length then p.insert?.or s.pending[i]? else s.pending[i]? := by
      unfold Scan.add
      rw [h.length]
      cases p.insert? with
      | none => simp
      | some insert =>
          dsimp only
          rw [Slots.get_insert]
          simp [eq_comm]
    rw [ht, h.pending]
    -- only the segment of the new piece can have a new insert
    rcases Nat.lt_trichotomy i pieces.length with hi | rfl | hi
    · rw [if_neg (Nat.ne_of_lt hi), List.getElem?_append_left hi]
    · rw [if_pos rfl, List.getElem?_concat_length, List.getElem?_eq_none (Nat.le_refl _)]
      simp
    · rw [if_neg (Nat.ne_of_gt hi), List.getElem?_eq_none (Nat.le_of_lt hi),
        List.getElem?_eq_none (by rw [List.length_append]; exact hi)]
  stands i q hq := by
    rcases getElem?_concat hq with hq | ⟨rfl, rfl⟩
    · rw [List.take_append_of_le_length (Nat.le_of_lt (lt_length hq))]
      exact h.stands i q hq
    · rw [List.take_left]
      exact hp
  apart i q r hq hr := by
    rcases getElem?_concat hr with hr | ⟨hi, rfl⟩
    · rw [List.getElem?_append_left (Nat.lt_of_succ_lt (lt_length hr))] at hq
      exact h.apart i q r hq hr
    · refine ha.symm.imp_left fun hc => hc q ?_
      rw [List.getElem?_append_left (by rw [← hi]; exact Nat.lt_succ_self i)] at hq
      rw [List.getLast?_eq_getElem?, ← hi, Nat.add_sub_cancel]
      exact hq

/-! ## A whole scan -/

/-- A literal text is one more piece, unless it is empty. -/
theorem literal (h : Cut d s pieces) (hc : Piece.Closed pieces) (text : List Char) :
    ∃ pieces', Cut d (s.literal text) pieces' ∧
      Piece.spelled pieces' = Piece.spelled pieces ++ text := by
  by_cases ht : text = []
  · refine ⟨pieces, ?_, by rw [ht, List.append_nil]⟩
    rw [ht]
    exact h
  · refine ⟨pieces ++ [.literal (String.ofList text)], ?_, ?_⟩
    · rw [s.literal_eq ht]
      refine h.add ?_ (.inr hc)
      intro he
      exact ht (by simpa using congrArg String.toList he)
    · rw [Piece.spelled_concat]
      simp [Piece.source]

/-- A tag that was handled is one more piece. -/
theorem command (h : Cut d s pieces) {s' : Scan} {tag : Tag}
    (hp : tag.position = Position.start.after (Piece.spelled pieces))
    (hs : tag.source.toList.head? = some '<') (ht : d.handleTag s tag = (s', .ok ())) :
    ∃ pieces', Cut d s' pieces' ∧ Piece.Closed pieces' ∧
      Piece.spelled pieces' = Piece.spelled pieces ++ tag.source.toList := by
  obtain ⟨x, replacement, left, rfl, rfl, hx, hr, ho⟩ := Document.handleTag_eq ht
  rw [h.length] at hx
  refine ⟨pieces ++ [.command x replacement left], ?_, ?_, ?_⟩
  · exact h.add ⟨hp, hs, hx, hr, ho⟩ (.inl rfl)
  · simp [Piece.Closed, Piece.dispatch?]
  · exact Piece.spelled_concat _ _

end Cut

theorem Position.after_append (p : Position) (a b : List Char) :
    p.after (a ++ b) = (p.after a).after b := List.foldl_append

/-- Where a scan stands after some more of a literal text. -/
theorem Position.after_passed {p q : Position} {before passed : List Char}
    (h : p = q.after (before ++ passed.reverse)) (text : List Char) :
    p.after text = q.after (before ++ (text.reverse ++ passed).reverse) := by
  rw [h, ← after_append, List.reverse_append, List.reverse_reverse, List.append_assoc]

namespace Document

theorem scanFrom_cut {d : Document} {s s' : Scan} {position : Position} {passed text : List Char}
    {pieces : List Piece} (h : d.scanFrom s position passed text = (s', .ok ()))
    (hs : Cut d s pieces) (hc : Piece.Closed pieces)
    (hp : position = Position.start.after (Piece.spelled pieces ++ passed.reverse)) :
    ∃ pieces', Cut d s' pieces' ∧
      Piece.spelled pieces' = Piece.spelled pieces ++ passed.reverse ++ text := by
  -- the induction follows the scan; `pieces` grows only where a tag is handled, and all text since
  -- the last of them waits in `passed`
  fun_induction scanFrom d s position passed text generalizing pieces with
  | case1 s position passed =>
      rw [← (Prod.mk.inj h).1, List.append_nil]
      exact hs.literal hc _
  | case2 s position passed c text _ ih =>
      obtain ⟨pieces', hs', ht⟩ := ih h hs hc (Position.after_passed hp [c])
      exact ⟨pieces', hs', by rw [ht]; simp⟩
  | case3 => cases (Prod.mk.inj h).2
  | case4 s position passed c text _ _ ih =>
      obtain ⟨pieces', hs', ht⟩ := ih h hs hc (Position.after_passed hp [c])
      exact ⟨pieces', hs', by rw [ht]; simp⟩
  | case5 s position passed c text _ body rest hr source =>
      rename_i ih
      obtain ⟨pieces', hs', ht⟩ := ih h hs hc (Position.after_passed hp _)
      exact ⟨pieces', hs', by rw [ht, Markers.recognise_markup hr]; simp [source]⟩
  | case6 s position passed c text hne tag rest hr s₁ hh ih =>
      have hh : d.handleTag (s.literal passed.reverse) tag = (s₁, .ok ()) := by simpa using hh
      rw [hh] at h
      have hlt : c = '<' := by simpa using hne
      -- first the literal text before the tag becomes a piece, then the tag
      obtain ⟨body, htag, htext, hat⟩ := Markers.recognise_command hr
      obtain ⟨pieces₁, hs₁, ht₁⟩ := hs.literal hc passed.reverse
      obtain ⟨pieces₂, hs₂, hc₂, ht₂⟩ :=
        hs₁.command (by rw [hat, hp, ht₁]) (by rw [htag]; rfl) hh
      obtain ⟨pieces', hs', ht⟩ := ih h hs₂ hc₂ (by
        rw [hp, ← Position.after_append, ht₂, ht₁, List.reverse_nil, List.append_nil])
      exact ⟨pieces', hs', by rw [ht, ht₂, ht₁, htag, htext, hlt]; simp⟩
  | case7 s position passed c text _ tag rest _ s₁ e hh =>
      have hh : d.handleTag (s.literal passed.reverse) tag = (s₁, .error e) := by simpa using hh
      rw [hh] at h
      cases (Prod.mk.inj h).2

/-- A scan that succeeds cuts the source into pieces. -/
theorem scan_cut {d : Document} {s : Scan} (h : d.scan = (s, .ok ())) :
    ∃ pieces, Cut d s pieces ∧ Piece.spelled pieces = d.source.toList :=
  scanFrom_cut h (Cut.start d) (by simp [Piece.Closed]) rfl

end Document

end Inlay
