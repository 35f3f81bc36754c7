import Inlay.Proofs.Source.Pieces

set_option autoImplicit false

/-! # The partition of a source

A tokenized source can be had back from its segments: put the source of each tag in the place of
its segment, and join (`Scan.unhandled`). Every tag that was handed to its handlers has one segment
to itself, the pending inserts are those of the tags that were answered by a fetch, and the
position of each tag is the line and the column of its bracket. `Partition` says all of it of a
scan, and `tokenize_partition` proves it of every tokenization that succeeds.
-/

namespace Inlay

/-! ## Lines and columns -/

/-- The line and the column at the end of a text, both counted from one: how many lines were ended,
and how many characters stand after the last line feed. -/
def Position.atEnd (text : List Char) : Position where
  line := 1 + text.count '\n'
  column := 1 + (text.reverse.takeWhile (· != '\n')).length

theorem Position.atEnd_concat (text : List Char) (c : Char) :
    atEnd (text ++ [c]) = (atEnd text).next c := by
  unfold atEnd next
  by_cases hc : c = '\n'
  · simp [hc, Nat.add_assoc]
  · simp [hc, Nat.add_comm]

theorem Position.start_after (text : List Char) : start.after text = atEnd text := by
  -- a text grows at its end here, so the induction is on the reversed text
  suffices h : ∀ l : List Char, start.after l.reverse = atEnd l.reverse by
    simpa using h text.reverse
  intro l
  induction l with
  | nil => rfl
  | cons c l ih =>
      rw [List.reverse_cons, after_append, ih, atEnd_concat]
      rfl

/-! ## What a scan tells of the source -/

namespace Scan

/-- The tag that a segment belongs to. -/
def dispatch? (s : Scan) (slot : Nat) : Option Dispatch :=
  s.dispatches.find? fun x => x.cursor.segment == slot

/-- The text of a segment before any tag was handled. -/
def sourceAt (s : Scan) (slot : Nat) (segment : Segment) : String :=
  match s.dispatch? slot with
  | some x => x.tag.source
  | none => segment.text?.getD ""

/-- The texts of the segments before any tag was handled. -/
def unhandled (s : Scan) : List String := s.segments.mapIdx s.sourceAt

end Scan

/-- Whether a scan partitions the source of its document. -/
structure Partition (d : Document) (s : Scan) : Prop where
  /-- With each tag put back in its place, the segments join to the source. -/
  source : String.join s.unhandled = d.source
  /-- Each tag was handled where it stands, with the number of its segment. -/
  handled : ∀ x ∈ s.dispatches, x.cursor = d.cursorAt x.tag.position x.cursor.segment ∧
    x.reply = d.registry.dispatch d.options.strict x.tag x.cursor
  /-- The segment of a tag is what its handlers replaced it by. -/
  owned : ∀ x ∈ s.dispatches, ∃ replacement left, x.reply.result = .ok (replacement, left) ∧
    s.segments[x.cursor.segment]? = some replacement.segment
  /-- No two tags share a segment. -/
  ordered : s.dispatches.Pairwise fun x y => x.cursor.segment < y.cursor.segment
  /-- The pending inserts are those of the tags that were answered by a fetch. -/
  pending : ∀ (i : Nat) (insert : PendingInsert), s.pending[i]? = some insert ↔
    ∃ x ∈ s.dispatches, x.cursor.segment = i ∧
      x.reply.result = .ok (.later insert.fetch, insert.tag)
  /-- A segment that belongs to no tag is a text, which is not empty. -/
  literal : ∀ (i : Nat) (segment : Segment), s.segments[i]? = some segment →
    s.dispatch? i = none → ∃ text, text ≠ "" ∧ segment = .text text
  /-- Of two segments side by side one belongs to a tag. -/
  apart : ∀ i, i + 1 < s.segments.length → (s.dispatch? i).isSome ∨ (s.dispatch? (i + 1)).isSome
  /-- Each tag stands in the source after the text of the segments before its own, and its position
  is that of its bracket. -/
  placed : ∀ x ∈ s.dispatches, ∃ before after, d.source.toList = before ++ '<' :: after ∧
    before = (String.join (s.unhandled.take x.cursor.segment)).toList ∧
    x.tag.source.toList <+: '<' :: after ∧ x.tag.position = .atEnd before

/-! ## From the pieces to the partition -/

namespace Cut

variable {d : Document} {s : Scan} {pieces : List Piece}

/-- A tag was handled with the number of its piece. -/
theorem slot_eq (h : Cut d s pieces) {i : Nat} {p : Piece} {x : Dispatch} (hp : pieces[i]? = some p)
    (hx : p.dispatch? = some x) : x.cursor.segment = i := by
  cases p with
  | literal text => cases hx
  | command y replacement left =>
      cases hx
      rw [(h.stands i _ hp).cursor]
      rfl

/-- The tags that were handled are those of the pieces, each with the number of its piece. -/
theorem mem_dispatches (h : Cut d s pieces) {x : Dispatch} :
    x ∈ s.dispatches ↔
      ∃ replacement left, pieces[x.cursor.segment]? = some (.command x replacement left) := by
  rw [h.dispatches, List.mem_filterMap]
  constructor
  · rintro ⟨p, hp, hx⟩
    obtain ⟨i, hi⟩ := List.getElem?_of_mem hp
    cases p with
    | literal text => cases hx
    | command y replacement left =>
        cases hx
        rw [h.slot_eq hi rfl]
        exact ⟨replacement, left, hi⟩
  · rintro ⟨replacement, left, hp⟩
    exact ⟨_, List.mem_of_getElem? hp, rfl⟩

theorem dispatch?_eq (h : Cut d s pieces) (i : Nat) :
    s.dispatch? i = pieces[i]?.bind Piece.dispatch? := by
  cases hd : s.dispatch? i with
  | some x =>
      obtain ⟨replacement, left, hp⟩ := h.mem_dispatches.mp (List.mem_of_find?_eq_some hd)
      have hi : x.cursor.segment = i := by simpa using List.find?_some hd
      rw [← hi, hp]
      rfl
  | none =>
      cases hp : pieces[i]? with
      | none => rfl
      | some p =>
          cases p with
          | literal text => rfl
          | command x replacement left =>
              have hi := h.slot_eq hp rfl
              have hx := h.mem_dispatches.mpr ⟨replacement, left, by rw [hi]; exact hp⟩
              exact absurd hi (by simpa using List.find?_eq_none.mp hd x hx)

theorem unhandled_eq (h : Cut d s pieces) : s.unhandled = pieces.map Piece.source := by
  apply List.ext_getElem?
  intro i
  unfold Scan.unhandled
  rw [List.getElem?_mapIdx, h.segments, List.getElem?_map, List.getElem?_map, Option.map_map]
  cases hp : pieces[i]? with
  | none => rfl
  | some p =>
      rw [Option.map_some, Option.map_some, Function.comp_apply, Scan.sourceAt, h.dispatch?_eq, hp]
      cases p <;> rfl

/-- The texts of the segments up to one of them join to what the pieces spell. -/
theorem join_take_unhandled (h : Cut d s pieces) (i : Nat) :
    (String.join (s.unhandled.take i)).toList = Piece.spelled (pieces.take i) := by
  rw [h.unhandled_eq, ← List.map_take, String.toList_join, List.flatMap_map]
  rfl

theorem join_unhandled (h : Cut d s pieces) :
    (String.join s.unhandled).toList = Piece.spelled pieces := by
  rw [h.unhandled_eq, String.toList_join, List.flatMap_map]
  rfl

theorem ordered (h : Cut d s pieces) :
    s.dispatches.Pairwise fun x y => x.cursor.segment < y.cursor.segment := by
  rw [h.dispatches, List.pairwise_filterMap, List.pairwise_iff_getElem]
  intro i j hi hj hij x hx y hy
  rw [h.slot_eq (List.getElem?_eq_getElem hi) hx, h.slot_eq (List.getElem?_eq_getElem hj) hy]
  exact hij

theorem pending_iff (h : Cut d s pieces) (i : Nat) (insert : PendingInsert) :
    s.pending[i]? = some insert ↔ ∃ x ∈ s.dispatches, x.cursor.segment = i ∧
      x.reply.result = .ok (.later insert.fetch, insert.tag) := by
  rw [h.pending]
  constructor
  · intro hi
    obtain ⟨p, hp, hi⟩ := Option.bind_eq_some_iff.mp hi
    match p with
    | .command x (.later fetch) left =>
      cases hi
      have hx := h.slot_eq hp rfl
      exact ⟨x, h.mem_dispatches.mpr ⟨_, _, by rw [hx]; exact hp⟩, hx, (h.stands i _ hp).result⟩
  · rintro ⟨x, hx, rfl, hr⟩
    obtain ⟨replacement, left, hp⟩ := h.mem_dispatches.mp hx
    have hs := (h.stands _ _ hp).result
    rw [hr] at hs
    cases hs
    rw [hp]
    rfl

theorem placed (h : Cut d s pieces) (hp : Piece.spelled pieces = d.source.toList) {x : Dispatch}
    (hx : x ∈ s.dispatches) : ∃ before after, d.source.toList = before ++ '<' :: after ∧
      before = (String.join (s.unhandled.take x.cursor.segment)).toList ∧
      x.tag.source.toList <+: '<' :: after ∧ x.tag.position = .atEnd before := by
  obtain ⟨replacement, left, hi⟩ := h.mem_dispatches.mp hx
  have hstands := h.stands _ _ hi
  obtain ⟨body, hs⟩ := List.head?_eq_some_iff.mp hstands.bracket
  -- cut the pieces at the tag: what is spelled before it is the text before its bracket
  have hc : pieces = pieces.take x.cursor.segment ++
      (.command x replacement left :: pieces.drop (x.cursor.segment + 1)) := by
    have hd := List.drop_eq_getElem?_toList_append (l := pieces) (i := x.cursor.segment)
    rw [hi] at hd
    exact ((List.take_append_drop _ pieces).symm.trans (by rw [hd]; rfl))
  refine ⟨Piece.spelled (pieces.take x.cursor.segment),
    body ++ Piece.spelled (pieces.drop (x.cursor.segment + 1)), ?_, ?_, ?_, ?_⟩
  · rw [← hp]
    conv => lhs; rw [hc]
    rw [Piece.spelled, List.flatMap_append, List.flatMap_cons]
    show _ ++ (x.tag.source.toList ++ _) = _
    rw [hs]
    rfl
  · exact (h.join_take_unhandled _).symm
  · rw [hs]
    exact List.prefix_append ('<' :: body) _
  · rw [hstands.position, Position.start_after]

theorem partition (h : Cut d s pieces) (hp : Piece.spelled pieces = d.source.toList) :
    Partition d s where
  source := String.toList_inj.mp (h.join_unhandled.trans hp)
  handled x hx := by
    obtain ⟨replacement, left, hi⟩ := h.mem_dispatches.mp hx
    exact ⟨(h.stands _ _ hi).cursor, (h.stands _ _ hi).reply⟩
  owned x hx := by
    obtain ⟨replacement, left, hi⟩ := h.mem_dispatches.mp hx
    refine ⟨replacement, left, (h.stands _ _ hi).result, ?_⟩
    rw [h.segments, List.getElem?_map, hi]
    rfl
  ordered := h.ordered
  pending := h.pending_iff
  literal i segment hi hd := by
    rw [h.segments, List.getElem?_map] at hi
    obtain ⟨p, hp, rfl⟩ := Option.map_eq_some_iff.mp hi
    rw [h.dispatch?_eq, hp] at hd
    cases p with
    | literal text => exact ⟨text, h.stands i _ hp, rfl⟩
    | command x replacement left => cases hd
  apart i hi := by
    rw [h.length] at hi
    rw [h.dispatch?_eq, h.dispatch?_eq, List.getElem?_eq_getElem hi,
      List.getElem?_eq_getElem (Nat.lt_of_succ_lt hi)]
    exact h.apart i _ _ (List.getElem?_eq_getElem _) (List.getElem?_eq_getElem _)
  placed _ hx := h.placed hp hx

end Cut

namespace Document

/-- **A tokenization that succeeds partitions its source.** The document keeps the segments and the
pending inserts of the scan, and from the scan the source can be had back, tag by tag. -/
theorem tokenize_partition {d d' : Document} {notes : List String}
    (h : d.tokenize = (d', notes, .ok ())) :
    ∃ s, d.scan = (s, .ok ()) ∧ notes = s.notes ∧
      d' = { d with phase := .tokenized, segments := s.segments, pending := s.pending } ∧
      Partition d s := by
  obtain ⟨s, hs, hn, hd⟩ := tokenize_eq_ok h
  obtain ⟨pieces, hc, hp⟩ := scan_cut hs
  exact ⟨s, hs, hn, hd, hc.partition hp⟩

/-- A document of two lines, the second of which is a tag that is answered by a fetch. -/
def secondLine : Document where
  phase := .hasSourceText
  source := "é\n<b>"
  registry := Registry.unmarked.insert "<b" (.handler fun _ tag _ =>
    .pure (.fetch { work := .hang }, tag))

/-- The scan of the document. -/
def secondLineScan : Scan :=
  let tag : Tag := ⟨"b", none, [], ⟨2, 1⟩, "<b>"⟩
  { segments := [.text "é\n", .pending]
    pending := (∅ : Slots PendingInsert).insert 1 ⟨tag, { work := .hang }⟩
    dispatches := [⟨tag, secondLine.cursorAt ⟨2, 1⟩ 1, ⟨[], .ok (.later { work := .hang }, tag)⟩⟩] }

theorem secondLine_recognise : secondLine.registry.markers.recognise ⟨2, 1⟩ ['b', '>'] =
    .ok (.command ⟨"b", none, [], ⟨2, 1⟩, "<b>"⟩ []) := by
  have ha : attributesOf [] = .ok [] := by
    rw [attributesOf, attributesFrom]
    rfl
  exact Markers.recognise_eq_command.mpr
    ⟨['b'], ['b'], none, [], rfl, rfl, by decide, rfl, ha, rfl⟩

theorem secondLine_scan : secondLine.scan = (secondLineScan, .ok ()) := by
  show secondLine.scanFrom {} .start [] ['é', '\n', '<', 'b', '>'] = _
  rw [scanFrom_cons _ _ _ (by decide), scanFrom_cons _ _ _ (by decide)]
  show secondLine.scanFrom {} ⟨2, 1⟩ ['\n', 'é'] ['<', 'b', '>'] = _
  rw [scanFrom_command _ _ _ secondLine_recognise]
  show secondLine.scanFrom _ _ [] [] = _
  rw [scanFrom_nil]
  rfl

theorem secondLine_tokenize : secondLine.tokenize = ({ secondLine with
    phase := .tokenized, segments := secondLineScan.segments
    pending := secondLineScan.pending }, [], .ok ()) := by
  unfold tokenize
  rw [secondLine_scan]
  rfl

/-- The tag stands at the start of the second line. -/
theorem secondLine_partition :
    String.join secondLineScan.unhandled = secondLine.source ∧
      ∃ x ∈ secondLineScan.dispatches, x.tag.position = .atEnd "é\n".toList := by
  obtain ⟨s, hs, _, _, hp⟩ := tokenize_partition secondLine_tokenize
  obtain rfl : secondLineScan = s := congrArg Prod.fst (secondLine_scan.symm.trans hs)
  obtain ⟨before, _, _, hb, _, hx⟩ := hp.placed _ List.mem_cons_self
  refine ⟨hp.source, _, List.mem_cons_self, ?_⟩
  rw [hx, hb]
  rfl

end Document

end Inlay
