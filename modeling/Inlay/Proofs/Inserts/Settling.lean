import Inlay.Document.Fetching
import Inlay.Proofs.Source.Pieces

set_option autoImplicit false

/-! # What settlements come to

`settle` gives one insert a result. Here a whole list of settlements is applied, and the document
that comes out is described without the order of the list: of the settlements of one insert only
the first counts (`settled?`), and what it does to the segment and to the two tables of inserts
hangs on nothing else (`settleAll_pending`, `settleAll_failed`, `settleAll_segments`).
-/

namespace Inlay

/-- The first result for a segment in a list of settlements. -/
def firstResult (ss : List Settlement) (slot : Nat) : Option Delivered :=
  (ss.find? fun s => s.slot == slot).map Settlement.result

/-- The segment of an insert that came to a result. -/
def Segment.ofResult : Delivered → Segment
  | .ok s => .text s
  | .error e => .failed e

@[simp] theorem firstResult_nil (slot : Nat) : firstResult [] slot = none := rfl

theorem firstResult_cons (s : Settlement) (ss : List Settlement) (slot : Nat) :
    firstResult (s :: ss) slot = if s.slot = slot then some s.result else firstResult ss slot := by
  by_cases h : s.slot = slot
  · simp [firstResult, h]
  · simp [firstResult, h]

/-- Results that come later count only where there is none before. -/
theorem firstResult_append (ss ss' : List Settlement) (slot : Nat) :
    firstResult (ss ++ ss') slot = (firstResult ss slot).or (firstResult ss' slot) := by
  induction ss with
  | nil => simp
  | cons s ss ih =>
      rw [List.cons_append, firstResult_cons, firstResult_cons, ih]
      split <;> rfl

namespace Document

/-- A document that was tokenized and not touched since: its segments are texts and the places of
its pending inserts, and nothing has failed. -/
structure Tokenized (d : Document) : Prop where
  phase : d.phase = .tokenized
  pending_iff : ∀ i : Nat, (d.pending[i]?).isSome ↔ d.segments[i]? = some Segment.pending
  unfailed : ∀ e, Segment.failed e ∉ d.segments
  failed : d.failed = ∅

/-- Tokenizing leads to such a document. -/
theorem tokenize_tokenized {d d' : Document} {notes : List String} (hd : d.failed = ∅)
    (h : d.tokenize = (d', notes, .ok ())) : d'.Tokenized := by
  obtain ⟨s, hs, _, rfl⟩ := tokenize_eq_ok h
  obtain ⟨pieces, hc, _⟩ := scan_cut hs
  refine ⟨rfl, fun i => ?_, fun e he => ?_, hd⟩
  · show (s.pending[i]?).isSome ↔ s.segments[i]? = some .pending
    rw [hc.pending, hc.segments, List.getElem?_map]
    cases pieces[i]? with
    | none => simp
    | some p => simpa using p.insert?_isSome
  · obtain ⟨p, _, hp⟩ := List.mem_map.mp (hc.segments ▸ he : _ ∈ pieces.map Piece.segment)
    exact p.segment_ne_failed e hp

theorem Tokenized.failed_none {d : Document} (hd : d.Tokenized) (i : Nat) :
    d.failed[i]? = none := by
  rw [hd.failed, Slots.get_empty]

/-- The segment of a pending insert is the place of an insert. -/
theorem Tokenized.segment_pending {d : Document} (hd : d.Tokenized) {i : Nat}
    {insert : PendingInsert} (h : d.pending[i]? = some insert) :
    d.segments[i]? = some .pending := by
  apply (hd.pending_iff i).mp
  rw [h]
  rfl

/-- Every other segment is a text. -/
theorem Tokenized.segment_text {d : Document} (hd : d.Tokenized) {i : Nat} {segment : Segment}
    (h : d.segments[i]? = some segment) (hp : d.pending[i]? = none) :
    ∃ s, segment = .text s := by
  cases segment with
  | text s => exact ⟨s, rfl⟩
  | pending =>
      have := (hd.pending_iff i).mpr h
      rw [hp] at this
      cases this
  | failed e => exact absurd (List.mem_of_getElem? h) (hd.unfailed e)

/-- Apply settlements one after another. -/
def settleAll (d : Document) (ss : List Settlement) : Document := ss.foldl settle d

@[simp] theorem settleAll_nil (d : Document) : d.settleAll [] = d := rfl

@[simp] theorem settleAll_cons (d : Document) (s : Settlement) (ss : List Settlement) :
    d.settleAll (s :: ss) = (d.settle s).settleAll ss := rfl

theorem settleAll_append (d : Document) (ss ss' : List Settlement) :
    d.settleAll (ss ++ ss') = (d.settleAll ss).settleAll ss' := List.foldl_append

/-! ## One settlement -/

theorem settle_pending (d : Document) (s : Settlement) (i : Nat) :
    (d.settle s).pending[i]? = if s.slot = i then none else d.pending[i]? := by
  unfold settle
  split
  · rename_i h
    split
    · rename_i hi
      rw [← hi, h]
    · rfl
  · dsimp only
    split
    · exact Slots.get_erase _ _ _
    · exact Slots.get_erase _ _ _

/-- Only the segment of the settlement may change, and only if its insert is pending. -/
theorem settle_segments (d : Document) (s : Settlement) (i : Nat) :
    (d.settle s).segments[i]? = d.segments[i]?.map fun segment =>
      match if s.slot = i then d.pending[i]? else none with
      | some insert => .ofResult (filtered insert.fetch.filter s.result)
      | none => segment := by
  by_cases hi : s.slot = i
  · subst hi
    rw [if_pos rfl]
    unfold settle
    cases d.pending[s.slot]? with
    | none => simp
    | some insert =>
        dsimp only
        cases filtered insert.fetch.filter s.result with
        | ok text =>
            dsimp only
            rw [List.getElem?_set_self']
            rfl
        | error e =>
            dsimp only [recordFailure]
            rw [List.getElem?_set_self']
            rfl
  · rw [if_neg hi, Option.map_id']
    unfold settle
    split
    · rfl
    · dsimp only
      split
      · exact List.getElem?_set_ne hi
      · exact List.getElem?_set_ne hi

theorem settle_length (d : Document) (s : Settlement) :
    (d.settle s).segments.length = d.segments.length := by
  unfold settle
  split
  · rfl
  · dsimp only
    split
    · exact List.length_set
    · exact List.length_set

theorem settle_failed (d : Document) (s : Settlement) (i : Nat) :
    (d.settle s).failed[i]? =
      match if s.slot = i then d.pending[i]? else none with
      | some insert =>
        match filtered insert.fetch.filter s.result with
        | .ok _ => d.failed[i]?
        | .error e => some ⟨insert.tag, e⟩
      | none => d.failed[i]? := by
  by_cases hi : s.slot = i
  · subst hi
    rw [if_pos rfl]
    unfold settle
    cases d.pending[s.slot]? with
    | none => rfl
    | some insert =>
        dsimp only
        cases filtered insert.fetch.filter s.result with
        | ok text => rfl
        | error e => simp [recordFailure]
  · rw [if_neg hi]
    unfold settle
    split
    · rfl
    · dsimp only
      split
      · rfl
      · simp [recordFailure, hi]

theorem settle_withPhase (d : Document) (phase : Phase) (s : Settlement) :
    { d with phase }.settle s = { d.settle s with phase } := by
  unfold settle
  dsimp only
  split
  · rfl
  · split <;> rfl

/-- A settlement changes nothing but the segments and the tables of inserts. -/
theorem settle_frame (d : Document) (s : Settlement) :
    ∃ segments pending failed, d.settle s = { d with segments, pending, failed } := by
  unfold settle
  split
  · exact ⟨d.segments, d.pending, d.failed, rfl⟩
  · dsimp only
    split
    · exact ⟨_, _, d.failed, rfl⟩
    · exact ⟨_, _, _, rfl⟩

/-! ## Many settlements -/

/-- The insert of a segment and the result that it is given by some settlements: the first of them
for the segment, after the filter. -/
def settled? (d : Document) (ss : List Settlement) (i : Nat) : Option (PendingInsert × Delivered) :=
  match d.pending[i]?, firstResult ss i with
  | some insert, some result => some (insert, filtered insert.fetch.filter result)
  | _, _ => none

theorem settled?_eq {d : Document} {ss : List Settlement} {i : Nat} {insert : PendingInsert}
    {result : Delivered} (hi : d.pending[i]? = some insert) (hr : firstResult ss i = some result) :
    d.settled? ss i = some (insert, filtered insert.fetch.filter result) := by
  unfold settled?
  rw [hi, hr]

theorem settled?_eq_none {d : Document} {ss : List Settlement} {i : Nat}
    (h : d.pending[i]? = none ∨ firstResult ss i = none) : d.settled? ss i = none := by
  unfold settled?
  rcases h with h | h
  · rw [h]
  · rw [h]
    cases d.pending[i]? <;> rfl

@[simp] theorem settled?_nil (d : Document) (i : Nat) : d.settled? [] i = none :=
  settled?_eq_none (.inr rfl)

/-- The first settlement decides; after it the others are without effect. -/
theorem settled?_cons (d : Document) (s : Settlement) (ss : List Settlement) (i : Nat) :
    d.settled? (s :: ss) i =
      if s.slot = i then
        d.pending[i]?.map fun insert => (insert, filtered insert.fetch.filter s.result)
      else (d.settle s).settled? ss i := by
  unfold settled?
  rw [firstResult_cons, settle_pending]
  by_cases hi : s.slot = i
  · rw [if_pos hi, if_pos hi]
    cases d.pending[i]? <;> rfl
  · rw [if_neg hi, if_neg hi, if_neg hi]

theorem settle_settled? (d : Document) (s : Settlement) (ss : List Settlement) :
    (d.settle s).settled? ss s.slot = none := by
  unfold settled?
  rw [settle_pending, if_pos rfl]

theorem settleAll_pending (d : Document) (ss : List Settlement) (i : Nat) :
    (d.settleAll ss).pending[i]? =
      if (d.settled? ss i).isSome then none else d.pending[i]? := by
  -- what the first settlement settles is not pending for the others, which `settled?_cons` says
  induction ss generalizing d with
  | nil => simp
  | cons s ss ih =>
      rw [settleAll_cons, ih, settled?_cons, settle_pending]
      by_cases hi : s.slot = i
      · subst hi
        rw [settle_settled?, if_pos rfl, if_pos rfl]
        cases d.pending[s.slot]? <;> rfl
      · rw [if_neg hi, if_neg hi]

theorem settleAll_segments (d : Document) (ss : List Settlement) (i : Nat) :
    (d.settleAll ss).segments[i]? = d.segments[i]?.map fun segment =>
      match d.settled? ss i with
      | some (_, result) => .ofResult result
      | none => segment := by
  induction ss generalizing d with
  | nil => simp
  | cons s ss ih =>
      rw [settleAll_cons, ih, settled?_cons, settle_segments, Option.map_map]
      by_cases hi : s.slot = i
      · subst hi
        rw [settle_settled?, if_pos rfl, if_pos rfl]
        cases d.pending[s.slot]? <;> rfl
      · rw [if_neg hi, if_neg hi]
        rfl

theorem settleAll_length (d : Document) (ss : List Settlement) :
    (d.settleAll ss).segments.length = d.segments.length := by
  induction ss generalizing d with
  | nil => rfl
  | cons s ss ih => rw [settleAll_cons, ih, settle_length]

theorem settleAll_failed (d : Document) (ss : List Settlement) (i : Nat) :
    (d.settleAll ss).failed[i]? =
      match d.settled? ss i with
      | some (insert, .error e) => some ⟨insert.tag, e⟩
      | _ => d.failed[i]? := by
  induction ss generalizing d with
  | nil => simp
  | cons s ss ih =>
      rw [settleAll_cons, ih, settled?_cons, settle_failed]
      by_cases hi : s.slot = i
      · subst hi
        rw [settle_settled?, if_pos rfl, if_pos rfl]
        cases d.pending[s.slot]? with
        | none => rfl
        | some insert =>
            dsimp only [Option.map_some]
            cases filtered insert.fetch.filter s.result <;> rfl
      · rw [if_neg hi, if_neg hi]

theorem settleAll_frame (d : Document) (ss : List Settlement) :
    ∃ segments pending failed, d.settleAll ss = { d with segments, pending, failed } := by
  induction ss generalizing d with
  | nil => exact ⟨d.segments, d.pending, d.failed, rfl⟩
  | cons s ss ih =>
      obtain ⟨_, _, _, hs⟩ := d.settle_frame s
      obtain ⟨segments, pending, failed, h⟩ := ih (d.settle s)
      refine ⟨segments, pending, failed, ?_⟩
      rw [settleAll_cons, h, hs]

/-- What comes out hangs on the first settlement of each pending insert alone. -/
theorem settleAll_congr {d : Document} {ss ss' : List Settlement}
    (h : ∀ i, d.settled? ss i = d.settled? ss' i) : d.settleAll ss = d.settleAll ss' := by
  have hs : (d.settleAll ss).segments = (d.settleAll ss').segments := by
    apply List.ext_getElem?
    intro i
    rw [settleAll_segments, settleAll_segments, h]
  have hp : (d.settleAll ss).pending = (d.settleAll ss').pending := by
    apply Std.ExtTreeMap.ext_getElem?
    intro i
    rw [settleAll_pending, settleAll_pending, h]
  have hf : (d.settleAll ss).failed = (d.settleAll ss').failed := by
    apply Std.ExtTreeMap.ext_getElem?
    intro i
    rw [settleAll_failed, settleAll_failed, h]
  obtain ⟨segments, pending, failed, h₁⟩ := d.settleAll_frame ss
  obtain ⟨segments', pending', failed', h₂⟩ := d.settleAll_frame ss'
  rw [h₁, h₂] at hs hp hf ⊢
  dsimp only at hs hp hf
  rw [hs, hp, hf]

/-! ## The first settlement decides -/

/-- A pending insert ends as its first settlement says. -/
theorem settleAll_settled {d : Document} (hd : d.Tokenized) {ss : List Settlement} {i : Nat}
    {insert : PendingInsert} {result : Delivered} (hi : d.pending[i]? = some insert)
    (hr : firstResult ss i = some result) :
    (d.settleAll ss).pending[i]? = none ∧
      match filtered insert.fetch.filter result with
      | .ok text =>
        (d.settleAll ss).segments[i]? = some (.text text) ∧ (d.settleAll ss).failed[i]? = none
      | .error e =>
        (d.settleAll ss).segments[i]? = some (.failed e) ∧
          (d.settleAll ss).failed[i]? = some ⟨insert.tag, e⟩ := by
  rw [settleAll_pending, settleAll_segments, settleAll_failed, settled?_eq hi hr,
    hd.segment_pending hi, hd.failed_none]
  refine ⟨rfl, ?_⟩
  cases filtered insert.fetch.filter result with
  | ok text => exact ⟨rfl, rfl⟩
  | error e => exact ⟨rfl, rfl⟩

/-- A segment that no settlement is for, or that does not wait for one, stays as it is. -/
theorem settleAll_unsettled (d : Document) {ss : List Settlement} {i : Nat}
    (h : d.pending[i]? = none ∨ firstResult ss i = none) :
    (d.settleAll ss).pending[i]? = d.pending[i]? ∧
      (d.settleAll ss).segments[i]? = d.segments[i]? ∧
      (d.settleAll ss).failed[i]? = d.failed[i]? := by
  rw [settleAll_pending, settleAll_segments, settleAll_failed, settled?_eq_none h]
  exact ⟨rfl, Option.map_id', rfl⟩

end Document

end Inlay
