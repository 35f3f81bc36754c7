import Inlay.Proofs.Inserts.Settling

set_option autoImplicit false

/-! # The order of settlements

The inserts of a document may be settled in any order, some of them more than once, and results may
come for segments that no longer wait for one. What counts is the first settlement of each pending
insert (`settleAll_first_wins`): it alone decides what the insert comes to, so any two orders with
the same first settlements lead to the same document. If all of them bring a text, the merge joins
the texts in the order of the segments.
-/

namespace Inlay.Document

/-! ## Joining texts -/

theorem joinSegments_texts (slot : Nat) (texts : List String) :
    joinSegments slot (texts.map .text) = .ok (String.join texts) := by
  induction texts generalizing slot with
  | nil => rfl
  | cons s texts ih =>
      rw [List.map_cons, joinSegments, ih, String.join_cons]
      rfl

/-- Segments that all have texts are joined when no insert is pending. -/
theorem merge_closeFetch {d : Document} {texts : List String} (h : d.segments = texts.map .text)
    (time : Nat) :
    (d.closeFetch time).1.merge =
      .ok { d with phase := .segmentsMerged, merged := some (String.join texts) } := by
  unfold closeFetch merge
  dsimp only
  rw [h, joinSegments_texts]
  rfl

theorem closeFetch_settled {d : Document} (h : d.failed = ∅) (time : Nat) :
    (d.closeFetch time).2 = .settled time := by
  unfold closeFetch
  rw [h]
  rfl

/-- Settlements with the same first result for each pending insert have the same effect. -/
theorem settleAll_eq_of_firstResult {d : Document} {ss ss' : List Settlement}
    (h : ∀ i : Nat, (d.pending[i]?).isSome → firstResult ss' i = firstResult ss i) :
    d.settleAll ss' = d.settleAll ss := by
  apply settleAll_congr
  intro i
  unfold settled?
  cases hi : d.pending[i]? with
  | none => rfl
  | some insert => rw [h i (by rw [hi]; rfl)]

/-! ## All inserts come to a text -/

theorem exists_texts {segments : List Segment} (h : ∀ segment ∈ segments, ∃ s, segment = .text s) :
    ∃ texts : List String, segments = texts.map Segment.text := by
  induction segments with
  | nil => exact ⟨[], rfl⟩
  | cons segment segments ih =>
      obtain ⟨s, rfl⟩ := h segment List.mem_cons_self
      obtain ⟨texts, rfl⟩ := ih fun x hx => h x (List.mem_cons_of_mem _ hx)
      exact ⟨s :: texts, rfl⟩

theorem getElem?_texts (texts : List String) (i : Nat) (s : String) :
    (texts.map Segment.text)[i]? = some (.text s) ↔ texts[i]? = some s := by
  rw [List.getElem?_map]
  cases texts[i]? <;> simp

/-- Whether the first settlement of every pending insert brings a text. -/
def AllTexts (d : Document) (ss : List Settlement) : Prop :=
  ∀ (i : Nat) (insert : PendingInsert), d.pending[i]? = some insert →
    ∃ result text, firstResult ss i = some result ∧
      filtered insert.fetch.filter result = .ok text

/-- The text of a segment when all inserts are settled by texts: its own, or that of its insert. -/
def IsTextOf (d : Document) (ss : List Settlement) (i : Nat) (s : String) : Prop :=
  d.segments[i]? = some (.text s) ∨
    ∃ insert result, d.pending[i]? = some insert ∧ firstResult ss i = some result ∧
      filtered insert.fetch.filter result = .ok s

theorem settleAll_text_iff {d : Document} (hd : d.Tokenized) {ss : List Settlement}
    (ha : d.AllTexts ss) (i : Nat) (s : String) :
    (d.settleAll ss).segments[i]? = some (.text s) ↔ d.IsTextOf ss i s := by
  unfold IsTextOf
  cases hi : d.pending[i]? with
  | none =>
      rw [(d.settleAll_unsettled (.inl hi)).2.1]
      simp
  | some insert =>
      obtain ⟨result, text, hr, ht⟩ := ha i insert hi
      have h := (settleAll_settled hd hi hr).2
      rw [ht] at h
      rw [h.1, hd.segment_pending hi]
      simp [hr, ht]

theorem settleAll_texts {d : Document} (hd : d.Tokenized) {ss : List Settlement}
    (ha : d.AllTexts ss) :
    ∃ texts : List String, (d.settleAll ss).segments = texts.map Segment.text ∧
      ∀ i s, texts[i]? = some s ↔ d.IsTextOf ss i s := by
  have h : ∀ segment ∈ (d.settleAll ss).segments, ∃ s, segment = .text s := by
    intro segment hs
    obtain ⟨i, hi⟩ := List.getElem?_of_mem hs
    cases hp : d.pending[i]? with
    | none =>
        rw [(d.settleAll_unsettled (.inl hp)).2.1] at hi
        exact hd.segment_text hi hp
    | some insert =>
        obtain ⟨result, text, hr, ht⟩ := ha i insert hp
        have h := (settleAll_settled hd hp hr).2
        rw [ht] at h
        rw [h.1] at hi
        exact ⟨text, (Option.some.inj hi).symm⟩
  obtain ⟨texts, ht⟩ := exists_texts h
  refine ⟨texts, ht, fun i s => ?_⟩
  rw [← settleAll_text_iff hd ha, ht, getElem?_texts]

theorem settleAll_unfailed {d : Document} (hd : d.Tokenized) {ss : List Settlement}
    (ha : d.AllTexts ss) : (d.settleAll ss).failed = ∅ := by
  apply Std.ExtTreeMap.ext_getElem?
  intro i
  rw [Slots.get_empty]
  cases hp : d.pending[i]? with
  | none => rw [(d.settleAll_unsettled (.inl hp)).2.2, hd.failed_none]
  | some insert =>
      obtain ⟨result, text, hr, ht⟩ := ha i insert hp
      have h := (settleAll_settled hd hp hr).2
      rw [ht] at h
      exact h.2

/-! ## The order does not matter -/

/-- **The first settlement of each insert counts, and nothing else does.** Let any settlements be
applied to a tokenized document. Each pending insert with a settlement ends as the first of them
says, after its filter. All else stays as it was. Any other settlements with the same first result
for each pending insert lead to the same document. If each pending insert first comes to a text,
nothing failed and the merge joins the texts of all segments in their order. -/
theorem settleAll_first_wins {d : Document} (hd : d.Tokenized) (ss : List Settlement) :
    (∀ (i : Nat) (insert : PendingInsert) (result : Delivered),
      d.pending[i]? = some insert → firstResult ss i = some result →
        (d.settleAll ss).pending[i]? = none ∧
          match filtered insert.fetch.filter result with
          | .ok text =>
            (d.settleAll ss).segments[i]? = some (.text text) ∧ (d.settleAll ss).failed[i]? = none
          | .error e =>
            (d.settleAll ss).segments[i]? = some (.failed e) ∧
              (d.settleAll ss).failed[i]? = some ⟨insert.tag, e⟩) ∧
    (∀ i : Nat, d.pending[i]? = none ∨ firstResult ss i = none →
      (d.settleAll ss).pending[i]? = d.pending[i]? ∧
        (d.settleAll ss).segments[i]? = d.segments[i]? ∧
        (d.settleAll ss).failed[i]? = none) ∧
    (∀ ss' : List Settlement,
      (∀ i : Nat, (d.pending[i]?).isSome → firstResult ss' i = firstResult ss i) →
        d.settleAll ss' = d.settleAll ss) ∧
    (d.AllTexts ss → ∃ texts : List String,
      texts.length = d.segments.length ∧ (∀ i s, texts[i]? = some s ↔ d.IsTextOf ss i s) ∧
        ∀ time, ((d.settleAll ss).closeFetch time).2 = .settled time ∧
          ((d.settleAll ss).closeFetch time).1.merge =
            .ok { d.settleAll ss with
              phase := .segmentsMerged, merged := some (String.join texts) }) := by
  refine ⟨?_, ?_, ?_, ?_⟩
  · intro i insert result hi hr
    exact settleAll_settled hd hi hr
  · intro i h
    rw [← hd.failed_none i]
    exact d.settleAll_unsettled h
  · intro ss' h
    exact settleAll_eq_of_firstResult h
  · intro ha
    obtain ⟨texts, ht, hi⟩ := settleAll_texts hd ha
    have hl : texts.length = (d.settleAll ss).segments.length := by rw [ht, List.length_map]
    refine ⟨texts, hl.trans (d.settleAll_length ss), hi, fun time => ⟨?_, ?_⟩⟩
    · exact closeFetch_settled (settleAll_unfailed hd ha) time
    · exact merge_closeFetch ht time

/-- A document with a text before two inserts, the second of which has a filter. -/
def twoInserts : Document :=
  let tag (command : String) : Tag := ⟨"!--#" ++ command, some command, [], ⟨1, 1⟩, ""⟩
  { phase := .tokenized
    segments := [.text "a", .pending, .pending]
    pending := ((∅ : Slots PendingInsert).insert 1 ⟨tag "b", { work := .hang }⟩).insert 2
      ⟨tag "c", { work := .hang, filter := some fun s => .ok (s ++ "!") }⟩ }

theorem twoInserts_tokenized : twoInserts.Tokenized where
  phase := rfl
  pending_iff i := by
    match i with
    | 0 => decide
    | 1 => decide
    | 2 => decide
    | i + 3 => simp [twoInserts]
  unfailed e := by simp [twoInserts]
  failed := rfl

/-- Late, repeated and stray results change nothing, and the texts are joined in their places. -/
theorem twoInserts_settled :
    let ss : List Settlement :=
      [⟨2, .ok "c"⟩, ⟨7, .ok "x"⟩, ⟨1, .ok "b"⟩, ⟨2, .error (.abandoned "c")⟩]
    (twoInserts.settleAll ss).segments[2]? = some (.text "c!") ∧
      (twoInserts.settleAll ss).segments[0]? = some (.text "a") ∧
      twoInserts.settleAll [⟨1, .ok "b"⟩, ⟨1, .ok "x"⟩, ⟨2, .ok "c"⟩] = twoInserts.settleAll ss ∧
      ((twoInserts.settleAll ss).closeFetch 0).1.merge =
        .ok { twoInserts.settleAll ss with phase := .segmentsMerged, merged := some "abc!" } := by
  intro ss
  obtain ⟨first, other, order, joined⟩ := settleAll_first_wins twoInserts_tokenized ss
  have all : twoInserts.AllTexts ss := by
    intro i insert hi
    match i with
    | 0 => cases hi
    | 1 => exact ⟨.ok "b", "b", rfl, by rw [← Option.some.inj hi]; rfl⟩
    | 2 => exact ⟨.ok "c", "c!", rfl, by rw [← Option.some.inj hi]; rfl⟩
    | i + 3 => simp [twoInserts] at hi
  refine ⟨((first 2 _ (.ok "c") rfl rfl).2).1, (other 0 (.inl rfl)).2.1, order _ ?_, ?_⟩
  · intro i hi
    match i with
    | 0 => cases hi
    | 1 => rfl
    | 2 => rfl
    | i + 3 => simp [twoInserts] at hi
  · obtain ⟨texts, hl, ht, h⟩ := joined all
    have ha : texts[0]? = some "a" := (ht 0 "a").mpr (.inl rfl)
    have hb : texts[1]? = some "b" := (ht 1 "b").mpr (.inr ⟨_, .ok "b", rfl, rfl, rfl⟩)
    have hc : texts[2]? = some "c!" := (ht 2 "c!").mpr (.inr ⟨_, .ok "c", rfl, rfl, rfl⟩)
    match texts, hl with
    | [a, b, c], _ =>
      cases ha
      cases hb
      cases hc
      exact (h 0).2

end Inlay.Document
