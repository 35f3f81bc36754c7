import Inlay.Proofs.Inserts.Order
import Inlay.Proofs.Session.Reach
import Inlay.Proofs.Source.Partition

set_option autoImplicit false

/-! # The books of a document

A document keeps five records of one state of affairs: its phase, its segments, the two tables of
inserts and the merged text. They agree (`Consistent`) in every state that the document can get to,
however it is used (`reachable_consistent`), since every change keeps them in agreement
(`Consistent.change`). Most changes leave the records alone, and the same records are due in the
phase that they lead to (`Phase.stage`); only four need an argument of their own.
-/

namespace Inlay

open Relation (ReflTransGen)

namespace Document

/-! ## The tables tell of the segments -/

/-- The tables of inserts agree with the segments. -/
structure Accounted (d : Document) : Prop where
  pending_iff : ∀ i : Nat, (d.pending[i]?).isSome ↔ d.segments[i]? = some .pending
  failed_iff : ∀ (i : Nat) (e : FetchError),
    d.segments[i]? = some (.failed e) ↔ (d.failed[i]?).map FailedInsert.error = some e

theorem Tokenized.accounted {d : Document} (hd : d.Tokenized) : d.Accounted where
  pending_iff := hd.pending_iff
  failed_iff i e := by
    rw [hd.failed_none]
    exact iff_of_false (fun h => hd.unfailed e (List.mem_of_getElem? h)) nofun

namespace Accounted

variable {d : Document} (h : d.Accounted)

include h

/-- An insert that is pending has not failed. -/
theorem failed_of_pending {i : Nat} (hp : (d.pending[i]?).isSome) : d.failed[i]? = none := by
  cases hf : d.failed[i]? with
  | none => rfl
  | some failure =>
      have hs := (h.failed_iff i failure.error).mpr (by rw [hf]; rfl)
      cases ((h.pending_iff i).mp hp).symm.trans hs

/-- With no insert pending, no segment is the place of one. -/
theorem pending_not_mem (hp : d.pending = ∅) : .pending ∉ d.segments := by
  intro hmem
  obtain ⟨i, hi⟩ := List.mem_iff_getElem?.mp hmem
  have hsome := (h.pending_iff i).mpr hi
  rw [hp, Slots.get_empty] at hsome
  cases hsome

theorem failed_not_mem (hf : d.failed = ∅) (e : FetchError) : .failed e ∉ d.segments := by
  intro hmem
  obtain ⟨i, hi⟩ := List.mem_iff_getElem?.mp hmem
  have hsome := (h.failed_iff i e).mp hi
  rw [hf, Slots.get_empty] at hsome
  cases hsome

/-- Settling inserts keeps the tables. -/
theorem settleAll (ss : List Settlement) : (d.settleAll ss).Accounted := by
  -- a segment that is settled was pending before, and the others stay as they are
  have hsome {i : Nat} {insert : PendingInsert} {result : Delivered}
      (hr : d.settled? ss i = some (insert, result)) : (d.pending[i]?).isSome := by
    cases hi : d.pending[i]? with
    | none =>
        rw [settled?_eq_none (.inl hi)] at hr
        cases hr
    | some insert => rfl
  constructor
  · intro i
    rw [settleAll_pending, settleAll_segments]
    cases hr : d.settled? ss i with
    | none => simpa using h.pending_iff i
    | some x =>
        obtain ⟨insert, result⟩ := x
        rw [(h.pending_iff i).mp (hsome hr)]
        cases result <;> simp [Segment.ofResult]
  · intro i e
    rw [settleAll_failed, settleAll_segments]
    cases hr : d.settled? ss i with
    | none => simpa using h.failed_iff i e
    | some x =>
        obtain ⟨insert, result⟩ := x
        rw [(h.pending_iff i).mp (hsome hr)]
        cases result with
        | ok text => simp [Segment.ofResult, h.failed_of_pending (hsome hr)]
        | error e' => simp [Segment.ofResult]

end Accounted

/-! ## The records agree with the phase -/

/-- The records of a document agree with each other. -/
structure Consistent (d : Document) : Prop extends d.Accounted where
  /-- There are no records before the source is split. -/
  blank : d.phase < .tokenized → d.segments = [] ∧ d.pending = ∅ ∧ d.failed = ∅
  untried : d.phase = .tokenized → d.failed = ∅
  waiting : d.phase = .fetchingInserts → d.pending ≠ ∅
  settled : .fetchedAllInserts ≤ d.phase → d.pending = ∅
  merged_iff : d.merged.isSome ↔ .segmentsMerged ≤ d.phase
  complete : .segmentsMerged ≤ d.phase →
    (∀ segment ∈ d.segments, ∃ s, segment = .text s) ∧ d.failed = ∅

theorem Fresh.consistent {d : Document} (h : d.Fresh) : d.Consistent where
  pending_iff i := by
    rw [h.pending, h.segments]
    simp
  failed_iff i e := by
    rw [h.failed, h.segments]
    simp
  blank _ := ⟨h.segments, h.pending, h.failed⟩
  untried _ := h.failed
  waiting hp := Phase.noConfusion (h.phase.symm.trans hp)
  settled hp := absurd (h.phase ▸ hp) (by decide)
  merged_iff := by
    rw [h.merged, h.phase]
    decide
  complete hp := absurd (h.phase ▸ hp) (by decide)

end Document

/-! ## Every change keeps the records in agreement -/

namespace Phase

/-- The stage that a phase belongs to: in the phases of one stage the same records are due. -/
def stage : Phase → Nat
  | .init | .readSourceFile | .hasSourceText | .tokenizing => 0
  | .tokenized => 1
  | .fetchingInserts => 2
  | .fetchedAllInserts => 3
  | .segmentsMerged | .runningHooks | .done => 4

theorem lt_tokenized (p : Phase) : p < .tokenized ↔ p.stage = 0 := by cases p <;> decide

theorem eq_tokenized (p : Phase) : p = .tokenized ↔ p.stage = 1 := by cases p <;> decide

theorem eq_fetchingInserts (p : Phase) : p = .fetchingInserts ↔ p.stage = 2 := by
  cases p <;> decide

theorem fetchedAllInserts_le (p : Phase) : .fetchedAllInserts ≤ p ↔ 3 ≤ p.stage := by
  cases p <;> decide

theorem segmentsMerged_le (p : Phase) : .segmentsMerged ≤ p ↔ p.stage = 4 := by
  cases p <;> decide

/-- The text can be replaced after the merge only. -/
theorem segmentsMerged_le_of {p : Phase} (h : p = .segmentsMerged ∨ p = .runningHooks) :
    .segmentsMerged ≤ p := by
  rcases h with rfl | rfl <;> decide

end Phase

namespace Document

/-- A document stays consistent as long as its records and the stage of its phase stay. -/
theorem Consistent.of_stage {d d' : Document} (h : d.Consistent)
    (hp : d'.phase.stage = d.phase.stage) (hs : d'.segments = d.segments)
    (hi : d'.pending = d.pending) (hf : d'.failed = d.failed)
    (hm : d'.merged.isSome = d.merged.isSome) : d'.Consistent where
  pending_iff := by
    rw [hi, hs]
    exact h.pending_iff
  failed_iff := by
    rw [hf, hs]
    exact h.failed_iff
  blank := by
    rw [hs, hi, hf, Phase.lt_tokenized, hp, ← Phase.lt_tokenized]
    exact h.blank
  untried := by
    rw [hf, Phase.eq_tokenized, hp, ← Phase.eq_tokenized]
    exact h.untried
  waiting := by
    rw [hi, Phase.eq_fetchingInserts, hp, ← Phase.eq_fetchingInserts]
    exact h.waiting
  settled := by
    rw [hi, Phase.fetchedAllInserts_le, hp, ← Phase.fetchedAllInserts_le]
    exact h.settled
  merged_iff := by
    rw [hm, Phase.segmentsMerged_le, hp, ← Phase.segmentsMerged_le]
    exact h.merged_iff
  complete := by
    rw [hs, hf, Phase.segmentsMerged_le, hp, ← Phase.segmentsMerged_le]
    exact h.complete

/-- Between the split and the merge there is nothing else to be seen to. -/
theorem Accounted.consistent {d : Document} (h : d.Accounted) (hp : .tokenized ≤ d.phase)
    (hp' : d.phase < .segmentsMerged) (hm : d.merged.isSome = false)
    (hu : d.phase = .tokenized → d.failed = ∅)
    (hw : d.phase = .fetchingInserts → d.pending ≠ ∅)
    (hs : .fetchedAllInserts ≤ d.phase → d.pending = ∅) : d.Consistent where
  toAccounted := h
  blank hp'' := absurd hp (Nat.not_le_of_lt hp'')
  untried := hu
  waiting := hw
  settled := hs
  merged_iff := by
    rw [hm]
    exact iff_of_false Bool.false_ne_true (Nat.not_le_of_lt hp')
  complete hp'' := absurd hp' (Nat.not_lt_of_le hp'')

namespace Consistent

variable {d : Document} (h : d.Consistent)

include h

theorem unmerged (hp : d.phase < .segmentsMerged) : d.merged.isSome = false := by
  rw [← Bool.not_eq_true, h.merged_iff]
  exact Nat.not_le_of_lt hp

theorem tokenize {d' : Document} {notes : List String} (hp : d.phase = .hasSourceText)
    (ht : d.tokenize = (d', notes, .ok ())) : d'.Consistent := by
  have hd := tokenize_tokenized (h.blank (by rw [hp]; decide)).2.2 ht
  have hm := h.unmerged (by rw [hp]; decide)
  obtain ⟨s, _, _, rfl⟩ := tokenize_eq_ok ht
  refine hd.accounted.consistent ?_ ?_ hm (fun _ => hd.failed) nofun ?_
  · exact (by decide : Phase.tokenized ≤ .tokenized)
  · exact (by decide : Phase.tokenized < .segmentsMerged)
  · exact fun hp' => absurd hp' (by decide : ¬ Phase.fetchedAllInserts ≤ .tokenized)

theorem settle (ss : List Settlement) (hp : d.phase = .tokenized)
    (hs : (d.settleAll ss).pending = ∅) :
    { d.settleAll ss with phase := .fetchedAllInserts }.Consistent := by
  obtain ⟨_, _, _, hf⟩ := d.settleAll_frame ss
  have ha := h.settleAll ss
  have hm := h.unmerged (by rw [hp]; decide)
  rw [hf] at ha hs ⊢
  refine Accounted.consistent ⟨ha.pending_iff, ha.failed_iff⟩ ?_ ?_ hm nofun nofun fun _ => hs
  · exact (by decide : Phase.tokenized ≤ .fetchedAllInserts)
  · exact (by decide : Phase.fetchedAllInserts < .segmentsMerged)

theorem forsake (ss : List Settlement) (hp : d.phase = .tokenized)
    (hs : (d.settleAll ss).pending ≠ ∅) :
    { d.settleAll ss with phase := .fetchingInserts }.Consistent := by
  obtain ⟨_, _, _, hf⟩ := d.settleAll_frame ss
  have ha := h.settleAll ss
  have hm := h.unmerged (by rw [hp]; decide)
  rw [hf] at ha hs ⊢
  refine Accounted.consistent ⟨ha.pending_iff, ha.failed_iff⟩ ?_ ?_ hm nofun (fun _ => hs) ?_
  · exact (by decide : Phase.tokenized ≤ .fetchingInserts)
  · exact (by decide : Phase.fetchingInserts < .segmentsMerged)
  · exact fun hp' => absurd hp' (by decide : ¬ Phase.fetchedAllInserts ≤ .fetchingInserts)

end Consistent

/-- Segments that can be joined are texts. -/
theorem texts_of_joinSegments {slot : Nat} {segments : List Segment} {text : String}
    (h : joinSegments slot segments = .ok text) : ∀ segment ∈ segments, ∃ s, segment = .text s := by
  induction segments generalizing slot text with
  | nil => nofun
  | cons segment segments ih =>
      cases segment with
      | text s =>
          rw [joinSegments] at h
          cases hj : joinSegments (slot + 1) segments with
          | error e =>
              rw [hj] at h
              cases h
          | ok text' => exact List.forall_mem_cons.mpr ⟨⟨s, rfl⟩, ih hj⟩
      | pending => cases h
      | failed e => cases h

/-- Where all segments are texts, nothing has failed. -/
theorem Accounted.unfailed {d : Document} (h : d.Accounted)
    (ht : ∀ segment ∈ d.segments, ∃ s, segment = .text s) : d.failed = ∅ := by
  apply Std.ExtTreeMap.ext_getElem?
  intro i
  rw [Slots.get_empty]
  cases hf : d.failed[i]? with
  | none => rfl
  | some failure =>
      have hs := (h.failed_iff i failure.error).mpr (by rw [hf]; rfl)
      obtain ⟨s, hs'⟩ := ht _ (List.mem_of_getElem? hs)
      cases hs'

theorem Consistent.merge {d : Document} (h : d.Consistent) {text : String}
    (hp : d.phase = .fetchedAllInserts) (hj : joinSegments 0 d.segments = .ok text) :
    { d with merged := some text, phase := .segmentsMerged }.Consistent where
  pending_iff := h.pending_iff
  failed_iff := h.failed_iff
  blank hp' := absurd hp' (by decide : ¬ Phase.segmentsMerged < .tokenized)
  untried := nofun
  waiting := nofun
  settled _ := h.settled (by rw [hp]; decide)
  merged_iff := iff_of_true rfl (by decide : Phase.segmentsMerged ≤ .segmentsMerged)
  complete _ := ⟨texts_of_joinSegments hj, h.unfailed (texts_of_joinSegments hj)⟩

theorem Consistent.act {d d' : Document} (h : d.Consistent) (ha : Act d d') : d'.Consistent := by
  cases ha with
  | install text hp =>
      obtain ⟨source, marked, hd⟩ := d.install_eq text
      rw [hd]
      exact h.of_stage ((Phase.lt_tokenized _).mp (Nat.lt_succ_of_lt hp)).symm rfl rfl rfl rfl
  | tokenize hp ht => exact h.tokenize hp ht
  | misread hp => exact h.of_stage (by rw [hp]; rfl) rfl rfl rfl rfl
  | settle ss hp hs => exact h.settle ss hp hs
  | forsake ss hp hs => exact h.forsake ss hp hs
  | merge hp hj => exact h.merge hp hj
  | replace text hp =>
      have hm := h.merged_iff.mpr (Phase.segmentsMerged_le_of hp)
      exact h.of_stage rfl rfl rfl rfl hm.symm

/-- Every change of a consistent document leaves a consistent one. -/
theorem Consistent.change {d d' : Document} (h : d.Consistent) (hc : Change d d') :
    d'.Consistent := by
  cases hc with
  | act ha => exact h.act ha
  | load text hp => exact h.of_stage (by rw [hp]; rfl) rfl rfl rfl rfl
  | release hp => exact h.of_stage (by rw [hp]; rfl) rfl rfl rfl rfl
  | start hp hn =>
      obtain ⟨_, _, _, rfl⟩ := nextHook?_eq_some hn
      exact h.of_stage rfl rfl rfl rfl rfl
  | finish hp hn => exact h.of_stage (by rw [hp]; rfl) rfl rfl rfl rfl
  | enqueue queue script => cases queue <;> exact h.of_stage rfl rfl rfl rfl rfl
  | equip filename options registry bindings loader => exact h.of_stage rfl rfl rfl rfl rfl

theorem Act.length_eq {d d' : Document} (ha : Act d d') (hp : .tokenized ≤ d.phase) :
    .tokenized ≤ d'.phase ∧ d'.segments.length = d.segments.length := by
  cases ha with
  | install text hp' => exact absurd hp (Nat.not_le_of_lt (Nat.lt_succ_of_lt hp'))
  | tokenize hp' ht => exact absurd (hp' ▸ hp) (by decide)
  | misread hp' => exact absurd (hp' ▸ hp) (by decide)
  | settle ss hp' hs =>
      exact ⟨(by decide : Phase.tokenized ≤ .fetchedAllInserts), d.settleAll_length ss⟩
  | forsake ss hp' hs =>
      exact ⟨(by decide : Phase.tokenized ≤ .fetchingInserts), d.settleAll_length ss⟩
  | merge hp' hj => exact ⟨(by decide : Phase.tokenized ≤ .segmentsMerged), rfl⟩
  | replace text hp' => exact ⟨hp, rfl⟩

/-- Once the source is split, the number of segments is fixed, and it stays split. -/
theorem Change.length_eq {d d' : Document} (hc : Change d d') (hp : .tokenized ≤ d.phase) :
    .tokenized ≤ d'.phase ∧ d'.segments.length = d.segments.length := by
  cases hc with
  | act ha => exact ha.length_eq hp
  | load text hp' => exact absurd (hp' ▸ hp) (by decide)
  | release hp' => exact ⟨(by decide : Phase.tokenized ≤ .runningHooks), rfl⟩
  | start hp' hn =>
      obtain ⟨_, _, _, rfl⟩ := nextHook?_eq_some hn
      exact ⟨hp, rfl⟩
  | finish hp' hn => exact ⟨(by decide : Phase.tokenized ≤ .done), rfl⟩
  | enqueue queue script => cases queue <;> exact ⟨hp, rfl⟩
  | equip filename options registry bindings loader => exact ⟨hp, rfl⟩

/-! ## The records of a document in use -/

theorem Consistent.changes {d d' : Document} (h : d.Consistent) (hc : ReflTransGen Change d d') :
    d'.Consistent := preserved_of_steps Consistent hc (fun hc h => h.change hc) h

theorem length_of_changes {d d' : Document} (hc : ReflTransGen Change d d')
    (hp : .tokenized ≤ d.phase) : d'.segments.length = d.segments.length := by
  have hall := preserved_of_steps
    (fun d' => .tokenized ≤ d'.phase ∧ d'.segments.length = d.segments.length) hc
    (fun hc h => ⟨(hc.length_eq h.1).1, (hc.length_eq h.1).2.trans h.2⟩) ⟨hp, rfl⟩
  exact hall.2

/-! ## What the records rule out -/

theorem joinSegments_settled {slot i : Nat} {segments : List Segment}
    (h : .pending ∉ segments) : joinSegments slot segments ≠ .error (.merge i .unsettled) := by
  induction segments generalizing slot with
  | nil =>
      intro he
      cases he
  | cons segment segments ih =>
      obtain ⟨hne, hrest⟩ := not_or.mp (mt List.mem_cons.mpr h)
      cases segment with
      | text s =>
          intro he
          rw [joinSegments] at he
          cases hj : joinSegments (slot + 1) segments with
          | ok text =>
              rw [hj] at he
              cases he
          | error e =>
              rw [hj] at he
              cases he
              exact ih hrest hj
      | pending => exact absurd rfl hne
      | failed e =>
          intro he
          cases he

/-- The merge never meets an insert that is not settled. -/
theorem Consistent.merge_settled {d : Document} (h : d.Consistent) (i : Nat) :
    d.merge ≠ .error (.merge i .unsettled) := by
  intro he
  unfold Document.merge at he
  split at he
  · rename_i hp
    have hpending := h.pending_not_mem (h.settled (by rw [hp]; decide))
    cases hj : joinSegments 0 d.segments with
    | ok text =>
        rw [hj] at he
        cases he
    | error e =>
        rw [hj] at he
        cases he
        exact joinSegments_settled hpending hj
  · cases he

/-- Where a wait was given up, the number of outstanding inserts that is told is not zero. -/
theorem Consistent.outstanding {d : Document} (h : d.Consistent)
    (hp : d.phase = .fetchingInserts) : d.pending.size ≠ 0 :=
  mt Std.ExtTreeMap.eq_empty_iff_size_eq_zero.mpr (h.waiting hp)

end Document

namespace Machine

theorem Reachable.consistent {m : Machine} (h : m.Reachable) : m.session.document.Consistent := by
  obtain ⟨s, hs, hr⟩ := h
  exact hs.consistent.changes hr.changes

/-- **The records of a document agree in every state that it can get to.** From the split on the
number of its segments is fixed. -/
theorem reachable_consistent {m m' : Machine} (h : m.Reachable) (hr : m.Reaches m') :
    m'.session.document.Consistent ∧ (.tokenized ≤ m.session.document.phase →
      m'.session.document.segments.length = m.session.document.segments.length) :=
  ⟨(h.reaches hr).consistent, Document.length_of_changes hr.changes⟩

/-- A machine on which the document of two lines was split. -/
def splitLines : Machine where
  stack := []
  session := { document := { Document.secondLine with
    phase := .tokenized
    segments := Document.secondLineScan.segments
    pending := Document.secondLineScan.pending } }

/-- The machine when the wait for the insert was given up. -/
def forsakenLines : Machine where
  stack := []
  session := { splitLines.session with
    document := { splitLines.session.document with phase := .fetchingInserts } }

theorem splitLines_reachable : splitLines.Reachable := by
  let s : Session := { document := { registry := Document.secondLine.registry } }
  have hinstall : (s.perform 0 (.setSource "é\n<b>")).1 = { document := Document.secondLine } := rfl
  have hsplit : (Session.perform 0 .tokenize { document := Document.secondLine }).1 =
      splitLines.session := by
    unfold Session.perform Session.tokenize
    dsimp only
    rw [Document.secondLine_tokenize]
    rfl
  refine ⟨s, ⟨rfl, rfl, rfl, rfl, rfl⟩, ?_⟩
  refine .tail (.single (.act 0 (.setSource "é\n<b>"))) ?_
  rw [hinstall, ← show (⟨[], _⟩ : Machine) = splitLines from congrArg (Machine.mk []) hsplit]
  exact .act 0 .tokenize

theorem splitLines_forsaken : splitLines.Reaches forsakenLines := by
  refine .single (.forsake [] rfl fun h => ?_)
  have hi : splitLines.session.document.pending[1]? = some ⟨_, _⟩ := Slots.get_insert _ _ _ _
  rw [show splitLines.session.document.pending = ∅ from h, Slots.get_empty] at hi
  cases hi

theorem forsakenLines_consistent : forsakenLines.session.document.Consistent ∧
    forsakenLines.session.document.segments.length = 2 := by
  obtain ⟨hc, hl⟩ := reachable_consistent splitLines_reachable splitLines_forsaken
  exact ⟨hc, hl (by decide)⟩

end Machine

end Inlay
