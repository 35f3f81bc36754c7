import Inlay.Proofs.Session.Passage

set_option autoImplicit false

/-! # No output after a failure

A document whose source could not be split, or one of whose inserts has failed, is stuck: no change
takes it to another phase, and only its equipment and its waiting hooks can change (`Stuck.change`).
So it gives no text away and starts no hook, whatever is done with it
(`no_output_after_failure`). Once all its inserts are settled it tells of the same failures each
time that it is asked to go on.
-/

namespace Inlay

open Relation (ReflTransGen)

theorem Phase.between (p : Phase) : ¬ p < .tokenized → p ≠ .tokenized → ¬ .segmentsMerged ≤ p →
    p = .fetchingInserts ∨ p = .fetchedAllInserts := by
  cases p <;> decide

namespace Document

/-- Whether a document cannot get any further. -/
def Stuck (d : Document) : Prop :=
  d.phase = .tokenizing ∨ d.phase = .fetchingInserts ∨
    d.phase = .fetchedAllInserts ∧ d.failed ≠ ∅

/-- Whether two documents differ in nothing but their equipment and their waiting hooks. -/
structure Frozen (d d' : Document) : Prop where
  phase : d'.phase = d.phase
  segments : d'.segments = d.segments
  pending : d'.pending = d.pending
  failed : d'.failed = d.failed
  merged : d'.merged = d.merged
  started : d'.started = d.started

theorem Frozen.refl (d : Document) : Frozen d d := ⟨rfl, rfl, rfl, rfl, rfl, rfl⟩

theorem Frozen.trans {d d' d'' : Document} (h : Frozen d d') (h' : Frozen d' d'') :
    Frozen d d'' where
  phase := h'.phase.trans h.phase
  segments := h'.segments.trans h.segments
  pending := h'.pending.trans h.pending
  failed := h'.failed.trans h.failed
  merged := h'.merged.trans h.merged
  started := h'.started.trans h.started

theorem Stuck.frozen {d d' : Document} (h : d.Stuck) (hf : Frozen d d') : d'.Stuck := by
  unfold Stuck
  rw [hf.phase, hf.failed]
  exact h

/-! ## What gets a document stuck -/

theorem stuck_of_tag {s s' : Session} {e : TagError} (h : s.tokenize = (s', .failed (.tag e))) :
    s'.document.phase = .tokenizing := by
  rcases Session.tokenize_failed h with ⟨-, hp, -⟩ | ⟨-, -, u, he⟩
  · exact hp
  · cases he

/-- Inserts fail in two phases only. -/
theorem Consistent.phase_of_failed {d : Document} (h : d.Consistent) (hf : d.failed ≠ ∅) :
    d.phase = .fetchingInserts ∨ d.phase = .fetchedAllInserts :=
  Phase.between d.phase (fun hp => hf (h.blank hp).2.2) (fun hp => hf (h.untried hp))
    fun hp => hf (h.complete hp).2

theorem Consistent.stuck_of_failed {d : Document} (h : d.Consistent) (hf : d.failed ≠ ∅) :
    d.Stuck := by
  rcases h.phase_of_failed hf with hp | hp
  · exact .inr (.inl hp)
  · exact .inr (.inr ⟨hp, hf⟩)

/-! ## A document that is stuck stays so -/

/-- The phases in which a document is stuck. -/
theorem Stuck.phase {d : Document} (h : d.Stuck) {p : Phase} (hp : d.phase = p) :
    p = .tokenizing ∨ p = .fetchingInserts ∨ p = .fetchedAllInserts := by
  rcases h with h | h | ⟨h, -⟩
  · exact .inl (hp.symm.trans h)
  · exact .inr (.inl (hp.symm.trans h))
  · exact .inr (.inr (hp.symm.trans h))

/-- No operation has an effect. -/
theorem Stuck.not_act {d d' : Document} (h : d.Stuck) (hd : d.Accounted) : ¬ Act d d' := by
  intro ha
  cases ha with
  | install text hp =>
      rcases h.phase rfl with h | h | h
      · exact absurd (h ▸ hp) (by decide)
      · exact absurd (h ▸ hp) (by decide)
      · exact absurd (h ▸ hp) (by decide)
  | tokenize hp ht => exact absurd (h.phase hp) (by decide)
  | misread hp => exact absurd (h.phase hp) (by decide)
  | settle ss hp hs => exact absurd (h.phase hp) (by decide)
  | forsake ss hp hs => exact absurd (h.phase hp) (by decide)
  | merge hp hj =>
      -- segments that can be joined leave no room for a failure
      rcases h with h | h | ⟨-, hf⟩
      · cases hp.symm.trans h
      · cases hp.symm.trans h
      · exact hf (hd.unfailed (texts_of_joinSegments hj))
  | replace text hp =>
      rcases hp with hp | hp
      · exact absurd (h.phase hp) (by decide)
      · exact absurd (h.phase hp) (by decide)

theorem Stuck.change {d d' : Document} (h : d.Stuck) (hd : d.Accounted) (hc : Change d d') :
    Frozen d d' := by
  cases hc with
  | act ha => exact absurd ha (h.not_act hd)
  | load text hp => exact absurd (h.phase hp) (by decide)
  | release hp => exact absurd (h.phase hp) (by decide)
  | start hp hn => exact absurd (h.phase hp) (by decide)
  | finish hp hn => exact absurd (h.phase hp) (by decide)
  | enqueue queue script => cases queue <;> exact ⟨rfl, rfl, rfl, rfl, rfl, rfl⟩
  | equip filename options registry bindings loader => exact ⟨rfl, rfl, rfl, rfl, rfl, rfl⟩

theorem Stuck.changes {d d' : Document} (h : d.Stuck) (hd : d.Consistent)
    (hc : ReflTransGen Change d d') : Frozen d d' := by
  induction hc with
  | refl => exact .refl d
  | tail hc hc' ih => exact ih.trans ((h.frozen ih).change (hd.changes hc).toAccounted hc')

/-! ## What a document that is stuck answers -/

theorem Stuck.phase_le {d : Document} (h : d.Stuck) : d.phase ≤ .fetchedAllInserts := by
  rcases h with h | h | ⟨h, -⟩
  · rw [h]
    decide
  · rw [h]
    decide
  · rw [h]
    decide

theorem Stuck.text_eq {d : Document} (h : d.Stuck) (hd : d.Consistent) :
    d.text = .error (.notRendered d.phase) := by
  have hm := hd.unmerged (Nat.lt_succ_of_le h.phase_le)
  unfold text
  rw [Option.isNone_iff_eq_none.mp (Option.isSome_eq_false_iff.mp hm)]

/-- The first segment that has failed stops the join. -/
theorem joinSegments_failed {segments : List Segment} {i : Nat} {e : FetchError} (slot : Nat)
    (hi : segments[i]? = some (.failed e)) (ht : ∀ j < i, ∃ s, segments[j]? = some (.text s)) :
    joinSegments slot segments = .error (.merge (slot + i) (.failed e)) := by
  induction segments generalizing slot i with
  | nil => cases hi
  | cons segment segments ih =>
      cases i with
      | zero =>
          cases hi
          rfl
      | succ i =>
          obtain ⟨s, hs⟩ := ht 0 (Nat.zero_lt_succ i)
          cases hs
          have h := ih (slot + 1) hi fun j hj => ht (j + 1) (Nat.succ_lt_succ hj)
          rw [joinSegments, h, Nat.add_right_comm]
          rfl

/-- The merge stops at the first insert that has failed. -/
theorem Accounted.joinSegments_eq {d : Document} (h : d.Accounted) (hp : d.pending = ∅)
    {i : Nat} {failure : FailedInsert} (hi : d.failed[i]? = some failure)
    (hj : ∀ j < i, d.failed[j]? = none) :
    joinSegments 0 d.segments = .error (.merge i (.failed failure.error)) := by
  have hs := (h.failed_iff i failure.error).mpr (by rw [hi]; rfl)
  rw [joinSegments_failed 0 hs ?_, Nat.zero_add]
  intro j hlt
  obtain ⟨hl, -⟩ := List.getElem?_eq_some_iff.mp hs
  have hsj := List.getElem?_eq_getElem (Nat.lt_trans hlt hl)
  cases hseg : d.segments[j] with
  | text s => exact ⟨s, hseg ▸ hsj⟩
  | pending => exact absurd (List.mem_of_getElem? (hseg ▸ hsj)) (h.pending_not_mem hp)
  | failed e =>
      have hfailed := (h.failed_iff j e).mp (hseg ▸ hsj)
      rw [hj j hlt] at hfailed
      cases hfailed

/-- Among the inserts that have failed there is a first one. -/
theorem exists_first_failed {d : Document} (h : d.failed ≠ ∅) :
    ∃ (i : Nat) (failure : FailedInsert), d.failed[i]? = some failure ∧
      ∀ j < i, d.failed[j]? = none := by
  obtain ⟨i, failure, hi⟩ := Slots.exists_of_ne_empty h
  induction i using Nat.strongRecOn generalizing failure with
  | ind i ih =>
      by_cases hj : ∀ j < i, d.failed[j]? = none
      · exact ⟨i, failure, hi, hj⟩
      · obtain ⟨j, hj⟩ := Classical.not_forall.mp hj
        obtain ⟨hlt, hne⟩ := Classical.not_imp.mp hj
        obtain ⟨failure', hf⟩ := Option.ne_none_iff_exists'.mp hne
        exact ih j hlt failure' hf

end Document

namespace Session

/-- Whether tokenizing ended in the error of a tag, and left this session. -/
def Misread (s : Session) : Prop := ∃ (s₀ : Session) (e : TagError),
  s₀.tokenize = (s, .failed (.tag e))

/-- Whether a session gives no text away. -/
structure Withholds (s : Session) : Prop where
  text : s.document.text = .error (.notRendered s.document.phase)
  save : ∀ path, s.save path = (s, .failed (.usage (.notRendered s.document.phase)))

/-- Whether a session answers everything that would take it on by the failures of its inserts, and
stays as it is. -/
structure Protests (s : Session) : Prop where
  render : ∀ horizon, s.render horizon = (s, .failed (.failedInserts s.document.failed))
  step : ∀ horizon, s.step horizon = (s, .failed (.failedInserts s.document.failed))
  merge : ∃ (i : Nat) (failure : FailedInsert), s.document.failed[i]? = some failure ∧
    (∀ j < i, s.document.failed[j]? = none) ∧
    s.merge = (s, .failed (.merge i (.failed failure.error)))

variable {s : Session}

theorem withholds_of_stuck (h : s.document.Stuck) (hd : s.document.Consistent) : s.Withholds where
  text := h.text_eq hd
  save path := by
    unfold save
    rw [h.text_eq hd]

theorem advance_failed (horizon : Nat) (hp : s.document.phase = .fetchedAllInserts)
    (hf : s.document.failed ≠ ∅) :
    s.advance horizon = (s, .failed (.failedInserts s.document.failed)) := by
  unfold advance
  dsimp only
  rw [hp]
  dsimp only
  rw [if_neg (mt Std.ExtTreeMap.isEmpty_iff.mp hf)]

theorem protests_of_failed (hd : s.document.Consistent) (hp : s.document.phase = .fetchedAllInserts)
    (hf : s.document.failed ≠ ∅) : s.Protests where
  render horizon := by
    apply Machine.run_halt
    unfold Machine.move
    dsimp only
    rw [advance_failed horizon hp hf]
    rfl
  step horizon := by
    apply Machine.run_halt
    unfold Machine.move
    dsimp only
    rw [advance_failed horizon hp hf]
    rfl
  merge := by
    obtain ⟨i, failure, hi, hj⟩ := Document.exists_first_failed hf
    have hempty := hd.settled (by rw [hp]; decide)
    refine ⟨i, failure, hi, hj, ?_⟩
    unfold merge Document.merge
    rw [hp]
    dsimp only
    rw [hd.joinSegments_eq hempty hi hj]
    rfl

end Session

namespace Machine

/-- **A document that has failed gives no output.** Whatever is done after a tag could not be
handled, or after an insert has failed, the text is withheld, no hook is started and the phase is
not passed. Once all inserts are settled, their failures are all that is told. -/
theorem no_output_after_failure {m m' : Machine} (h : m.Reachable)
    (hf : m.session.Misread ∨ m.session.document.failed ≠ ∅) (hr : m.Reaches m') :
    m'.session.Withholds ∧ m'.session.document.started = m.session.document.started ∧
      (m.session.Misread → m'.session.document.phase = .tokenizing) ∧
      (m.session.document.failed ≠ ∅ →
        m'.session.document.phase ≤ .fetchedAllInserts ∧
        m'.session.document.failed = m.session.document.failed ∧
        (m'.session.document.phase = .fetchedAllInserts → m'.session.Protests)) := by
  have hd := h.consistent
  have hd' := (h.reaches hr).consistent
  have htag : m.session.Misread → m.session.document.phase = .tokenizing :=
    fun ⟨_, _, ht⟩ => Document.stuck_of_tag ht
  have hs : m.session.document.Stuck := hf.elim (.inl ∘ htag) hd.stuck_of_failed
  have hfr := hs.changes hd hr.changes
  have hs' := hs.frozen hfr
  refine ⟨Session.withholds_of_stuck hs' hd', hfr.started, fun ht => ?_, fun hne => ?_⟩
  · rw [hfr.phase, htag ht]
  · refine ⟨hs'.phase_le, hfr.failed, fun hp => ?_⟩
    exact Session.protests_of_failed hd' hp (hfr.failed ▸ hne)

/-- The machine of the document of two lines when its insert has failed. -/
def failedLines : Machine where
  stack := []
  session := { splitLines.session with document :=
    { splitLines.session.document.settleAll [⟨1, .error (.failed "gone")⟩] with
      phase := .fetchedAllInserts } }

/-- The machine when a hook is queued after the failure. -/
def queuedLate : Machine where
  stack := []
  session := { failedLines.session with
    document := failedLines.session.document.enqueue .post [] }

theorem splitLines_pending (i : Nat) : splitLines.session.document.pending[i]? =
    if 1 = i then some ⟨⟨"b", none, [], ⟨2, 1⟩, "<b>"⟩, { work := .hang }⟩ else none :=
  (Slots.get_insert _ _ _ _).trans (by rw [Slots.get_empty])

theorem failedLines_reachable : failedLines.Reachable := by
  refine splitLines_reachable.reaches (.single (.settle _ rfl ?_))
  refine Document.settleAll_pending_empty fun i insert hi => ⟨_, List.mem_singleton_self _, ?_⟩
  rw [splitLines_pending] at hi
  split at hi
  · assumption
  · cases hi

theorem failedLines_failed : failedLines.session.document.failed ≠ ∅ := by
  intro h
  have hf := splitLines.session.document.settleAll_failed [⟨1, .error (.failed "gone")⟩] 1
  rw [Document.settled?_eq (splitLines_pending 1) rfl, filtered_error,
    show (splitLines.session.document.settleAll _).failed = ∅ from h, Slots.get_empty] at hf
  cases hf

/-- The hook that was queued is not started. -/
theorem queuedLate_withheld : queuedLate.session.Withholds ∧
    queuedLate.session.document.started = failedLines.session.document.started ∧
    queuedLate.session.Protests := by
  obtain ⟨hw, hs, -, hp⟩ := no_output_after_failure failedLines_reachable
    (.inr failedLines_failed) (.single (.enqueue .post []))
  exact ⟨hw, hs, (hp failedLines_failed).2.2 rfl⟩

end Machine

end Inlay
