import Inlay.Proofs.Inserts.Schedule

set_option autoImplicit false

/-! # The inserts do not meet

Inserts are fetched side by side, and share the clock, the channel and the tables of their document.
Yet each comes to what it would come to alone (`Document.Isolated`), whatever the others do and in
whatever order things happen that happen at one time. The fetch takes as long as the slowest insert
(`fetch_isolated`).
-/

namespace Inlay

namespace Document

/-- Whether the inserts of a document came each to its own outcome, and nothing else changed. -/
structure Isolated (d : Document) (disk : Disk) (d' : Document) : Prop where
  pending : d'.pending = ∅
  /-- The segment of an insert is the text or the failure that the insert came to. -/
  segments : ∀ (i : Nat) (insert : PendingInsert), d.pending[i]? = some insert →
    ∃ outcome, insert.outcome? d.options.timeout (d.loader disk) = some outcome ∧
      d'.segments[i]? = some (.ofResult outcome)
  /-- The inserts that failed are reported, each with its tag. -/
  failed : ∀ (i : Nat) (failure : FailedInsert), d'.failed[i]? = some failure ↔
    ∃ insert, d.pending[i]? = some insert ∧ failure.tag = insert.tag ∧
      insert.outcome? d.options.timeout (d.loader disk) = some (.error failure.error)
  others : ∀ i : Nat, d.pending[i]? = none → d'.segments[i]? = d.segments[i]?
  frame : ∃ phase segments failed, d' = { d with phase, segments, pending := ∅, failed }

end Document

namespace Underway

variable {d : Document} {disk : Disk} {ss : List Settlement} {f : Fetching}

/-- When no insert is pending, the segment of each tells its outcome, and so do the failures. -/
theorem outcome (h : Underway d disk ss f) (ht : d.Tokenized) (hd : d.Decided disk)
    (hp : f.document.pending = ∅) {i : Nat} {insert : PendingInsert}
    (hi : d.pending[i]? = some insert) :
    ∃ outcome, insert.outcome? d.options.timeout (d.loader disk) = some outcome ∧
      f.document.segments[i]? = some (.ofResult outcome) ∧
      f.document.failed[i]? = match outcome with
        | .ok _ => none
        | .error e => some ⟨insert.tag, e⟩ := by
  obtain ⟨time, result, he⟩ := hd.earliest hi
  have hr := (h.firstResult_eq hp he).1
  have hs := (Document.settleAll_settled ht hi hr).2
  rw [Document.earliest?_eq hi] at he
  refine ⟨filtered insert.fetch.filter result, ?_, ?_⟩
  · unfold PendingInsert.outcome?
    rw [he]
    rfl
  · rw [h.document]
    cases hf : filtered insert.fetch.filter result with
    | ok text =>
        rw [hf] at hs
        exact hs
    | error e =>
        rw [hf] at hs
        exact hs

/-- When no insert is pending, each has come to its own outcome. -/
theorem isolated (h : Underway d disk ss f) (ht : d.Tokenized) (hd : d.Decided disk)
    (hp : f.document.pending = ∅) : d.Isolated disk f.document where
  pending := hp
  segments i insert hi := by
    obtain ⟨outcome, ho, hs, _⟩ := h.outcome ht hd hp hi
    exact ⟨outcome, ho, hs⟩
  failed i failure := by
    constructor
    · intro hf
      cases hi : d.pending[i]? with
      | none =>
          rw [h.document] at hf
          have hn : (d.settleAll ss).failed[i]? = none :=
            (d.settleAll_unsettled (.inl hi)).2.2.trans (ht.failed_none i)
          exact absurd (hn.symm.trans hf) (by simp)
      | some insert =>
          obtain ⟨outcome, ho, _, hs⟩ := h.outcome ht hd hp hi
          rw [hs] at hf
          cases outcome with
          | ok text => cases hf
          | error e =>
              cases hf
              exact ⟨insert, rfl, rfl, ho⟩
    · rintro ⟨insert, hi, htag, ho⟩
      obtain ⟨outcome, ho', _, hs⟩ := h.outcome ht hd hp hi
      obtain rfl : outcome = .error failure.error := Option.some.inj (ho'.symm.trans ho)
      rw [hs, ← htag]
  others i hi := by
    rw [h.document]
    exact (d.settleAll_unsettled (.inl hi)).2.1
  frame := by
    obtain ⟨segments, pending, failed, hf⟩ := d.settleAll_frame ss
    have hdoc := h.document
    rw [hf] at hdoc
    rw [hdoc] at hp ⊢
    dsimp only at hp
    exact ⟨_, segments, failed, by rw [hp]⟩

end Underway

/-! ## The schedule of the program -/

namespace Fetching

/-- Whether the next task is the first in the list, and none is overdue. -/
structure Ordered (f : Fetching) : Prop where
  sorted : f.tasks.Pairwise fun a b => a.due ≤ b.due
  ahead : ∀ x ∈ f.tasks, f.now ≤ x.due

theorem Run.trans {f g g' : Fetching} {n m : Nat} (h : Run f n g) (h' : Run g m g') :
    Run f (n + m) g' := by
  induction h' with
  | start => exact h
  | step _ hs ih => exact .step ih hs

/-- No task is begun later. -/
theorem Run.tasks {f g : Fetching} {n : Nat} (h : Run f n g) : ∀ x ∈ g.tasks, x ∈ f.tasks := by
  induction h with
  | start => exact fun _ hx => hx
  | @step _ f' g hr hs ih =>
      intro x hx
      apply ih
      cases hs with
      | receive hp hc => exact hx
      | @complete before after t hp ht hd =>
          have htasks : ({ f' with tasks := before ++ after }.complete t).tasks =
              before ++ after := by
            unfold complete
            cases t.deed <;> rfl
          rw [htasks, List.mem_append] at hx
          rw [ht, List.mem_append, List.mem_cons]
          exact hx.imp_right .inr
      | wait hp hc ht hd => exact hx

theorem ordered_beginFetch (d : Document) (disk : Disk) : (d.beginFetch disk).Ordered where
  sorted := Task.inOrder_sorted _
  ahead _ _ := Nat.zero_le _

/-- A move takes one step, or two if the clock moves first. -/
theorem move_run {f f' : Fetching} {horizon : Nat} (ho : Ordered f)
    (hm : f.move horizon = .again f') : Ordered f' ∧ ∃ n, Run f n f' := by
  unfold move at hm
  split at hm
  · cases hm
  · rename_i hp
    have hp : f.document.pending ≠ ∅ := fun h => hp (by rw [h]; rfl)
    split at hm
    · rename_i s rest hc
      cases hm
      exact ⟨⟨ho.sorted, ho.ahead⟩, 1, .step .start (.receive hp hc)⟩
    · rename_i hc
      split at hm
      · cases hm
      · rename_i t rest ht
        split at hm
        · cases hm
        · cases hm
          have hsorted := ho.sorted
          rw [ht, List.pairwise_cons] at hsorted
          refine ⟨?_, ?_⟩
          · unfold complete
            split <;> exact ⟨hsorted.2, hsorted.1⟩
          · -- `hdo` completes the task once the clock stands at its time
            have hdo : Step { f with now := t.due }
                ({ f with now := t.due, tasks := rest }.complete t) :=
              @Step.complete { f with now := t.due } [] rest t hp ht (Nat.le_refl _)
            have hnow := ho.ahead t (by rw [ht]; exact List.mem_cons_self)
            rcases Nat.eq_or_lt_of_le hnow with heq | hlt
            · rw [← heq] at hdo ⊢
              exact ⟨1, .step .start hdo⟩
            · refine ⟨2, .step (.step .start (.wait hp hc ?_ fun x hx => ?_)) hdo⟩
              · rw [ht]
                exact List.mem_cons_self
              · have hle : t.due ≤ x.due := by
                  rw [ht] at hx
                  rcases List.mem_cons.mp hx with rfl | hx
                  · exact Nat.le_refl _
                  · exact hsorted.1 x hx
                exact ⟨Nat.lt_of_lt_of_le hlt hle, hle⟩

/-- The program runs a fetch by one of its schedules, until a move ends it. -/
theorem run_run (horizon : Nat) {f : Fetching} (ho : Ordered f) :
    ∃ n, Run f n (f.run horizon).1 ∧ Ordered (f.run horizon).1 ∧
      (f.run horizon).1.move horizon = .over (f.run horizon).2 := by
  fun_induction run horizon f with
  | case1 f f' hm ih =>
      obtain ⟨ho', n, hr⟩ := move_run ho hm
      obtain ⟨m, hr', hend⟩ := ih ho'
      exact ⟨n + m, hr.trans hr', hend⟩
  | case2 f halt hm => exact ⟨0, .start, ho, hm⟩

end Fetching

namespace Underway

variable {d : Document} {disk : Disk} {ss : List Settlement} {f : Fetching}

/-- Unless the wait is given up, a fetch ends with no insert pending. -/
theorem settled_of_over (h : Underway d disk ss f) (hd : d.Decided disk) (ho : f.Ordered)
    {horizon : Nat} (hh : ∀ t ∈ f.tasks, t.due ≤ d.finish disk → t.beyond horizon = false)
    {halt : Halt} (hm : f.move horizon = .over halt) :
    f.document.pending = ∅ ∧ halt = .settled := by
  unfold Fetching.move at hm
  split at hm
  · rename_i hp
    cases hm
    exact ⟨Std.ExtTreeMap.isEmpty_iff.mp hp, rfl⟩
  · -- a pending insert has a task due before the horizon, so the wait is not over
    exfalso
    rename_i hp
    have hp : f.document.pending ≠ ∅ := fun h => hp (by rw [h]; rfl)
    obtain ⟨i, insert, hi⟩ := Slots.exists_of_ne_empty hp
    split at hm
    · cases hm
    · rename_i hc
      obtain ⟨w, hw, _, hle⟩ := h.exists_task hd hc hi
      split at hm
      · rename_i ht
        rw [ht] at hw
        cases hw
      · rename_i t rest ht
        split at hm
        · rename_i hb
          have hsorted := ho.sorted
          rw [ht, List.pairwise_cons] at hsorted
          have hfirst : t.due ≤ w.due := by
            rw [ht] at hw
            rcases List.mem_cons.mp hw with rfl | hw
            · exact Nat.le_refl _
            · exact hsorted.1 w hw
          rw [hh t (by rw [ht]; exact List.mem_cons_self) (Nat.le_trans hfirst hle)] at hb
          cases hb
        · cases hm

end Underway

namespace Document

/-- Unless the wait is given up before, a fetch ends when the slowest insert has come to its
outcome, and reports the inserts that failed. -/
theorem fetch_settled {d : Document} {disk : Disk} (ht : d.Tokenized) (hd : d.Decided disk)
    {horizon : Nat} (hh : ∀ t ∈ (d.beginFetch disk).tasks, t.due ≤ d.finish disk →
      t.beyond horizon = false) : ∃ d' handed,
      d.fetch disk horizon = (d', handed,
        if d'.failed.isEmpty then .settled (d.finish disk)
        else .failed (d.finish disk) (.failedInserts d'.failed)) ∧
      d'.phase = .fetchedAllInserts ∧ d.Isolated disk d' := by
  obtain ⟨n, hr, ho, hm⟩ := Fetching.run_run horizon (Fetching.ordered_beginFetch d disk)
  obtain ⟨ss, h⟩ := (Underway.start hd).run hd hr
  obtain ⟨hp, hs⟩ := h.settled_of_over hd ho (fun t htask => hh t (hr.tasks t htask)) hm
  have hi := h.isolated ht hd hp
  refine ⟨{ ((d.beginFetch disk).run horizon).1.document with phase := .fetchedAllInserts },
    ((d.beginFetch disk).run horizon).1.handed, ?_, rfl, ?_⟩
  · unfold fetch
    rw [ht.phase]
    dsimp only
    rw [hs, ← h.now_eq hp]
    rfl
  · obtain ⟨phase, segments, failed, hf⟩ := hi.frame
    refine ⟨hi.pending, hi.segments, hi.failed, hi.others, .fetchedAllInserts, segments, failed,
      ?_⟩
    rw [hf]

theorem fetch_settles {d : Document} {disk : Disk} (ht : d.Tokenized) (hd : d.Decided disk)
    {horizon : Nat} (hh : d.finish disk < horizon) : ∃ d' handed,
      d.fetch disk horizon = (d', handed,
        if d'.failed.isEmpty then .settled (d.finish disk)
        else .failed (d.finish disk) (.failedInserts d'.failed)) ∧
      d'.phase = .fetchedAllInserts ∧ d.Isolated disk d' := by
  refine fetch_settled ht hd fun t _ hle => ?_
  have hlt : t.due < horizon := Nat.lt_of_le_of_lt hle hh
  have hne : ¬ t.due = horizon := Nat.ne_of_lt hlt
  simp [Task.beyond, Nat.not_lt_of_lt hlt, hne]

end Document

end Inlay
