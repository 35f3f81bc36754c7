import Inlay.Proofs.Inserts.Outcome

set_option autoImplicit false

/-! # Schedules of a fetch

While inserts are fetched there may be a choice of what happens next: several tasks can be due at
one time, and results wait while tasks complete. `Fetching.Step` allows all of it. The clock moves
only when nothing else can happen. Whatever the order, the first result for each insert is its
earliest one (`Underway`). So no schedule gets stuck (`Underway.exists_step`), each is bounded
(`Step.effort`), and all of them end alike (`Underway.now_eq`).
-/

namespace Inlay

namespace Fetching

/-- A step of a fetch while inserts are pending: a result is taken, a task that is due completes, or
the clock moves to the next task, when no result is there and no task is due. -/
inductive Step (f : Fetching) : Fetching → Prop where
  | receive {s : Settlement} {rest : List Settlement} (hp : f.document.pending ≠ ∅)
    (hc : f.channel = s :: rest) :
    Step f { f with document := f.document.settle s, channel := rest }
  | complete {before after : List Task} {t : Task} (hp : f.document.pending ≠ ∅)
    (ht : f.tasks = before ++ t :: after) (hd : t.due ≤ f.now) :
    Step f ({ f with tasks := before ++ after }.complete t)
  | wait {t : Task} (hp : f.document.pending ≠ ∅) (hc : f.channel = []) (ht : t ∈ f.tasks)
    (hd : ∀ x ∈ f.tasks, f.now < x.due ∧ t.due ≤ x.due) : Step f { f with now := t.due }

/-- Some steps of a fetch. -/
inductive Run (f : Fetching) : Nat → Fetching → Prop where
  | start : Run f 0 f
  | step {n : Nat} {g g' : Fetching} (h : Run f n g) (hs : Step g g') : Run f (n + 1) g'

/-! ## Every schedule is bounded -/

/-- How much is left to do, where waiting for the next task counts too. -/
def effort (f : Fetching) : Nat := 2 * f.load + if f.tasks.any (·.due ≤ f.now) then 0 else 1

theorem effort_le (f : Fetching) : f.effort ≤ 2 * f.load + 1 := by
  unfold effort
  split <;> omega

theorem Step.effort {f f' : Fetching} (h : Step f f') : f'.effort < f.effort := by
  cases h with
  | receive hp hc =>
      unfold Fetching.effort load
      rw [hc]
      dsimp only
      rw [List.length_cons]
      omega
  | complete hp ht hd =>
      rename_i before after t
      refine Nat.lt_of_le_of_lt (effort_le _) ?_
      have hl := complete_load { f with tasks := before ++ after } t
      unfold Fetching.effort load
      unfold load at hl
      rw [ht]
      simp only [List.length_append, List.length_cons] at hl ⊢
      omega
  | wait hp hc ht hd =>
      unfold Fetching.effort load
      rw [if_pos (List.any_eq_true.mpr ⟨_, ht, by simp⟩), if_neg ?_]
      · exact Nat.lt_succ_self _
      · rw [List.any_eq_true]
        rintro ⟨x, hx, hle⟩
        have := (hd x hx).1
        simp only [decide_eq_true_eq] at hle
        omega

theorem Run.effort {f f' : Fetching} {n : Nat} (h : Run f n f') : n + f'.effort ≤ f.effort := by
  induction h with
  | start => exact Nat.le_of_eq (Nat.zero_add _)
  | step h hs ih =>
      have := hs.effort
      omega

end Fetching

/-! ## What every step preserves -/

/-- A fetch of a document under way, when some results were taken. Each insert has its earliest
result as its first one, or has none yet and the task that will send it. -/
structure Underway (d : Document) (disk : Disk) (ss : List Settlement) (f : Fetching) : Prop where
  document : f.document = { d.settleAll ss with phase := .fetchingInserts }
  results : ∀ i time result, d.earliest? disk i = some (time, result) →
    firstResult (ss ++ f.channel) i = some result ∧ time ≤ f.now ∨
      firstResult (ss ++ f.channel) i = none ∧ f.now ≤ time ∧
        ∃ turn, ⟨i, time, turn, .send result⟩ ∈ f.tasks
  tasks : ∀ x ∈ f.tasks, ∀ r, x.deed = .send r → ∃ time result,
    d.earliest? disk x.slot = some (time, result) ∧ (x.due = time ∧ r = result ∨ time < x.due)
  clock : f.now ≤ d.finish disk

namespace Underway

variable {d : Document} {disk : Disk} {ss : List Settlement} {f : Fetching}

/-- An insert that is pending has no result that was taken. -/
theorem open_of_pending (h : Underway d disk ss f) {i : Nat} {insert : PendingInsert}
    (hi : f.document.pending[i]? = some insert) :
    d.pending[i]? = some insert ∧ firstResult ss i = none := by
  rw [h.document] at hi
  dsimp only at hi
  rw [Document.settleAll_pending] at hi
  unfold Document.settled? at hi
  cases hp : d.pending[i]? with
  | none =>
      rw [hp] at hi
      cases hi
  | some insert' =>
      rw [hp] at hi
      cases hr : firstResult ss i with
      | none =>
          rw [hr] at hi
          exact ⟨hi, rfl⟩
      | some result =>
          rw [hr] at hi
          cases hi

/-- If no result is there, a pending insert has the task that will send its earliest result. -/
theorem exists_task (h : Underway d disk ss f) (hd : d.Decided disk) (hc : f.channel = [])
    {i : Nat} {insert : PendingInsert} (hi : f.document.pending[i]? = some insert) :
    ∃ t ∈ f.tasks, f.now ≤ t.due ∧ t.due ≤ d.finish disk := by
  obtain ⟨hp, hr⟩ := h.open_of_pending hi
  obtain ⟨time, result, he⟩ := hd.earliest hp
  rcases h.results i time result he with ⟨hs, _⟩ | ⟨_, hn, turn, ht⟩
  · rw [hc, List.append_nil, hr] at hs
    cases hs
  · exact ⟨_, ht, hn, Document.le_finish he⟩

/-- So a fetch begins. -/
theorem start (hd : d.Decided disk) : Underway d disk [] (d.beginFetch disk) where
  document := rfl
  results i time result he := by
    obtain ⟨insert, hi, hr⟩ := Option.bind_eq_some_iff.mp he
    obtain ⟨turn, ht⟩ := PendingInsert.tasks_earliest i hr
    exact .inr ⟨rfl, Nat.zero_le _, turn, Document.mem_beginFetch.mpr ⟨i, insert, hi, ht⟩⟩
  tasks x hx r hr := by
    obtain ⟨i, insert, hi, ht⟩ := Document.mem_beginFetch.mp hx
    obtain ⟨time, result, he⟩ := hd.earliest hi
    refine ⟨time, result, ?_, ?_⟩
    · rw [(PendingInsert.tasks_cases ht).1]
      exact he
    · rw [Document.earliest?_eq hi] at he
      exact PendingInsert.tasks_later (hd i insert hi) he ht hr
  clock := Nat.zero_le _

/-! ## One step -/

theorem receive (h : Underway d disk ss f) {s : Settlement} {rest : List Settlement}
    (hc : f.channel = s :: rest) :
    Underway d disk (ss ++ [s]) { f with document := f.document.settle s, channel := rest } where
  document := by
    dsimp only
    rw [h.document, Document.settle_withPhase, Document.settleAll_append]
    rfl
  results i time result he := by
    have hr := h.results i time result he
    rw [hc] at hr
    rw [List.append_assoc]
    exact hr
  tasks := h.tasks
  clock := h.clock

/-- A task that is due sends the earliest result of its insert, or one that comes after it. -/
theorem complete (h : Underway d disk ss f) {before after : List Task} {t : Task}
    (ht : f.tasks = before ++ t :: after) (hd : t.due ≤ f.now) :
    Underway d disk ss ({ f with tasks := before ++ after }.complete t) := by
  have hmem {x : Task} (hx : x ∈ f.tasks) (hne : x ≠ t) : x ∈ before ++ after := by
    rw [ht, List.mem_append, List.mem_cons] at hx
    rw [List.mem_append]
    exact hx.imp_right fun hx => hx.resolve_left hne
  have hsub : ∀ x ∈ before ++ after, x ∈ f.tasks := by
    intro x hx
    rw [ht, List.mem_append, List.mem_cons]
    exact (List.mem_append.mp hx).imp_right .inr
  unfold Fetching.complete
  split
  · -- a result is sent: it is the earliest of its insert, or that one is there already
    rename_i r hr
    refine ⟨h.document, fun i time result he => ?_, fun x hx => h.tasks x (hsub x hx), h.clock⟩
    dsimp only
    rw [← List.append_assoc, firstResult_append, firstResult_cons, firstResult_nil]
    rcases h.results i time result he with ⟨hs, hle⟩ | ⟨hs, hle, turn, hw⟩
    · rw [hs]
      exact .inl ⟨rfl, hle⟩
    · rw [hs]
      by_cases hi : t.slot = i
      · left
        obtain ⟨time', result', he', hlate⟩ := h.tasks t (by rw [ht]; simp) r hr
        rw [hi, he] at he'
        cases he'
        rcases hlate with ⟨rfl, rfl⟩ | hlt
        · rw [if_pos hi]
          exact ⟨rfl, hd⟩
        · exact absurd (Nat.le_trans hd hle) (Nat.not_le_of_lt hlt)
      · right
        rw [if_neg hi]
        refine ⟨rfl, hle, turn, hmem hw fun heq => hi ?_⟩
        rw [← heq]
  · -- no result is sent, and the task that will send one is another
    rename_i hr
    refine ⟨h.document, fun i time result he => ?_, fun x hx => h.tasks x (hsub x hx), h.clock⟩
    refine (h.results i time result he).imp_right fun ⟨hs, hle, turn, hw⟩ => ?_
    refine ⟨hs, hle, turn, hmem hw fun heq => ?_⟩
    rw [← heq] at hr
    cases hr

theorem wait (h : Underway d disk ss f) (hdec : d.Decided disk) {t : Task}
    (hp : f.document.pending ≠ ∅) (hc : f.channel = [])
    (hd : ∀ x ∈ f.tasks, f.now < x.due ∧ t.due ≤ x.due) (ht : t ∈ f.tasks) :
    Underway d disk ss { f with now := t.due } where
  document := h.document
  results i time result he := by
    rcases h.results i time result he with ⟨hs, hle⟩ | ⟨hs, _, turn, hw⟩
    · exact .inl ⟨hs, Nat.le_trans hle (Nat.le_of_lt (hd t ht).1)⟩
    · exact .inr ⟨hs, (hd _ hw).2, turn, hw⟩
  tasks := h.tasks
  clock := by
    -- the clock moves no further than to the task of an insert that is pending
    obtain ⟨i, insert, hi⟩ := Slots.exists_of_ne_empty hp
    obtain ⟨w, hw, _, hle⟩ := h.exists_task hdec hc hi
    exact Nat.le_trans (hd w hw).2 hle

theorem step (h : Underway d disk ss f) (hd : d.Decided disk) {f' : Fetching}
    (hs : Fetching.Step f f') : ∃ ss', Underway d disk ss' f' := by
  cases hs with
  | receive _ hc => exact ⟨_, h.receive hc⟩
  | complete _ ht hdue => exact ⟨ss, h.complete ht hdue⟩
  | wait hp hc ht hdue => exact ⟨ss, h.wait hd hp hc hdue ht⟩

theorem run (h : Underway d disk ss f) (hd : d.Decided disk) {n : Nat} {f' : Fetching}
    (hr : Fetching.Run f n f') : ∃ ss', Underway d disk ss' f' := by
  induction hr with
  | start => exact ⟨ss, h⟩
  | step _ hs ih =>
      obtain ⟨ss', h'⟩ := ih
      exact h'.step hd hs

/-! ## No schedule gets stuck -/

/-- When no insert is pending, the first result taken for each insert is its earliest one. -/
theorem firstResult_eq (h : Underway d disk ss f) (hp : f.document.pending = ∅) {i time : Nat}
    {result : Delivered} (he : d.earliest? disk i = some (time, result)) :
    firstResult ss i = some result ∧ time ≤ f.now := by
  obtain ⟨insert, hi, _⟩ := Option.bind_eq_some_iff.mp he
  cases hr : firstResult ss i with
  | none =>
      have hn : f.document.pending[i]? = some insert := by
        rw [h.document]
        exact (d.settleAll_unsettled (.inr hr)).1.trans hi
      rw [hp, Slots.get_empty] at hn
      cases hn
  | some r =>
      have hs := h.results i time result he
      rw [firstResult_append, hr] at hs
      rcases hs with ⟨hs, hle⟩ | ⟨hs, _⟩
      · exact ⟨hs, hle⟩
      · cases hs

/-- A fetch ends at the time of the last earliest result. -/
theorem now_eq (h : Underway d disk ss f) (hp : f.document.pending = ∅) :
    f.now = d.finish disk := by
  refine Nat.le_antisymm h.clock (Document.finish_le fun i time result he => ?_)
  exact (h.firstResult_eq hp he).2

end Underway

end Inlay
