import Inlay.Document.Settlement
import Inlay.Document.Task

set_option autoImplicit false

/-! # Fetching the inserts

The tasks of all inserts run side by side and send their results over one channel, from which they
are taken one at a time, until no insert is pending. Tasks of settled inserts go on all the same,
and what they send is ignored. The clock moves only to the next task that is due, when there is
nothing else to do. The wait may be given up at a horizon; the document then stays between two
phases and can only be looked at.
-/

namespace Inlay

/-- A fetch under way. -/
structure Fetching where
  document : Document
  /-- The time since the start. -/
  now : Nat := 0
  /-- The tasks that are not complete. -/
  tasks : List Task
  /-- The results sent and not taken. -/
  channel : List Settlement := []
  /-- The inserts whose work never completes. -/
  hung : List Nat := []
  /-- The inserts whose handles the host was given, in order. -/
  handed : List Nat := []

/-- How the wait for the inserts ended. -/
inductive Halt where
  /-- With no insert pending. -/
  | settled
  /-- With inserts pending, and nothing left that could send a result for them. -/
  | closed
  /-- With inserts pending that wait for ever. -/
  | endless
  /-- At the horizon. -/
  | overdue
  deriving DecidableEq, Repr

/-- A move of a fetch, or its end. -/
inductive Fetching.Progress where
  | again (f : Fetching)
  | over (halt : Halt)

namespace Fetching

/-- Complete a task. -/
def complete (f : Fetching) (t : Task) : Fetching :=
  match t.deed with
  | .send result => { f with channel := f.channel ++ [⟨t.slot, result⟩] }
  | .handOver => { f with handed := f.handed ++ [t.slot] }

/-- Make a move: take a result, or else complete the next task. -/
def move (horizon : Nat) (f : Fetching) : Progress :=
  if f.document.pending.isEmpty then .over .settled
  else
    match f.channel with
    -- what was sent is taken before anything else is sent
    | s :: rest => .again { f with document := f.document.settle s, channel := rest }
    | [] =>
      match f.tasks with
      -- work that hangs and handles of the host keep the channel open
      | [] => .over (if f.hung.isEmpty && f.handed.isEmpty then .closed else .endless)
      | t :: rest =>
        if t.beyond horizon then .over .overdue
        else .again ({ f with now := t.due, tasks := rest }.complete t)

/-- How much is left to do: a task is to be completed, and what it sends is to be taken. -/
def load (f : Fetching) : Nat := 2 * f.tasks.length + f.channel.length

theorem complete_load (f : Fetching) (t : Task) : (f.complete t).load ≤ f.load + 1 := by
  unfold complete load
  split
  · simp only [List.length_append, List.length_cons, List.length_nil]
    omega
  · exact Nat.le_succ _

theorem move_load {horizon : Nat} {f f' : Fetching} (h : f.move horizon = .again f') :
    f'.load < f.load := by
  unfold move at h
  split at h
  · cases h
  · split at h
    · rename_i hc
      rw [← Progress.again.inj h]
      simp only [load, hc, List.length_cons]
      omega
    · split at h
      · cases h
      · rename_i ht
        split at h
        · cases h
        · rw [← Progress.again.inj h]
          refine Nat.lt_of_le_of_lt (complete_load _ _) ?_
          simp only [load, ht, List.length_cons]
          omega

/-- Move on until the wait ends. -/
def run (horizon : Nat) (f : Fetching) : Fetching × Halt :=
  match _h : f.move horizon with
  | .again f' => run horizon f'
  | .over halt => (f, halt)
termination_by f.load
decreasing_by exact move_load _h

theorem move_document {horizon : Nat} {f f' : Fetching} (h : f.move horizon = .again f') :
    f'.document.hookLoad = f.document.hookLoad ∧ f'.document.phase = f.document.phase := by
  unfold move at h
  split at h
  · cases h
  · split at h
    · rw [← Progress.again.inj h]
      exact ⟨Document.settle_hookLoad _ _, Document.settle_phase _ _⟩
    · split at h
      · cases h
      · split at h
        · cases h
        · rw [← Progress.again.inj h]
          unfold complete
          split <;> exact ⟨rfl, rfl⟩

theorem run_document (horizon : Nat) (f : Fetching) :
    (f.run horizon).1.document.hookLoad = f.document.hookLoad ∧
      (f.run horizon).1.document.phase = f.document.phase := by
  fun_induction run horizon f with
  | case1 f f' h ih =>
    have hm := move_document h
    exact ⟨ih.1.trans hm.1, ih.2.trans hm.2⟩
  | case2 f halt h => exact ⟨rfl, rfl⟩

end Fetching

/-- How fetching the inserts ended. -/
inductive Fetched where
  | settled (time : Nat)
  | failed (time : Nat) (error : RenderError)
  /-- The wait was given up, or would have gone on for ever. -/
  | suspended
  deriving DecidableEq

namespace Document

/-- Begin to fetch the pending inserts. -/
def beginFetch (d : Document) (disk : Disk) : Fetching :=
  let inserts := d.pending.toList
  { document := { d with phase := .fetchingInserts }
    tasks := Task.inOrder (inserts.flatMap fun (slot, insert) =>
      insert.tasks d.options.timeout (d.loader disk) slot)
    hung := (inserts.filter fun x => x.2.hangs).map Prod.fst }

/-- Leave the phase of fetching, with no insert pending, and report those that failed. -/
def closeFetch (d : Document) (time : Nat) : Document × Fetched :=
  ({ d with phase := .fetchedAllInserts },
    if d.failed.isEmpty then .settled time else .failed time (.failedInserts d.failed))

/-- Fetch the pending inserts. The numbers are those of the inserts whose handles the host was
given. -/
def fetch (d : Document) (disk : Disk) (horizon : Nat) : Document × List Nat × Fetched :=
  match d.phase with
  | .tokenized =>
    let (f, halt) := (d.beginFetch disk).run horizon
    match halt with
    | .settled =>
      let (d, fetched) := f.document.closeFetch f.now
      (d, f.handed, fetched)
    | .closed =>
      let (d, fetched) := f.document.abandonPending.closeFetch f.now
      (d, f.handed, fetched)
    -- the phase stays between two others: what is settled is kept, and the rest stays pending
    | .endless | .overdue => (f.document, f.handed, .suspended)
  | phase => (d, [], .failed 0 (.usage (.outOfPhase .fetch phase)))

@[simp] theorem fetch_hookLoad (d : Document) (disk : Disk) (horizon : Nat) :
    (d.fetch disk horizon).1.hookLoad = d.hookLoad := by
  unfold fetch
  split
  · have h := ((d.beginFetch disk).run_document horizon).1
    dsimp only
    split
    · exact h
    · exact (abandonPending_hookLoad _).trans h
    · exact h
    · exact h
  · rfl

theorem fetch_rank {d : Document} {disk : Disk} {horizon time : Nat}
    (h : (d.fetch disk horizon).2.2 = .settled time) :
    d.phase.rank < (d.fetch disk horizon).1.phase.rank := by
  unfold fetch at h ⊢
  split
  · rename_i hp
    simp only [hp] at h ⊢
    have lt : Phase.rank .tokenized < Phase.rank .fetchedAllInserts := by decide
    split
    · exact lt
    · exact lt
    · rename_i hh
      rw [hh] at h
      cases h
    · rename_i hh
      rw [hh] at h
      cases h
  · rename_i hp
    split at h
    · exact absurd ‹_› hp
    · cases h

end Document

end Inlay
