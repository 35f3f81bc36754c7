import Inlay.Document.Basic

set_option autoImplicit false

/-! # Tasks

What is under way while inserts are fetched. All tasks are begun together. An insert has the task
of its work, which sends the result when it completes, and, if its time is limited, a timer, which
sends the failure when the time is over. Times are in milliseconds from the start.
-/

namespace Inlay

/-- What a task does when it completes. -/
inductive Deed where
  /-- It sends a result for its insert. -/
  | send (result : Delivered)
  /-- It gives the host the handle to deliver the result. -/
  | handOver

/-- A task that completes at some time. Work that is begun one turn late completes after all else
of its time. -/
structure Task where
  slot : Nat
  due : Nat
  turn : Turn
  deed : Deed

namespace Task

/-- Whether a task comes before another by time and turn. -/
def before (a b : Task) : Bool :=
  a.due < b.due || (a.due == b.due && a.turn == .first && b.turn == .second)

/-- Put a task before all in the list that do not come before it. -/
def insertInto (a : Task) : List Task → List Task
  | [] => [a]
  | b :: rest => if b.before a then b :: insertInto a rest else a :: b :: rest

/-- Tasks in the order of time and turn; those that share both keep their order. -/
def inOrder (tasks : List Task) : List Task := tasks.foldr insertInto []

theorem insertInto_perm (a : Task) (tasks : List Task) :
    (insertInto a tasks).Perm (a :: tasks) := by
  induction tasks with
  | nil => rfl
  | cons b rest ih =>
    rw [insertInto]
    split
    · exact (ih.cons b).trans (.swap a b rest)
    · rfl

theorem inOrder_perm (tasks : List Task) : (inOrder tasks).Perm tasks := by
  induction tasks with
  | nil => rfl
  | cons a tasks ih => exact (insertInto_perm a _).trans (ih.cons a)

theorem mem_insertInto {a x : Task} {tasks : List Task} :
    x ∈ insertInto a tasks ↔ x = a ∨ x ∈ tasks :=
  (insertInto_perm a tasks).mem_iff.trans List.mem_cons

theorem mem_inOrder {x : Task} {tasks : List Task} : x ∈ inOrder tasks ↔ x ∈ tasks :=
  (inOrder_perm tasks).mem_iff

theorem due_le_of_before {a b : Task} (h : b.before a = true) : b.due ≤ a.due := by
  simp only [before, Bool.or_eq_true, decide_eq_true_eq, Bool.and_eq_true, beq_iff_eq] at h
  omega

theorem due_le_of_not_before {a b : Task} (h : ¬ b.before a = true) : a.due ≤ b.due := by
  simp only [before, Bool.or_eq_true, decide_eq_true_eq] at h
  omega

/-- The next task of an ordered list is due first. -/
theorem inOrder_sorted (tasks : List Task) : (inOrder tasks).Pairwise fun a b => a.due ≤ b.due := by
  induction tasks with
  | nil => exact List.Pairwise.nil
  | cons a tasks ih =>
    show (insertInto a (inOrder tasks)).Pairwise _
    generalize inOrder tasks = sorted at ih
    induction sorted with
    | nil => simp [insertInto]
    | cons b rest ih' =>
      rw [List.pairwise_cons] at ih
      rw [insertInto]
      split
      · rename_i h
        rw [List.pairwise_cons]
        refine ⟨fun x hx => ?_, ih' ih.2⟩
        rcases mem_insertInto.mp hx with rfl | hx
        · exact due_le_of_before h
        · exact ih.1 x hx
      · rename_i h
        have hab := due_le_of_not_before h
        rw [List.pairwise_cons]
        refine ⟨fun x hx => ?_, List.pairwise_cons.mpr ih⟩
        rcases List.mem_cons.mp hx with rfl | hx
        · exact hab
        · exact Nat.le_trans hab (ih.1 x hx)

/-- Whether a task lies beyond a horizon, where the wait is given up. Work that is begun one turn
late is not waited for at the horizon itself. -/
def beyond (t : Task) (horizon : Nat) : Bool :=
  horizon < t.due || (t.due == horizon && t.turn == .second)

end Task

/-- What the work of a fetch comes to, if it settles its insert by itself: after how long, and with
what result. Work that ends without delivering comes to a failure. -/
def Work.delivery? (w : Work) (load : Path → Encoding → Except LoadError String) (label : String) :
    Option (Nat × Delivered) :=
  match w with
  | .deliver delay result => some (delay, result)
  | .load delay path encoding =>
    some (delay, (load path encoding).mapError fun e => .failed e.message)
  | .abandon delay => some (delay, .error (.abandoned label))
  | .hang | .hold => none

namespace PendingInsert

/-- How long an insert may take in a document with the given limit, if there is a limit. -/
def limit? (insert : PendingInsert) (standard : Option Nat) : Option Nat :=
  insert.fetch.deadline.resolve standard

/-- The timer of an insert, if its time is limited. -/
def timer? (insert : PendingInsert) (standard : Option Nat) (slot : Nat) : Option Task :=
  (insert.limit? standard).map fun limit =>
    ⟨slot, limit, .first, .send (.error (.timedOut insert.tag.label limit))⟩

/-- The task of the work of an insert, unless it never completes. Work that waits for a timer of its
own is begun in good time, so the turn matters only for work without a delay. -/
def work? (insert : PendingInsert) (load : Path → Encoding → Except LoadError String)
    (slot : Nat) : Option Task :=
  match insert.fetch.work with
  | .hang => none
  | .hold => some ⟨slot, 0, insert.fetch.turn, .handOver⟩
  | work => (work.delivery? load insert.tag.label).map fun (delay, result) =>
    ⟨slot, delay, if delay = 0 then insert.fetch.turn else .first, .send result⟩

/-- The tasks of an insert. -/
def tasks (insert : PendingInsert) (standard : Option Nat)
    (load : Path → Encoding → Except LoadError String) (slot : Nat) : List Task :=
  (insert.timer? standard slot).toList ++ (insert.work? load slot).toList

/-- Whether the work of an insert never completes. -/
def hangs (insert : PendingInsert) : Bool :=
  match insert.fetch.work with
  | .hang => true
  | _ => false

end PendingInsert

end Inlay
