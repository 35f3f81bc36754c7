import Mathlib.Data.List.MinMax
import Mathlib.Order.Nat
import Inlay.Proofs.Inserts.Settling

set_option autoImplicit false

/-! # Outcomes of single inserts

What an insert comes to hangs on nothing but itself and the limit of its document: on whether it
delivers before its time is over (`earliest?`). Of the tasks of an insert only one sends that
result. Every other task that sends something is due later (`tasks_earliest`).
-/

namespace Inlay

namespace PendingInsert

variable (insert : PendingInsert) (standard : Option Nat)
  (load : Path → Encoding → Except LoadError String)

/-- After how long the insert delivers by itself, and what. -/
def delivery? : Option (Nat × Delivered) := insert.fetch.work.delivery? load insert.tag.label

/-- The failure of an insert whose time was over. -/
def timeout (limit : Nat) : Delivered := .error (.timedOut insert.tag.label limit)

/-- The earliest result for an insert, and when it is there: what the insert delivers, if it does so
before its time is over, or else the failure at the end of its time. -/
def earliest? : Option (Nat × Delivered) :=
  match insert.delivery? load, insert.limit? standard with
  | some (time, result), some limit =>
    if time < limit then some (time, result) else some (limit, insert.timeout limit)
  | some (time, result), none => some (time, result)
  | none, some limit => some (limit, insert.timeout limit)
  | none, none => none

/-- What the insert comes to: the earliest result after the filter. -/
def outcome? : Option Delivered :=
  (insert.earliest? standard load).map fun e => filtered insert.fetch.filter e.2

/-- Whether it is certain what the insert comes to: it delivers or its time is limited, and it does
not deliver just when its time is over. -/
structure Decided : Prop where
  ends : insert.delivery? load = none → insert.limit? standard ≠ none
  apart : ∀ time result, insert.delivery? load = some (time, result) →
    insert.limit? standard ≠ some time

variable {insert standard load}

theorem Decided.earliest (h : insert.Decided standard load) :
    ∃ time result, insert.earliest? standard load = some (time, result) := by
  unfold earliest?
  cases hd : insert.delivery? load with
  | some e =>
      cases insert.limit? standard with
      | some limit =>
          dsimp only
          split <;> exact ⟨_, _, rfl⟩
      | none => exact ⟨_, _, rfl⟩
  | none =>
      cases hl : insert.limit? standard with
      | some limit => exact ⟨_, _, rfl⟩
      | none => exact absurd hl (h.ends hd)

/-! ## The tasks of an insert -/

theorem timer?_eq_some {slot : Nat} {x : Task} : insert.timer? standard slot = some x ↔
    ∃ limit, insert.limit? standard = some limit ∧
      ⟨slot, limit, .first, .send (insert.timeout limit)⟩ = x :=
  Option.map_eq_some_iff

/-- The task of the work sends what the insert delivers. -/
theorem work?_deliver {time : Nat} {result : Delivered} (slot : Nat)
    (h : insert.delivery? load = some (time, result)) :
    ∃ turn, insert.work? load slot = some ⟨slot, time, turn, .send result⟩ := by
  unfold delivery? at h
  unfold work?
  cases hw : insert.fetch.work with
  | hang => rw [hw] at h; cases h
  | hold => rw [hw] at h; cases h
  | deliver delay r =>
      rw [hw] at h
      dsimp only
      rw [h]
      exact ⟨_, rfl⟩
  | load delay path encoding =>
      rw [hw] at h
      dsimp only
      rw [h]
      exact ⟨_, rfl⟩
  | abandon delay =>
      rw [hw] at h
      dsimp only
      rw [h]
      exact ⟨_, rfl⟩

/-- If the insert does not deliver, its work sends nothing. -/
theorem work?_silent {slot : Nat} {x : Task} (h : insert.delivery? load = none)
    (hx : insert.work? load slot = some x) : x.slot = slot ∧ x.deed = .handOver := by
  unfold delivery? at h
  unfold work? at hx
  cases hw : insert.fetch.work with
  | hang => rw [hw] at hx; cases hx
  | hold =>
      rw [hw] at hx
      rw [← Option.some.inj hx]
      exact ⟨rfl, rfl⟩
  | deliver delay r => rw [hw] at h; cases h
  | load delay path encoding => rw [hw] at h; cases h
  | abandon delay => rw [hw] at h; cases h

theorem mem_tasks {slot : Nat} {x : Task} : x ∈ insert.tasks standard load slot ↔
    insert.timer? standard slot = some x ∨ insert.work? load slot = some x := by
  unfold tasks
  rw [List.mem_append, Option.mem_toList, Option.mem_toList]

/-- What a task of an insert may be: the timer, the work that delivers, or work that sends
nothing. -/
theorem tasks_cases {slot : Nat} {x : Task} (hx : x ∈ insert.tasks standard load slot) :
    x.slot = slot ∧
      ((∃ limit, insert.limit? standard = some limit ∧ x.due = limit ∧
          x.deed = .send (insert.timeout limit)) ∨
        (∃ time result, insert.delivery? load = some (time, result) ∧ x.due = time ∧
          x.deed = .send result) ∨
        x.deed = .handOver) := by
  rcases mem_tasks.mp hx with ht | hw
  · obtain ⟨limit, hl, rfl⟩ := timer?_eq_some.mp ht
    exact ⟨rfl, .inl ⟨limit, hl, rfl, rfl⟩⟩
  · cases hd : insert.delivery? load with
    | none =>
        obtain ⟨hs, hh⟩ := work?_silent hd hw
        exact ⟨hs, .inr (.inr hh)⟩
    | some e =>
        obtain ⟨time, result⟩ := e
        obtain ⟨turn, ht⟩ := work?_deliver slot hd
        obtain rfl : ⟨slot, time, turn, .send result⟩ = x := Option.some.inj (ht.symm.trans hw)
        exact ⟨rfl, .inr (.inl ⟨time, result, rfl, rfl, rfl⟩)⟩

/-- One task of an insert sends the earliest result. -/
theorem tasks_earliest {time : Nat} {result : Delivered} (slot : Nat)
    (h : insert.earliest? standard load = some (time, result)) :
    ∃ turn, ⟨slot, time, turn, .send result⟩ ∈ insert.tasks standard load slot := by
  have timer {limit : Nat} (hl : insert.limit? standard = some limit) :
      ∃ turn, ⟨slot, limit, turn, .send (insert.timeout limit)⟩ ∈
        insert.tasks standard load slot :=
    ⟨.first, mem_tasks.mpr (.inl (timer?_eq_some.mpr ⟨limit, hl, rfl⟩))⟩
  have work {t : Nat} {r : Delivered} (hd : insert.delivery? load = some (t, r)) :
      ∃ turn, ⟨slot, t, turn, .send r⟩ ∈ insert.tasks standard load slot := by
    obtain ⟨turn, ht⟩ := work?_deliver slot hd
    exact ⟨turn, mem_tasks.mpr (.inr ht)⟩
  unfold earliest? at h
  split at h
  · rename_i hd hl
    split at h
    · cases h
      exact work hd
    · cases h
      exact timer hl
  · rename_i hd hl
    cases h
    exact work hd
  · rename_i hd hl
    cases h
    exact timer hl
  · cases h

/-- All other results are sent later. -/
theorem tasks_later {time : Nat} {result r : Delivered} {slot : Nat} {x : Task}
    (hd : insert.Decided standard load)
    (h : insert.earliest? standard load = some (time, result))
    (hx : x ∈ insert.tasks standard load slot) (hr : x.deed = .send r) :
    x.due = time ∧ r = result ∨ time < x.due := by
  unfold earliest? at h
  rcases (tasks_cases hx).2 with ⟨limit, hl, hdue, hs⟩ | ⟨t, r', hdel, hdue, hs⟩ | hs
  · rw [hr] at hs
    cases hs
    rw [hdue]
    cases hdel : insert.delivery? load with
    | none =>
        rw [hdel, hl] at h
        cases h
        exact .inl ⟨rfl, rfl⟩
    | some e =>
        rw [hdel, hl] at h
        dsimp only at h
        split at h
        · cases h
          exact .inr ‹_›
        · cases h
          exact .inl ⟨rfl, rfl⟩
  · rw [hr] at hs
    cases hs
    rw [hdue]
    cases hl : insert.limit? standard with
    | none =>
        rw [hdel, hl] at h
        cases h
        exact .inl ⟨rfl, rfl⟩
    | some limit =>
        have hne := hd.apart t r hdel
        rw [hl] at hne
        rw [hdel, hl] at h
        dsimp only at h
        split at h
        · cases h
          exact .inl ⟨rfl, rfl⟩
        · cases h
          refine .inr (Nat.lt_of_le_of_ne (Nat.le_of_not_lt ‹_›) fun he => hne ?_)
          rw [he]
  · rw [hr] at hs
    cases hs

end PendingInsert

/-! ## The inserts of a document -/

namespace Document

variable (d : Document) (disk : Disk)

/-- The earliest result for the insert of a segment. -/
def earliest? (i : Nat) : Option (Nat × Delivered) :=
  d.pending[i]?.bind fun insert => insert.earliest? d.options.timeout (d.loader disk)

/-- Whether it is certain for all inserts what they come to. -/
def Decided : Prop := ∀ (i : Nat) (insert : PendingInsert), d.pending[i]? = some insert →
  insert.Decided d.options.timeout (d.loader disk)

/-- When the last insert has its earliest result. -/
def finish : Nat :=
  (d.pending.toList.map fun x =>
    ((x.2.earliest? d.options.timeout (d.loader disk)).map Prod.fst).getD 0).foldr max 0

variable {d disk}

theorem earliest?_eq {i : Nat} {insert : PendingInsert} (h : d.pending[i]? = some insert) :
    d.earliest? disk i = insert.earliest? d.options.timeout (d.loader disk) := by
  unfold earliest?
  rw [h]
  rfl

/-- The tasks of a fetch are those of its inserts. -/
theorem mem_beginFetch {x : Task} : x ∈ (d.beginFetch disk).tasks ↔
    ∃ (i : Nat) (insert : PendingInsert), d.pending[i]? = some insert ∧
      x ∈ insert.tasks d.options.timeout (d.loader disk) i := by
  unfold Document.beginFetch
  dsimp only
  rw [Task.mem_inOrder, List.mem_flatMap]
  constructor
  · rintro ⟨⟨i, insert⟩, hi, hx⟩
    exact ⟨i, insert, Std.ExtTreeMap.mem_toList_iff_getElem?_eq_some.mp hi, hx⟩
  · rintro ⟨i, insert, hi, hx⟩
    exact ⟨(i, insert), Std.ExtTreeMap.mem_toList_iff_getElem?_eq_some.mpr hi, hx⟩

theorem le_finish {i time : Nat} {result : Delivered}
    (h : d.earliest? disk i = some (time, result)) : time ≤ d.finish disk := by
  obtain ⟨insert, hi, he⟩ := Option.bind_eq_some_iff.mp h
  have hmem : time ∈ d.pending.toList.map fun x =>
      ((x.2.earliest? d.options.timeout (d.loader disk)).map Prod.fst).getD 0 := by
    refine List.mem_map.mpr
      ⟨(i, insert), Std.ExtTreeMap.mem_toList_iff_getElem?_eq_some.mpr hi, ?_⟩
    rw [he]
    rfl
  exact List.le_max_of_le hmem (Nat.le_refl time)

theorem finish_le {bound : Nat}
    (h : ∀ i time result, d.earliest? disk i = some (time, result) → time ≤ bound) :
    d.finish disk ≤ bound := by
  apply List.max_le_of_forall_le
  intro time ht
  obtain ⟨⟨i, insert⟩, hi, rfl⟩ := List.mem_map.mp ht
  have hi := Std.ExtTreeMap.mem_toList_iff_getElem?_eq_some.mp hi
  dsimp only
  cases he : insert.earliest? d.options.timeout (d.loader disk) with
  | none => exact Nat.zero_le _
  | some e => exact h i e.1 e.2 (by rw [earliest?_eq hi, he])

theorem Decided.earliest (hd : d.Decided disk) {i : Nat} {insert : PendingInsert}
    (h : d.pending[i]? = some insert) :
    ∃ time result, d.earliest? disk i = some (time, result) := by
  rw [earliest?_eq h]
  exact (hd i insert h).earliest

end Document

end Inlay
