import Std.Data.ExtTreeMap.Lemmas

set_option autoImplicit false

/-! # Slots

Values by the number of the segment that they belong to, in the order of the segments. Two tables
with the same entries are equal.
-/

namespace Inlay

/-- Values by the number of a segment. -/
abbrev Slots (α : Type) := Std.ExtTreeMap Nat α

namespace Slots

variable {α : Type}

@[simp] theorem get_insert (t : Slots α) (i j : Nat) (a : α) :
    (t.insert i a)[j]? = if i = j then some a else t[j]? := by
  rw [Std.ExtTreeMap.getElem?_insert]
  simp

@[simp] theorem get_erase (t : Slots α) (i j : Nat) :
    (t.erase i)[j]? = if i = j then none else t[j]? := by
  rw [Std.ExtTreeMap.getElem?_erase]
  simp

@[simp] theorem get_empty (i : Nat) : (∅ : Slots α)[i]? = none := Std.ExtTreeMap.getElem?_empty

theorem ne_empty {t : Slots α} {i : Nat} {a : α} (h : t[i]? = some a) : t ≠ ∅ := by
  rintro rfl
  rw [get_empty] at h
  cases h

theorem exists_of_ne_empty {t : Slots α} (h : t ≠ ∅) : ∃ (i : Nat) (a : α), t[i]? = some a := by
  apply Classical.byContradiction
  intro hn
  apply h
  apply Std.ExtTreeMap.ext_getElem?
  intro i
  rw [get_empty]
  cases hi : t[i]? with
  | none => rfl
  | some a => exact absurd ⟨i, a, hi⟩ hn

end Slots

end Inlay
