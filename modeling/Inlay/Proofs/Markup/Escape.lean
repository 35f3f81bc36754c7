import Inlay.Proofs.Markup.Decoding

set_option autoImplicit false

/-! # Escaped values

A value is written between double quotes, so its quotes and ampersands are written as entities
(`escape`). No quote is left in it then (`escape_quoteless`), and decoding brings the value back
(`decodeEntities_escape`), as it does for every way to escape a text.
-/

namespace Inlay

/-- How an ampersand is written. -/
def ampersand : List Char := ['&', 'a', 'm', 'p', ';']

/-- A text with its ampersands and its double quotes written as entities. -/
def escape (text : List Char) : List Char :=
  text.flatMap fun c =>
    if c = '&' then ampersand else if c = '"' then ['&', 'q', 'u', 'o', 't', ';'] else [c]

/-- No double quote is left in an escaped text. -/
theorem escape_quoteless (text : List Char) : ∀ c ∈ escape text, c ≠ '"' := by
  intro c hc
  obtain ⟨a, _, hc⟩ := List.mem_flatMap.mp hc
  split at hc
  · simp only [ampersand, List.mem_cons, List.not_mem_nil, or_false] at hc
    rcases hc with rfl | rfl | rfl | rfl | rfl <;> decide
  · split at hc
    · simp only [List.mem_cons, List.not_mem_nil, or_false] at hc
      rcases hc with rfl | rfl | rfl | rfl | rfl | rfl <;> decide
    · rename_i ha
      rw [List.mem_singleton.mp hc]
      exact ha

/-- Of the characters other than the ampersand, only the double quote is escaped. -/
theorem escape_eq (text : List Char) : escape text = escapeWith (· == '"') text := by
  unfold escape escapeWith
  congr 1
  funext c
  unfold writtenWith
  by_cases ha : c = '&'
  · rw [if_pos ha, if_pos (.inl ha), ha]
    rfl
  · by_cases hq : c = '"'
    · rw [if_neg ha, if_pos hq, if_pos (.inr (beq_iff_eq.mpr hq)), hq]
      rfl
    · rw [if_neg ha, if_neg hq, if_neg (by simp [ha, hq])]

/-- Decoding undoes the escaping. -/
theorem decodeEntities_escape (text : List Char) : decodeEntities (escape text) = text := by
  rw [escape_eq, decodeEntities_escapeWith]

end Inlay
