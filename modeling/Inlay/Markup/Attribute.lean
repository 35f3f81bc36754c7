import Inlay.Markup.Entity
import Inlay.Text.Blank

set_option autoImplicit false

/-! # Attributes

The attributes of a tag: `key="value"`, `key='value'`, `key=value` or a bare `key`, which has an
empty value. Blanks may stand around the equals sign and between attributes. A key is used once.
Entities in a value are decoded.
-/

namespace Inlay

/-- What is wrong with an attribute text. -/
inductive AttributeFault where
  | nameless (near : List Char)
  | quoteInKey (key : String)
  | duplicate (key : String)
  | unterminated (key : String)
  | noValue (key : String)
  deriving DecidableEq, Repr

/-- The wording of a fault; a place in the text is shown by its first sixteen characters. -/
def AttributeFault.message : AttributeFault → String
  | .nameless near =>
    "attribute value without a name near \x60" ++ String.ofList (near.take 16) ++ "\x60"
  | .quoteInKey key => "unexpected quote in attribute name \x60" ++ key ++ "\x60"
  | .duplicate key => "duplicate attribute \"" ++ key ++ "\""
  | .unterminated key => "unterminated value for attribute \"" ++ key ++ "\""
  | .noValue key => "missing value for attribute \"" ++ key ++ "\""

/-- Whether a character is a quote. -/
def isQuote (c : Char) : Bool := c == '"' || c == '\''

theorem isQuote_cases {c : Char} (h : isQuote c) : c = '"' ∨ c = '\'' := by
  simpa [isQuote] using h

theorem isBlank_of_isQuote {c : Char} (h : isQuote c) : isBlank c = false := by
  rcases isQuote_cases h with rfl | rfl <;> decide

/-- Whether a character may stand in a key. -/
def isKeyChar (c : Char) : Bool := !isBlank c && c != '='

/-- Read the value of an attribute: the raw value and the text after it. -/
def rawValue (key : String) : List Char → Except AttributeFault (List Char × List Char)
  | [] => .error (.noValue key)
  | c :: rest =>
    if isQuote c then
      match rest.dropWhile (· != c) with
      | [] => .error (.unterminated key)
      | _ :: after => .ok (rest.takeWhile (· != c), after)
    else .ok ((c :: rest).takeWhile (!isBlank ·), (c :: rest).dropWhile (!isBlank ·))

/-- Read what follows a key: its value, empty if there is no equals sign, and the text after it. -/
def valueAfterKey (key : String) (text : List Char) :
    Except AttributeFault (List Char × List Char) :=
  match skipBlanks text with
  | '=' :: rest => rawValue key (skipBlanks rest)
  | rest => .ok ([], rest)

theorem valueAfterKey_bare (key : String) {text : List Char}
    (h : ∀ c ∈ (skipBlanks text).head?, c ≠ '=') :
    valueAfterKey key text = .ok ([], skipBlanks text) := by
  unfold valueAfterKey
  split
  · rename_i rest heq
    rw [heq] at h
    exact absurd rfl (h '=' rfl)
  · rfl

theorem rawValue_length {key : String} {text value rest : List Char}
    (h : rawValue key text = .ok (value, rest)) : rest.length ≤ text.length := by
  cases text with
  | nil => simp [rawValue] at h
  | cons c text =>
    simp only [rawValue] at h
    split at h
    · split at h
      · cases h
      · rename_i after heq
        simp only [Except.ok.injEq, Prod.mk.injEq] at h
        have hd := (List.dropWhile_sublist (l := text) (· != c)).length_le
        rw [heq, h.2, List.length_cons] at hd
        rw [List.length_cons]
        omega
    · simp only [Except.ok.injEq, Prod.mk.injEq] at h
      rw [← h.2]
      exact (List.dropWhile_sublist _).length_le

theorem valueAfterKey_length {key : String} {text value rest : List Char}
    (h : valueAfterKey key text = .ok (value, rest)) : rest.length ≤ text.length := by
  have hs := skipBlanks_length text
  unfold valueAfterKey at h
  split at h
  · rename_i r heq
    have h₁ := rawValue_length h
    have h₂ := skipBlanks_length r
    rw [heq, List.length_cons] at hs
    omega
  · simp only [Except.ok.injEq, Prod.mk.injEq] at h
    rw [← h.2]
    exact hs

/-- Read the attributes of a text, none of which may have a key in `seen`. -/
def attributesFrom (seen : List String) (source : List Char) :
    Except AttributeFault (List (String × String)) :=
  let text := skipBlanks source
  if text.isEmpty then .ok []
  else
    let letters := text.takeWhile isKeyChar
    let key := String.ofList letters
    -- the faults of the key come before those of its value
    if _hl : letters = [] then .error (.nameless text)
    else if letters.any isQuote then .error (.quoteInKey key)
    else if key ∈ seen then .error (.duplicate key)
    else
      match _hv : valueAfterKey key (text.dropWhile isKeyChar) with
      | .error fault => .error fault
      | .ok (value, rest) =>
        match attributesFrom (key :: seen) rest with
        | .error fault => .error fault
        | .ok attrs => .ok ((key, String.ofList (decodeEntities value)) :: attrs)
termination_by source.length
decreasing_by
  have h₁ := valueAfterKey_length _hv
  have h₂ : text.length ≤ source.length := skipBlanks_length source
  have h₃ : (text.takeWhile isKeyChar).length + (text.dropWhile isKeyChar).length =
      text.length := by
    rw [← List.length_append, List.takeWhile_append_dropWhile]
  have h₄ : 0 < (text.takeWhile isKeyChar).length := List.length_pos_iff.2 _hl
  omega

/-- Read the attributes of a text. -/
def attributesOf (text : List Char) : Except AttributeFault (List (String × String)) :=
  attributesFrom [] text

/-- A run of characters that cannot go on is cut off whole. -/
theorem takeWhile_dropWhile_run {p : Char → Bool} {run rest : List Char} (hrun : ∀ c ∈ run, p c)
    (hrest : ∀ c ∈ rest.head?, p c = false) :
    (run ++ rest).takeWhile p = run ∧ (run ++ rest).dropWhile p = rest := by
  rw [List.takeWhile_append_of_pos hrun, List.dropWhile_append_of_pos hrun]
  cases rest with
  | nil => exact ⟨List.append_nil _, rfl⟩
  | cons c rest =>
      have hc : ¬ p c = true := by rw [hrest c rfl]; decide
      rw [List.takeWhile_cons_of_neg hc, List.dropWhile_cons_of_neg hc, List.append_nil]
      exact ⟨rfl, rfl⟩

/-- An attribute is read, and then the rest after it. -/
theorem attributesFrom_read {seen : List String} {source letters after raw rest : List Char}
    (hs : skipBlanks source = letters ++ after) (hn : letters ≠ [])
    (hk : ∀ c ∈ letters, isKeyChar c) (hq : letters.any isQuote = false)
    (ha : ∀ c ∈ after.head?, isKeyChar c = false) (hnew : String.ofList letters ∉ seen)
    (hv : valueAfterKey (String.ofList letters) after = .ok (raw, rest)) :
    attributesFrom seen source = (attributesFrom (String.ofList letters :: seen) rest).map
      ((String.ofList letters, String.ofList (decodeEntities raw)) :: ·) := by
  obtain ⟨htake, hdrop⟩ := takeWhile_dropWhile_run hk ha
  rw [attributesFrom]
  dsimp only
  rw [hs, htake, hdrop, dif_neg hn, hq, if_neg hnew, if_neg (by simp [hn]),
    if_neg Bool.false_ne_true]
  split
  · rename_i hf
    rw [hv] at hf
    cases hf
  · rename_i hf
    rw [hv] at hf
    cases hf
    cases attributesFrom (String.ofList letters :: seen) rest <;> rfl

end Inlay
