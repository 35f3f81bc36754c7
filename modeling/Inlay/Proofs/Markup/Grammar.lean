import Inlay.Markup.Attribute

set_option autoImplicit false

/-! # The grammar of attributes

An attribute text begins with blanks, and then attributes stand one after another, each with the
blanks that follow it (`Spelling`). An attribute is a bare key, or a key with an equals sign and a
value, which is enclosed in quotes or is a word. A word ends at the first blank, so that a quote
within it is one of its characters. What the reader accepts is spelled in this way, with the keys
and the values that it answers (`exists_spelling`).
-/

namespace Inlay

/-! ## Attributes as they are written -/

/-- Whether a text holds nothing but blanks. -/
def Blank (text : List Char) : Prop := ∀ c ∈ text, isBlank c

/-- How the value of an attribute is written. -/
inductive ValueForm where
  /-- There is no value. -/
  | bare
  /-- The value stands between two quotes of one kind. -/
  | quoted (quote : Char) (raw : List Char)
  | word (raw : List Char)

/-- An attribute as it is written. -/
structure AttributeForm where
  key : List Char
  value : ValueForm
  /-- The blanks on both sides of the equals sign. -/
  before : List Char
  after : List Char
  /-- The blanks that follow the attribute. -/
  trailing : List Char

namespace ValueForm

/-- The value with its entities. -/
def raw : ValueForm → List Char
  | bare => []
  | quoted _ raw => raw
  | word raw => raw

/-- What follows the equals sign and its blanks. -/
def written : ValueForm → List Char
  | bare => []
  | quoted quote raw => quote :: raw ++ [quote]
  | word raw => raw

/-- Whether a value may be written: the quote does not occur between the quotes, and a word is not
empty, holds no blank and does not begin with a quote. -/
def WellFormed : ValueForm → Prop
  | bare => True
  | quoted quote raw => isQuote quote ∧ quote ∉ raw
  | word raw => raw ≠ [] ∧ (∀ c ∈ raw, isBlank c = false) ∧ ∀ c ∈ raw.head?, isQuote c = false

end ValueForm

namespace AttributeForm

/-- The key and the value that is read. -/
def pair (f : AttributeForm) : String × String :=
  (String.ofList f.key, String.ofList (decodeEntities f.value.raw))

/-- How the attribute is written, with the blanks that follow it. -/
def written (f : AttributeForm) : List Char :=
  match f.value with
  | .bare => f.key ++ f.trailing
  | value => f.key ++ (f.before ++ '=' :: (f.after ++ value.written)) ++ f.trailing

/-- Whether an attribute may be written: the key is not empty and holds no blank, equals sign or
quote. -/
structure WellFormed (f : AttributeForm) : Prop where
  named : f.key ≠ []
  key : ∀ c ∈ f.key, isKeyChar c
  quoteless : f.key.any isQuote = false
  value : f.value.WellFormed
  before : Blank f.before
  after : Blank f.after
  trailing : Blank f.trailing

/-- Whether the attribute ends where `rest` begins: a bare key or a word goes on to the next
blank. -/
def Parted (f : AttributeForm) (rest : List Char) : Prop :=
  match f.value with
  | .quoted _ _ => True
  | _ => f.trailing = [] → rest = []

end AttributeForm

/-- Whether a text consists of attributes as they are written. -/
inductive Spelling : List Char → List AttributeForm → Prop where
  | nil : Spelling [] []
  | cons {f : AttributeForm} {rest : List Char} {forms : List AttributeForm} (hf : f.WellFormed)
    (hp : f.Parted rest) (h : Spelling rest forms) : Spelling (f.written ++ rest) (f :: forms)

/-! ## What is read -/

theorem blank_append {a b : List Char} (ha : Blank a) (hb : Blank b) : Blank (a ++ b) := by
  intro c hc
  exact (List.mem_append.mp hc).elim (ha c) (hb c)

/-- A text is some blanks with a text after them that begins with none. -/
theorem exists_skipBlanks (text : List Char) :
    ∃ blanks, Blank blanks ∧ text = blanks ++ skipBlanks text :=
  ⟨text.takeWhile isBlank, List.all_eq_true.mp List.all_takeWhile,
    List.takeWhile_append_dropWhile.symm⟩

theorem head?_skipBlanks {text : List Char} : ∀ c ∈ (skipBlanks text).head?, isBlank c = false := by
  intro c hc
  have h := List.head?_dropWhile_not isBlank text
  rw [show text.dropWhile isBlank = skipBlanks text from rfl, hc] at h
  exact h

/-- A spelling begins with a key. -/
theorem Spelling.isKeyChar_head? {text : List Char} {forms : List AttributeForm}
    (h : Spelling text forms) : ∀ c ∈ text.head?, isKeyChar c := by
  cases h with
  | nil => exact nofun
  | @cons f rest forms hf _ _ =>
      obtain ⟨a, key, hk⟩ := List.exists_cons_of_ne_nil hf.named
      have hw : (f.written ++ rest).head? = some a := by
        unfold AttributeForm.written
        cases f.value <;> simp [hk]
      intro c hc
      rw [hw] at hc
      cases hc
      exact hf.key a (by rw [hk]; exact List.mem_cons_self)

theorem isBlank_of_isKeyChar {c : Char} (h : isKeyChar c) : isBlank c = false := by
  unfold isKeyChar at h
  simpa using (Bool.and_eq_true_iff.mp h).1

/-- A spelling begins with no blank. -/
theorem Spelling.head? {text : List Char} {forms : List AttributeForm} (h : Spelling text forms) :
    ∀ c ∈ text.head?, isBlank c = false :=
  fun c hc => isBlank_of_isKeyChar (h.isKeyChar_head? c hc)

/-- A text from its first blank on is empty or begins with a blank. -/
theorem head?_dropWhile_nonblank (text : List Char) :
    ∀ c ∈ (text.dropWhile (!isBlank ·)).head?, isBlank c := by
  intro c hc
  have h := List.head?_dropWhile_not (!isBlank ·) text
  rw [hc] at h
  simpa using h

/-- A value that is read is written between quotes or as a word. -/
theorem rawValue_form {key : String} {text raw rest : List Char}
    (hb : ∀ c ∈ text.head?, isBlank c = false) (h : rawValue key text = .ok (raw, rest)) :
    ∃ value : ValueForm, value.WellFormed ∧ value.raw = raw ∧ text = value.written ++ rest ∧
      ((∃ quote, value = .quoted quote raw) ∨
        value = .word raw ∧ ∀ c ∈ rest.head?, isBlank c) := by
  cases text with
  | nil => cases h
  | cons c text =>
      rw [rawValue] at h
      split at h
      · rename_i hc
        split at h
        · cases h
        · rename_i a after hd
          cases h
          -- what ends the value is a quote like the one before it
          have ha : a = c := by
            have hh := List.head?_dropWhile_not (· != c) text
            rw [hd] at hh
            simpa using hh
          have ht : text = text.takeWhile (· != c) ++ c :: rest := by
            conv => lhs; rw [← List.takeWhile_append_dropWhile (p := (· != c)) (l := text)]
            rw [hd, ha]
          refine ⟨.quoted c (text.takeWhile (· != c)), ⟨hc, fun hm => ?_⟩, rfl, ?_,
            .inl ⟨c, rfl⟩⟩
          · have hne := List.all_eq_true.mp (List.all_takeWhile (p := (· != c))) c hm
            simp at hne
          · show c :: text = (c :: text.takeWhile (· != c) ++ [c]) ++ rest
            rw [List.append_assoc, List.cons_append, List.singleton_append, ← ht]
      · rename_i hc
        cases h
        have hw : (c :: text).takeWhile (!isBlank ·) = c :: text.takeWhile (!isBlank ·) :=
          List.takeWhile_cons_of_pos (by rw [hb c rfl]; rfl)
        refine ⟨.word ((c :: text).takeWhile (!isBlank ·)), ⟨?_, ?_, ?_⟩, rfl, ?_,
          .inr ⟨rfl, head?_dropWhile_nonblank _⟩⟩
        · rw [hw]
          exact List.cons_ne_nil _ _
        · intro x hx
          simpa using List.all_eq_true.mp (List.all_takeWhile (p := (!isBlank ·))) x hx
        · rw [hw]
          intro x hx
          cases hx
          simpa using hc
        · show c :: text = (c :: text).takeWhile (!isBlank ·) ++ (c :: text).dropWhile (!isBlank ·)
          exact List.takeWhile_append_dropWhile.symm

/-- What is read after a key: nothing, or an equals sign and a value. -/
theorem valueAfterKey_form {key : String} {text raw rest : List Char}
    (h : valueAfterKey key text = .ok (raw, rest)) :
    (raw = [] ∧ ∃ blanks, Blank blanks ∧ text = blanks ++ rest ∧
      ∀ c ∈ rest.head?, isBlank c = false ∧ c ≠ '=') ∨
    ∃ before after, ∃ value : ValueForm, Blank before ∧ Blank after ∧ value.WellFormed ∧
      value.raw = raw ∧ text = before ++ '=' :: (after ++ value.written) ++ rest ∧
      ((∃ quote, value = .quoted quote raw) ∨
        value = .word raw ∧ ∀ c ∈ rest.head?, isBlank c) := by
  obtain ⟨before, hbefore, htext⟩ := exists_skipBlanks text
  unfold valueAfterKey at h
  split at h
  · rename_i text' heq
    obtain ⟨after, hafter, htext'⟩ := exists_skipBlanks text'
    obtain ⟨value, hv, hraw, hs, hc⟩ := rawValue_form head?_skipBlanks h
    refine .inr ⟨before, after, value, hbefore, hafter, hv, hraw, ?_, hc⟩
    rw [htext, heq, htext', hs]
    simp
  · rename_i hne
    cases h
    refine .inl ⟨rfl, before, hbefore, htext, fun c hc => ⟨head?_skipBlanks c hc, ?_⟩⟩
    rintro rfl
    obtain ⟨rest, hr⟩ := List.head?_eq_some_iff.mp hc
    exact hne rest hr

/-- One attribute that is read, when the rest of the text is spelled. -/
theorem exists_form {letters : List Char} {key : String} {after raw rest blanks text : List Char}
    {forms : List AttributeForm} (hn : letters ≠ []) (hk : ∀ c ∈ letters, isKeyChar c)
    (hq : letters.any isQuote = false) (ha : ∀ c ∈ after.head?, isKeyChar c = false)
    (hv : valueAfterKey key after = .ok (raw, rest)) (hb : Blank blanks)
    (hr : rest = blanks ++ text) (hs : Spelling text forms) :
    ∃ f : AttributeForm, f.WellFormed ∧ f.Parted text ∧ f.key = letters ∧ f.value.raw = raw ∧
      letters ++ after = f.written ++ text := by
  -- a text that begins with a blank is not spelled, so what must be parted from it is parted
  have hparted : (∀ c ∈ rest.head?, isBlank c) → blanks = [] → text = [] := by
    rintro h rfl
    cases text with
    | nil => rfl
    | cons c text =>
        have hc := hs.head? c rfl
        rw [h c (by rw [hr]; rfl)] at hc
        cases hc
  rcases valueAfterKey_form hv with
    ⟨hraw, gap, hgap, hafter, hne⟩ | ⟨before, lead, value, hbefore, hlead, hval, hraw, hafter, hc⟩
  · refine ⟨⟨letters, .bare, [], [], gap ++ blanks⟩,
      ⟨hn, hk, hq, trivial, nofun, nofun, blank_append hgap hb⟩, fun hg => ?_, rfl, hraw.symm, ?_⟩
    · obtain ⟨rfl, rfl⟩ := List.append_eq_nil_iff.mp hg
      cases text with
      | nil => rfl
      | cons c text =>
          -- the character after a bare key would be neither a blank nor an equals sign
          have h₁ := ha c (by rw [hafter, hr]; rfl)
          have h₂ := hne c (by rw [hr]; rfl)
          unfold isKeyChar at h₁
          rw [h₂.1] at h₁
          exact absurd (by simpa using h₁) h₂.2
    · rw [hafter, hr]
      simp [AttributeForm.written]
  · refine ⟨⟨letters, value, before, lead, blanks⟩,
      ⟨hn, hk, hq, hval, hbefore, hlead, hb⟩, ?_, rfl, hraw, ?_⟩
    · rcases hc with ⟨quote, rfl⟩ | ⟨rfl, hc⟩
      · trivial
      · exact hparted hc
    · rw [hafter, hr]
      rcases hc with ⟨quote, rfl⟩ | ⟨rfl, hc⟩
      · simp [AttributeForm.written]
      · simp [AttributeForm.written]

/-- **What is accepted is spelled**, by attributes with the keys and the values that are read. -/
theorem exists_spelling {seen : List String} {source : List Char} {attrs : List (String × String)}
    (h : attributesFrom seen source = .ok attrs) :
    ∃ blanks text forms, Blank blanks ∧ source = blanks ++ text ∧ Spelling text forms ∧
      attrs = forms.map AttributeForm.pair := by
  -- the induction follows the reader, one attribute after another; the blanks before what is left
  -- are those that trail the attribute read last
  fun_induction attributesFrom seen source generalizing attrs with
  | case1 seen source text =>
      rename_i hn
      cases h
      obtain ⟨blanks, hb, hs⟩ := exists_skipBlanks source
      refine ⟨blanks, [], [], hb, ?_, .nil, rfl⟩
      rw [show skipBlanks source = [] from List.isEmpty_iff.mp hn] at hs
      exact hs
  | case7 seen source text _ letters key hn hq _ raw rest hv attrs' hr =>
      rename_i ih
      cases h
      obtain ⟨leading, hl, hs⟩ := exists_skipBlanks source
      obtain ⟨blanks, text', forms, hb, hrest, hforms, rfl⟩ := ih hr
      have hk : ∀ c ∈ letters, isKeyChar c := List.all_eq_true.mp List.all_takeWhile
      have ha : ∀ c ∈ (text.dropWhile isKeyChar).head?, isKeyChar c = false := by
        intro c hc
        have hh := List.head?_dropWhile_not isKeyChar text
        rw [hc] at hh
        exact hh
      obtain ⟨f, hf, hp, hkey, hraw, hw⟩ :=
        exists_form hn hk (by simpa using hq) ha hv hb hrest hforms
      refine ⟨leading, f.written ++ text', f :: forms, hl, ?_, .cons hf hp hforms, ?_⟩
      · rw [← hw]
        show source = leading ++ (text.takeWhile isKeyChar ++ text.dropWhile isKeyChar)
        rw [List.takeWhile_append_dropWhile]
        exact hs
      · unfold AttributeForm.pair
        rw [List.map_cons, hkey, hraw]
  | _ => cases h

end Inlay
