import Inlay.Proofs.Markup.Grammar

set_option autoImplicit false

/-! # The attribute texts that are accepted

A text spells some attributes if it is made of blanks and of attributes as the grammar has them, no
two of which have one key (`Spells`). What the reader accepts is spelled (`exists_spelling`), and
here is the other direction: an attribute form is read back whole, because each run of characters in
it ends where the form says that it ends (`AttributeForm.exists_tail`), and so are the forms of a
spelling, one after another (`attributesFrom_spelling`). The reader therefore accepts just the texts
that spell attributes, and answers the attributes that they spell (`attributesOf_spells`).
-/

namespace Inlay

/-- Whether a text spells some attributes: blanks, and then attributes as they are written, no two
of them with one key. -/
def Spells (text : List Char) (attrs : List (String × String)) : Prop :=
  ∃ blanks body forms, Blank blanks ∧ text = blanks ++ body ∧ Spelling body forms ∧
    (forms.map AttributeForm.key).Nodup ∧ attrs = forms.map AttributeForm.pair

/-! ## Blanks -/

theorem skipBlanks_append {blanks : List Char} (h : Blank blanks) (text : List Char) :
    skipBlanks (blanks ++ text) = skipBlanks text := List.dropWhile_append_of_pos h

theorem skipBlanks_eq {text : List Char} (h : ∀ c ∈ text.head?, isBlank c = false) :
    skipBlanks text = text := by
  cases text with
  | nil => rfl
  | cons c text => exact List.dropWhile_cons_of_neg (by rw [h c rfl]; decide)

theorem isKeyChar_of_isBlank {c : Char} (h : isBlank c) : isKeyChar c = false := by
  unfold isKeyChar
  rw [h]
  rfl

theorem Blank.head? {blanks : List Char} (h : Blank blanks) {text : List Char} :
    ∀ c ∈ (blanks ++ text).head?, isBlank c ∨ blanks = [] ∧ c ∈ text.head? := by
  intro c hc
  cases blanks with
  | nil => exact .inr ⟨rfl, hc⟩
  | cons b blanks =>
      cases hc
      exact .inl (h c List.mem_cons_self)

/-- Blanks before the attributes make no difference. -/
theorem attributesFrom_skipBlanks (seen : List String) (text : List Char) :
    attributesFrom seen (skipBlanks text) = attributesFrom seen text := by
  rw [attributesFrom, attributesFrom]
  dsimp only
  rw [skipBlanks_eq head?_skipBlanks]

/-! ## One attribute -/

theorem rawValue_quoted {quote : Char} {raw : List Char} (hq : isQuote quote) (hr : quote ∉ raw)
    (key : String) (text : List Char) :
    rawValue key (quote :: (raw ++ quote :: text)) = .ok (raw, text) := by
  have hraw : ∀ c ∈ raw, (c != quote) = true := by
    intro c hc
    rw [bne_iff_ne]
    rintro rfl
    exact hr hc
  have hend : ∀ c ∈ (quote :: text).head?, (c != quote) = false := by
    intro c hc
    cases hc
    exact bne_self_eq_false _
  obtain ⟨htake, hdrop⟩ := takeWhile_dropWhile_run hraw hend
  rw [rawValue, if_pos hq, htake, hdrop]

theorem rawValue_word {raw : List Char} (hw : (ValueForm.word raw).WellFormed) (key : String)
    {text : List Char} (ht : ∀ c ∈ text.head?, isBlank c) :
    rawValue key (raw ++ text) = .ok (raw, text) := by
  obtain ⟨hn, hb, hq⟩ := hw
  obtain ⟨c, letters, rfl⟩ := List.exists_cons_of_ne_nil hn
  have hword : ∀ x ∈ c :: letters, (!isBlank x) = true := fun x hx => by rw [hb x hx]; rfl
  have hend : ∀ x ∈ text.head?, (!isBlank x) = false := fun x hx => by rw [ht x hx]; rfl
  obtain ⟨htake, hdrop⟩ := takeWhile_dropWhile_run hword hend
  have hc : ¬ isQuote c = true := by rw [hq c rfl]; decide
  rw [List.cons_append] at htake hdrop ⊢
  rw [rawValue, if_neg hc, htake, hdrop]

theorem valueAfterKey_equals (key : String) {before after value : List Char} (hb : Blank before)
    (ha : Blank after) (hv : ∀ c ∈ value.head?, isBlank c = false) :
    valueAfterKey key (before ++ '=' :: (after ++ value)) = rawValue key value := by
  have hskip : skipBlanks (before ++ '=' :: (after ++ value)) = '=' :: (after ++ value) := by
    rw [skipBlanks_append hb]
    refine skipBlanks_eq fun c hc => ?_
    cases hc
    decide
  unfold valueAfterKey
  rw [hskip]
  show rawValue key (skipBlanks (after ++ value)) = rawValue key value
  rw [skipBlanks_append ha, skipBlanks_eq hv]

/-- **A form is read back.** What is written after the key of a form ends the key, the value of the
form is read from it, and nothing but blanks is left of it before the rest. -/
theorem AttributeForm.exists_tail {f : AttributeForm} (hf : f.WellFormed) {rest : List Char}
    (hp : f.Parted rest) (hr : ∀ c ∈ rest.head?, isKeyChar c) (key : String) :
    ∃ tail next, f.written ++ rest = f.key ++ tail ∧ (∀ c ∈ tail.head?, isKeyChar c = false) ∧
      valueAfterKey key tail = .ok (f.value.raw, next) ∧ skipBlanks next = rest := by
  have hrest : skipBlanks rest = rest :=
    skipBlanks_eq fun c hc => isBlank_of_isKeyChar (hr c hc)
  have htrail : skipBlanks (f.trailing ++ rest) = rest := by
    rw [skipBlanks_append hf.trailing, hrest]
  -- what must be parted from the rest is followed by a blank or by nothing
  have hparted : (f.trailing = [] → rest = []) → ∀ c ∈ (f.trailing ++ rest).head?, isBlank c := by
    intro h c hc
    rcases hf.trailing.head? c hc with hb | ⟨hnil, hc⟩
    · exact hb
    · rw [h hnil] at hc
      cases hc
  have hlead (text : List Char) : ∀ c ∈ (f.before ++ '=' :: text).head?, isKeyChar c = false := by
    intro c hc
    rcases hf.before.head? c hc with hb | ⟨-, hc⟩
    · exact isKeyChar_of_isBlank hb
    · cases hc
      decide
  have hvalue := hf.value
  unfold AttributeForm.written
  unfold AttributeForm.Parted at hp
  cases hv : f.value with
  | bare =>
      rw [hv] at hp
      refine ⟨f.trailing ++ rest, rest, List.append_assoc _ _ _,
        fun c hc => isKeyChar_of_isBlank (hparted hp c hc), ?_, hrest⟩
      have hne : ∀ c ∈ (skipBlanks (f.trailing ++ rest)).head?, c ≠ '=' := by
        rw [htrail]
        rintro c hc rfl
        exact absurd (hr _ hc) (by decide)
      rw [valueAfterKey_bare key hne, htrail]
      rfl
  | quoted quote raw =>
      rw [hv] at hvalue
      obtain ⟨hq, hraw⟩ := hvalue
      refine ⟨f.before ++ '=' :: (f.after ++ quote :: (raw ++ quote :: (f.trailing ++ rest))),
        f.trailing ++ rest, by simp [ValueForm.written], hlead _, ?_, htrail⟩
      have hhead : ∀ c ∈ (quote :: (raw ++ quote :: (f.trailing ++ rest))).head?,
          isBlank c = false := by
        intro c hc
        cases hc
        exact isBlank_of_isQuote hq
      rw [valueAfterKey_equals key hf.before hf.after hhead, rawValue_quoted hq hraw]
      rfl
  | word raw =>
      rw [hv] at hp hvalue
      refine ⟨f.before ++ '=' :: (f.after ++ (raw ++ (f.trailing ++ rest))), f.trailing ++ rest,
        by simp [ValueForm.written], hlead _, ?_, htrail⟩
      have hhead : ∀ c ∈ (raw ++ (f.trailing ++ rest)).head?, isBlank c = false := by
        obtain ⟨a, letters, rfl⟩ := List.exists_cons_of_ne_nil hvalue.1
        intro c hc
        cases hc
        exact hvalue.2.1 _ List.mem_cons_self
      rw [valueAfterKey_equals key hf.before hf.after hhead,
        rawValue_word hvalue key (hparted hp)]
      rfl

/-! ## All attributes -/

/-- The keys that are read are distinct, and none of them was seen before. -/
theorem attributesFrom_keys {seen : List String} {source : List Char}
    {attrs : List (String × String)} (h : attributesFrom seen source = .ok attrs) :
    (attrs.map Prod.fst).Nodup ∧ ∀ a ∈ attrs, a.1 ∉ seen := by
  fun_induction attributesFrom seen source generalizing attrs with
  | case1 =>
      cases h
      exact ⟨List.nodup_nil, fun a ha => absurd ha List.not_mem_nil⟩
  | case7 seen source text _ letters key _ _ hnew raw rest _ attrs' hr =>
      rename_i ih
      cases h
      obtain ⟨hd, hs⟩ := ih hr
      constructor
      · rw [List.map_cons, List.nodup_cons]
        refine ⟨fun hmem => ?_, hd⟩
        obtain ⟨a, ha, hkey⟩ := List.mem_map.mp hmem
        exact hs a ha (hkey ▸ List.mem_cons_self)
      · intro a ha
        rcases List.mem_cons.mp ha with rfl | ha
        · exact hnew
        · exact fun hmem => hs a ha (List.mem_cons_of_mem _ hmem)
  | _ => cases h

/-- **What is spelled with distinct keys is accepted**, with the attributes of its forms. -/
theorem attributesFrom_spelling {text : List Char} {forms : List AttributeForm}
    (h : Spelling text forms) {seen : List String} (hd : (forms.map AttributeForm.key).Nodup)
    (hs : ∀ f ∈ forms, String.ofList f.key ∉ seen) :
    attributesFrom seen text = .ok (forms.map AttributeForm.pair) := by
  -- the keys seen grow by one with each form, so they are generalized
  induction h generalizing seen with
  | nil =>
      rw [attributesFrom]
      rfl
  | @cons f rest forms hf hp hrest ih =>
      obtain ⟨hnew, hd⟩ := List.nodup_cons.mp hd
      obtain ⟨tail, next, hw, ht, hv, hnext⟩ :=
        f.exists_tail hf hp hrest.isKeyChar_head? (String.ofList f.key)
      have hskip : skipBlanks (f.written ++ rest) = f.key ++ tail := by
        rw [skipBlanks_eq (Spelling.cons hf hp hrest).head?, hw]
      have hseen : ∀ g ∈ forms, String.ofList g.key ∉ String.ofList f.key :: seen := by
        intro g hg
        rw [List.mem_cons, not_or]
        refine ⟨fun he => hnew ?_, hs g (List.mem_cons_of_mem _ hg)⟩
        exact List.mem_map.mpr ⟨g, hg, String.ofList_injective he⟩
      rw [attributesFrom_read hskip hf.named hf.key hf.quoteless ht (hs f List.mem_cons_self) hv,
        ← attributesFrom_skipBlanks, hnext, ih hd hseen]
      rfl

/-- The attributes of a text are read if and only if the text spells them. -/
theorem attributesOf_eq_ok_iff {text : List Char} {attrs : List (String × String)} :
    attributesOf text = .ok attrs ↔ Spells text attrs := by
  constructor
  · intro h
    obtain ⟨blanks, body, forms, hb, ht, hs, rfl⟩ := exists_spelling h
    refine ⟨blanks, body, forms, hb, ht, hs, ?_, rfl⟩
    have hkeys := (attributesFrom_keys h).1
    rw [List.map_map] at hkeys
    have hpairs := List.pairwise_map.mp hkeys
    exact List.pairwise_map.mpr (hpairs.imp fun hne he => hne (congrArg String.ofList he))
  · rintro ⟨blanks, body, forms, hb, rfl, hs, hd, rfl⟩
    unfold attributesOf
    rw [← attributesFrom_skipBlanks, skipBlanks_append hb, attributesFrom_skipBlanks]
    exact attributesFrom_spelling hs hd nofun

/-- **The reader of attributes accepts just what the grammar spells.** It answers the attributes of
a text if and only if the text spells them, and it finds a fault in every text that spells none. -/
theorem attributesOf_spells (text : List Char) :
    (∀ attrs, attributesOf text = .ok attrs ↔ Spells text attrs) ∧
      ((∃ fault, attributesOf text = .error fault) ↔ ∀ attrs, ¬ Spells text attrs) := by
  refine ⟨fun attrs => attributesOf_eq_ok_iff, ?_⟩
  constructor
  · rintro ⟨fault, hf⟩ attrs hs
    rw [attributesOf_eq_ok_iff.mpr hs] at hf
    cases hf
  · intro h
    cases ha : attributesOf text with
    | error fault => exact ⟨fault, rfl⟩
    | ok attrs => exact absurd (attributesOf_eq_ok_iff.mp ha) (h attrs)

/-- After a quoted value nothing has to part the next key from it. -/
example : attributesOf ['a', '=', '\'', '1', '\'', 'b', ' ', '=', 'c', '=', '"'] =
    .ok [("a", "1"), ("b", "c=\"")] := by cbv

end Inlay
