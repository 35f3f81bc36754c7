import Mathlib.Data.List.Find
import Inlay.Markup.Entity

set_option autoImplicit false

/-! # Entities in a single pass

The entities are replaced one kind after another, and each replacement reads what those before it
have written. The outcome is nevertheless that of a single pass from left to right, which replaces
every entity where it stands and never reads what it has written (`decodeEntities_eq_singlePass`).

Two things are behind this. A name begins with an ampersand and has no other, so a replacement
leaves the names of other entities whole (`replaceAll_append_name`). And the character that it
writes stands in no name that is replaced later, so it completes none of them either
(`prefix_of_prefix_replaceAll`). The ampersand stands in all names, so its own entity is the last.
Hence the first entity of a table may be replaced before the others (`singlePass_replaceAll`), and
the rest is an induction on the table.

A text in which ampersands are written as entities, and other characters at will, is read back by
the single pass (`decodeEntities_escapeWith`).
-/

namespace Inlay

/-! ## One replacement -/

/-- Whether a text may be the name of an entity: it begins with an ampersand and has no other. -/
def EntityName (name : List Char) : Prop := ∃ letters, name = '&' :: letters ∧ '&' ∉ letters

theorem EntityName.length_lt {name : List Char} (h : EntityName name) (text : List Char) :
    text.length < (name ++ text).length := by
  obtain ⟨letters, rfl, -⟩ := h
  simp only [List.length_append, List.length_cons]
  omega

theorem EntityName.ampersand_mem {name : List Char} (h : EntityName name) : '&' ∈ name := by
  obtain ⟨letters, rfl, -⟩ := h
  exact List.mem_cons_self

theorem EntityName.head_eq {name text : List Char} {c : Char} (h : EntityName name)
    (hp : name <+: c :: text) : c = '&' := by
  obtain ⟨letters, rfl, -⟩ := h
  exact (List.cons_prefix_cons.mp hp).1.symm

/-- A character that begins no occurrence is kept. -/
theorem replaceAll_cons {pattern : List Char} {c : Char} {text : List Char}
    (h : ¬pattern <+: c :: text) (replacement : List Char) :
    replaceAll pattern replacement (c :: text) = c :: replaceAll pattern replacement text := by
  unfold replaceAll
  rw [replaceFrom, if_neg (by rwa [List.isPrefixOf_iff_prefix])]

theorem replaceFrom_drop (pattern replacement passed text : List Char) :
    replaceFrom pattern replacement passed.length (passed ++ text) =
      replaceFrom pattern replacement 0 text := by
  induction passed with
  | nil => rfl
  | cons c passed ih =>
      rw [List.length_cons, List.cons_append, replaceFrom]
      exact ih

/-- An occurrence is replaced. -/
theorem replaceAll_append {pattern : List Char} (h : EntityName pattern)
    (replacement text : List Char) :
    replaceAll pattern replacement (pattern ++ text) =
      replacement ++ replaceAll pattern replacement text := by
  obtain ⟨letters, rfl, -⟩ := h
  unfold replaceAll
  rw [List.cons_append, replaceFrom, if_pos (by simp [List.isPrefixOf]), List.length_cons,
    Nat.add_sub_cancel, replaceFrom_drop]

/-- A text without ampersands is kept, whatever follows it. -/
theorem replaceAll_append_plain {pattern plain : List Char} (hpattern : EntityName pattern)
    (h : '&' ∉ plain) (replacement text : List Char) :
    replaceAll pattern replacement (plain ++ text) =
      plain ++ replaceAll pattern replacement text := by
  induction plain with
  | nil => rfl
  | cons c plain ih =>
      rw [List.mem_cons, not_or] at h
      have hc : ¬pattern <+: c :: (plain ++ text) := fun hp => h.1 (hpattern.head_eq hp).symm
      rw [List.cons_append, replaceAll_cons hc, ih h.2, List.cons_append]

/-- A name at which no occurrence begins is kept whole, whatever follows it. -/
theorem replaceAll_append_name {pattern name text : List Char} (hpattern : EntityName pattern)
    (hname : EntityName name) (h : ¬pattern <+: name ++ text) (replacement : List Char) :
    replaceAll pattern replacement (name ++ text) =
      name ++ replaceAll pattern replacement text := by
  obtain ⟨letters, rfl, hletters⟩ := hname
  rw [List.cons_append] at h ⊢
  rw [replaceAll_cons h, replaceAll_append_plain hpattern hletters, List.cons_append]

/-- A replacement completes no name without the character that it writes: if the outcome begins with
such a name, so did the text. -/
theorem prefix_of_prefix_replaceAll {pattern name text : List Char} {d : Char} (hd : d ∉ name)
    (h : name <+: replaceAll pattern [d] text) : name <+: text := by
  induction name generalizing text with
  | nil => exact List.nil_prefix
  | cons a name ih =>
      rw [List.mem_cons, not_or] at hd
      cases text with
      | nil => exact h
      | cons c text =>
          by_cases hp : pattern <+: c :: text
          · -- the outcome begins with the character that was written
            unfold replaceAll at h
            rw [replaceFrom, if_pos (List.isPrefixOf_iff_prefix.mpr hp), List.singleton_append,
              List.cons_prefix_cons] at h
            exact absurd h.1.symm hd.1
          · rw [replaceAll_cons hp, List.cons_prefix_cons] at h
            exact List.cons_prefix_cons.mpr ⟨h.1, ih hd.2 h.2⟩

/-- The replacement of an entity that does not begin the text neither makes another name begin it
nor takes one away. -/
theorem prefix_replaceAll_iff {pattern name text : List Char} {d : Char}
    (hpattern : EntityName pattern) (hname : EntityName name) (hd : d ∉ name)
    (h : ¬pattern <+: text) : name <+: replaceAll pattern [d] text ↔ name <+: text := by
  constructor
  · exact prefix_of_prefix_replaceAll hd
  · rintro ⟨rest, rfl⟩
    rw [replaceAll_append_name hpattern hname h]
    exact List.prefix_append _ _

/-! ## The single pass -/

/-- The first entity of a table with whose name a text begins. -/
def leading? (table : List (List Char × Char)) (text : List Char) : Option (List Char × Char) :=
  table.find? fun e => e.1.isPrefixOf text

/-- Replace the entities of a table in a single pass from left to right. What is written is not read
again. -/
def singlePass (table : List (List Char × Char)) : List Char → List Char
  | [] => []
  | c :: rest =>
    match leading? table (c :: rest) with
    | some e => e.2 :: singlePass table (rest.drop (e.1.length - 1))
    | none => c :: singlePass table rest
termination_by text => text.length
decreasing_by
  · simp only [List.length_drop, List.length_cons]
    omega
  · simp only [List.length_cons]
    omega

section

variable {table : List (List Char × Char)} {e : List Char × Char} {c : Char} {text : List Char}

theorem leading?_eq_some (h : leading? table text = some e) : e ∈ table ∧ e.1 <+: text := by
  unfold leading? at h
  exact ⟨List.mem_of_find?_eq_some h,
    List.isPrefixOf_iff_prefix.mp (by simpa using List.find?_some h)⟩

theorem leading?_eq_none (h : ∀ f ∈ table, ¬f.1 <+: text) : leading? table text = none := by
  unfold leading?
  rw [List.find?_eq_none]
  intro f hf
  rw [List.isPrefixOf_iff_prefix]
  exact h f hf

theorem leading?_cons_self : leading? (e :: table) (e.1 ++ text) = some e := by
  unfold leading?
  exact List.find?_cons_of_pos (List.isPrefixOf_iff_prefix.mpr (List.prefix_append _ _))

theorem leading?_cons (h : ¬e.1 <+: text) : leading? (e :: table) text = leading? table text := by
  unfold leading?
  exact List.find?_cons_of_neg (by rwa [List.isPrefixOf_iff_prefix])

/-- A text that begins with a character that stands in no name begins with no entity. -/
theorem leading?_unnamed (hnames : ∀ f ∈ table, EntityName f.1) (hc : ∀ f ∈ table, c ∉ f.1) :
    leading? table (c :: text) = none := by
  refine leading?_eq_none fun f hf hp => hc f hf ?_
  rw [(hnames f hf).head_eq hp]
  exact (hnames f hf).ampersand_mem

/-- A text that begins with a character other than an ampersand begins with no entity. -/
theorem leading?_cons_ne (hnames : ∀ f ∈ table, EntityName f.1) (hc : c ≠ '&') :
    leading? table (c :: text) = none :=
  leading?_eq_none fun f hf hp => hc ((hnames f hf).head_eq hp)

theorem singlePass_nil : singlePass table [] = [] := by rw [singlePass]

/-- A character that begins no entity is kept. -/
theorem singlePass_cons (h : leading? table (c :: text) = none) :
    singlePass table (c :: text) = c :: singlePass table text := by
  rw [singlePass, h]

/-- An entity is replaced. -/
theorem singlePass_append (hname : EntityName e.1) (h : leading? table (e.1 ++ text) = some e) :
    singlePass table (e.1 ++ text) = e.2 :: singlePass table text := by
  obtain ⟨letters, hletters, -⟩ := hname
  rw [hletters, List.cons_append] at h ⊢
  rw [singlePass, h]
  simp [hletters]

theorem singlePass_empty (text : List Char) : singlePass [] text = text := by
  induction text with
  | nil => exact singlePass_nil
  | cons c text ih => rw [singlePass_cons rfl, ih]

/-- A text without ampersands is kept. -/
theorem singlePass_plain (hnames : ∀ f ∈ table, EntityName f.1) (h : '&' ∉ text) :
    singlePass table text = text := by
  induction text with
  | nil => exact singlePass_nil
  | cons c text ih =>
      rw [List.mem_cons, not_or] at h
      rw [singlePass_cons (leading?_cons_ne hnames (Ne.symm h.1)), ih h.2]

/-! ## One kind after another -/

/-- Whether the entities of a table may be replaced one kind after another: a character that is
written stands in no name that is replaced later. -/
structure Sequential (table : List (List Char × Char)) : Prop where
  names : ∀ e ∈ table, EntityName e.1
  fresh : table.Pairwise fun e f => e.2 ∉ f.1

theorem sequential_entities : Sequential entities where
  names := by
    simp only [entities, List.forall_mem_cons]
    exact ⟨⟨_, rfl, by decide⟩, ⟨_, rfl, by decide⟩, ⟨_, rfl, by decide⟩, ⟨_, rfl, by decide⟩,
      ⟨_, rfl, by decide⟩, fun _ h => absurd h List.not_mem_nil⟩
  fresh := by decide

namespace Sequential

theorem head (h : Sequential (e :: table)) : EntityName e.1 := h.names e List.mem_cons_self

theorem tail (h : Sequential (e :: table)) : Sequential table :=
  ⟨fun f hf => h.names f (List.mem_cons_of_mem e hf), (List.pairwise_cons.mp h.fresh).2⟩

theorem unwritten (h : Sequential (e :: table)) : ∀ f ∈ table, e.2 ∉ f.1 :=
  (List.pairwise_cons.mp h.fresh).1

end Sequential

/-- Which entity begins the text is the same before and after the replacement of one that does
not. -/
theorem leading?_replaceAll (h : Sequential (e :: table)) (hp : ¬e.1 <+: text) :
    leading? table (replaceAll e.1 [e.2] text) = leading? (e :: table) text := by
  rw [leading?_cons hp]
  unfold leading?
  refine List.find?_congr fun f hf => ?_
  rw [Bool.eq_iff_iff, List.isPrefixOf_iff_prefix, List.isPrefixOf_iff_prefix]
  exact prefix_replaceAll_iff h.head (h.tail.names f hf) (h.unwritten f hf) hp

/-- **One kind of entity may be replaced before the others.** The single pass over what its
replacement leaves comes to the same as the single pass with it. -/
theorem singlePass_replaceAll (h : Sequential (e :: table)) (text : List Char) :
    singlePass table (replaceAll e.1 [e.2] text) = singlePass (e :: table) text := by
  -- by the length of the text, which is taken apart as the pass with all entities reads it
  induction hn : text.length using Nat.strongRecOn generalizing text with
  | ind n ih =>
    subst hn
    by_cases hp : e.1 <+: text
    · obtain ⟨rest, rfl⟩ := hp
      rw [replaceAll_append h.head, List.singleton_append,
        singlePass_cons (leading?_unnamed h.tail.names h.unwritten),
        singlePass_append h.head leading?_cons_self, ih _ (h.head.length_lt rest) rest rfl]
    · have hlead := leading?_replaceAll h hp
      cases hf : leading? (e :: table) text with
      | some f =>
          obtain ⟨hmem, rest, rfl⟩ := leading?_eq_some hf
          have hname : EntityName f.1 := h.names f hmem
          rw [hf, replaceAll_append_name h.head hname hp] at hlead
          rw [replaceAll_append_name h.head hname hp, singlePass_append hname hlead,
            singlePass_append hname hf, ih _ (hname.length_lt rest) rest rfl]
      | none =>
          cases text with
          | nil => rw [replaceAll, replaceFrom, singlePass_nil, singlePass_nil]
          | cons c rest =>
              rw [hf, replaceAll_cons hp] at hlead
              rw [replaceAll_cons hp, singlePass_cons hlead, singlePass_cons hf,
                ih _ (Nat.lt_succ_self _) rest rfl]

/-- Entities come out replaced one kind after another as they do in a single pass. -/
theorem replaceEach_eq_singlePass (h : Sequential table) (text : List Char) :
    replaceEach table text = singlePass table text := by
  induction table generalizing text with
  | nil => exact (singlePass_empty text).symm
  | cons e table ih =>
      calc replaceEach (e :: table) text
          = replaceEach table (replaceAll e.1 [e.2] text) := rfl
        _ = singlePass table (replaceAll e.1 [e.2] text) := ih h.tail _
        _ = singlePass (e :: table) text := singlePass_replaceAll h text

end

/-- Decoding is a single pass over the entities. -/
theorem decodeEntities_eq_singlePass (text : List Char) :
    decodeEntities text = singlePass entities text := by
  unfold decodeEntities
  split
  · exact replaceEach_eq_singlePass sequential_entities text
  · rename_i h
    refine (singlePass_plain sequential_entities.names ?_).symm
    simpa using h

/-! ## Escaped texts -/

/-- The entity that stands for a character, if one does. -/
def entityOf? : Char → Option (List Char)
  | '&' => some ['&', 'a', 'm', 'p', ';']
  | '"' => some ['&', 'q', 'u', 'o', 't', ';']
  | '\'' => some ['&', 'a', 'p', 'o', 's', ';']
  | '<' => some ['&', 'l', 't', ';']
  | '>' => some ['&', 'g', 't', ';']
  | _ => none

/-- How a character is written where ampersands and chosen other characters are escaped. -/
def writtenWith (chosen : Char → Bool) (c : Char) : List Char :=
  if c = '&' ∨ chosen c then (entityOf? c).getD [c] else [c]

/-- A text with its ampersands written as entities, and the chosen ones among the other characters
that have one. -/
def escapeWith (chosen : Char → Bool) (text : List Char) : List Char :=
  text.flatMap (writtenWith chosen)

theorem leading?_entityOf? {c : Char} {name : List Char} (h : entityOf? c = some name)
    (text : List Char) : leading? entities (name ++ text) = some (name, c) := by
  unfold entityOf? at h
  split at h <;> cases h <;> rfl

/-- A written character is read back, whatever follows it. -/
theorem singlePass_writtenWith (chosen : Char → Bool) (c : Char) (text : List Char) :
    singlePass entities (writtenWith chosen c ++ text) = c :: singlePass entities text := by
  have hkept (hc : c ≠ '&') : singlePass entities ([c] ++ text) = c :: singlePass entities text :=
    singlePass_cons (leading?_cons_ne sequential_entities.names hc)
  unfold writtenWith
  split
  · cases hname : entityOf? c with
    | some name =>
        have hlead := leading?_entityOf? hname text
        have hmem := (leading?_eq_some hlead).1
        exact singlePass_append (sequential_entities.names _ hmem) hlead
    | none => exact hkept (by rintro rfl; cases hname)
  · rename_i hc
    exact hkept fun h => hc (.inl h)

/-- Decoding undoes every escaping. -/
theorem decodeEntities_escapeWith (chosen : Char → Bool) (text : List Char) :
    decodeEntities (escapeWith chosen text) = text := by
  rw [decodeEntities_eq_singlePass]
  induction text with
  | nil => exact singlePass_nil
  | cons c text ih =>
      rw [escapeWith, List.flatMap_cons, singlePass_writtenWith]
      exact congrArg _ ih

/-- **Entities are decoded in one simultaneous pass.** For every text the replacements one after
another come to a single pass from left to right that never reads what it has written. So decoding
brings back every text whose ampersands were escaped, whichever of the other four characters were
escaped with them, and takes only one of two escapings away. -/
theorem decodeEntities_simultaneous (text : List Char) :
    decodeEntities text = singlePass entities text ∧
      (∀ chosen, decodeEntities (escapeWith chosen text) = text) ∧
        ∀ chosen again,
          decodeEntities (escapeWith again (escapeWith chosen text)) = escapeWith chosen text :=
  ⟨decodeEntities_eq_singlePass text, fun chosen => decodeEntities_escapeWith chosen text,
    fun chosen again => decodeEntities_escapeWith again (escapeWith chosen text)⟩

/-- An entity that was escaped comes back as an entity. -/
example : decodeEntities ['&', 'a', 'm', 'p', ';', 'l', 't', ';'] = ['&', 'l', 't', ';'] := by
  decide +kernel

end Inlay
