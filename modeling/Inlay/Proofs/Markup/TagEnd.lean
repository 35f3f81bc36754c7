import Mathlib.Computability.Language
import Inlay.Proofs.Markup.Written

set_option autoImplicit false

/-! # The end of a tag

What may stand between the brackets of a tag is a language (`tagText`). Where quotes count, a text
of it is put together from single characters and from quoted runs, which may hold brackets and the
other quote; elsewhere it is any text without brackets. The search for the end of a tag accepts
exactly this language (`splitTag_eq_some_iff`), and therefore a tag has one length in bytes or none
(`tagLength_language`).
-/

namespace Inlay

open scoped Computability

/-! ## The language -/

/-- A character that stands for itself between brackets, as a text. -/
def singleChars : Language Char :=
  {part | ∃ c, part = [c] ∧ isQuote c = false ∧ c ≠ '<' ∧ c ≠ '>'}

/-- Two quotes of one kind with characters other than this quote between them. -/
def quotedRuns : Language Char := {part | ∃ q run, part = q :: run ++ [q] ∧ isQuote q ∧ q ∉ run}

/-- The texts that may stand between the brackets of a tag. -/
def tagText (quotes : Bool) : Language Char :=
  if quotes then (singleChars + quotedRuns)∗ else {body | '<' ∉ body ∧ '>' ∉ body}

/-- The texts that may stand between an open quote and the bracket that closes the tag. -/
def openText (quote : Option Char) : Language Char :=
  match quote with
  | none => tagText true
  | some q => {body | ∃ run rest, body = run ++ q :: rest ∧ q ∉ run ∧ rest ∈ tagText true}

theorem nil_mem_tagText : [] ∈ tagText true := Language.nil_mem_kstar _

theorem append_mem_tagText {part rest : List Char} (hp : part ∈ singleChars + quotedRuns)
    (hr : rest ∈ tagText true) : part ++ rest ∈ tagText true := by
  obtain ⟨parts, rfl, hparts⟩ := Language.mem_kstar.mp hr
  refine Language.mem_kstar.mpr ⟨part :: parts, by rw [List.flatten_cons], ?_⟩
  intro p hmem
  rcases List.mem_cons.mp hmem with rfl | hmem
  · exact hp
  · exact hparts p hmem

/-! ## The search -/

/-- The search for the end of a tag stops behind a text of the language, also when a quote was open
at first. -/
theorem mem_openText {quote : Option Char} {text body rest : List Char}
    (h : splitTag true quote text = some (body, rest)) : body ∈ openText quote := by
  induction text generalizing quote body with
  | nil => cases quote <;> cases h
  | cons c text ih =>
      cases quote with
      | some q =>
          rw [splitTag] at h
          obtain ⟨⟨b, r⟩, hs, hb⟩ := Option.map_eq_some_iff.mp h
          cases hb
          split at hs
          · rename_i hc
            exact ⟨[], b, by rw [eq_of_beq hc]; rfl, List.not_mem_nil, ih hs⟩
          · rename_i hc
            obtain ⟨run, tail, rfl, hrun, htail⟩ := ih hs
            refine ⟨c :: run, tail, rfl, ?_, htail⟩
            rw [List.mem_cons, not_or]
            exact ⟨fun h => hc (beq_iff_eq.mpr h.symm), hrun⟩
      | none =>
          rw [splitTag] at h
          split at h
          · cases h
            exact nil_mem_tagText
          · rename_i hg
            split at h
            · cases h
            · rename_i hl
              obtain ⟨⟨b, r⟩, hs, hb⟩ := Option.map_eq_some_iff.mp h
              cases hb
              rw [Bool.true_and] at hs
              split at hs
              · rename_i hq
                -- a run begins here, and what follows closes it
                obtain ⟨run, tail, rfl, hrun, htail⟩ := ih hs
                have hpart : c :: run ++ [c] ∈ singleChars + quotedRuns :=
                  .inr ⟨c, run, rfl, hq, hrun⟩
                have h := append_mem_tagText hpart htail
                rwa [List.append_assoc] at h
              · rename_i hq
                have hpart : [c] ∈ singleChars + quotedRuns :=
                  .inl ⟨c, rfl, Bool.eq_false_iff.mpr hq, by simpa using hl, by simpa using hg⟩
                exact append_mem_tagText hpart (ih hs)

/-- Where quotes mean nothing, the search passes over all but brackets. -/
theorem Passes.bracketless {body : List Char} (hl : '<' ∉ body) (hg : '>' ∉ body) :
    Passes false body := by
  induction body with
  | nil => exact .nil
  | cons c body ih =>
      rw [List.mem_cons, not_or] at hl hg
      intro text
      rw [List.cons_append, Inlay.splitTag, if_neg (by simpa using Ne.symm hg.1),
        if_neg (by simpa using Ne.symm hl.1), Bool.false_and, if_neg Bool.false_ne_true,
        ih hl.2 hg.2, Option.map_map]
      rfl

/-- Where quotes mean nothing, there is no bracket in a tag. -/
theorem splitTag_bracketless {text body rest : List Char}
    (h : splitTag false none text = some (body, rest)) : '<' ∉ body ∧ '>' ∉ body := by
  induction text generalizing body with
  | nil => cases h
  | cons c text ih =>
      rw [splitTag] at h
      split at h
      · cases h
        exact ⟨List.not_mem_nil, List.not_mem_nil⟩
      · rename_i hg
        split at h
        · cases h
        · rename_i hl
          rw [Bool.false_and, if_neg Bool.false_ne_true] at h
          obtain ⟨⟨b, r⟩, hs, hb⟩ := Option.map_eq_some_iff.mp h
          cases hb
          rw [List.mem_cons, not_or, List.mem_cons, not_or]
          exact ⟨⟨fun h => hl (by simp [← h]), (ih hs).1⟩, fun h => hg (by simp [← h]), (ih hs).2⟩

theorem passes_tagText {quotes : Bool} {body : List Char} (h : body ∈ tagText quotes) :
    Passes quotes body := by
  cases quotes with
  | false => exact .bracketless h.1 h.2
  | true =>
      obtain ⟨parts, rfl, hparts⟩ := Language.mem_kstar.mp h
      clear h
      induction parts with
      | nil => exact .nil
      | cons part parts ih =>
          rw [List.flatten_cons]
          refine Passes.append ?_ (ih fun p hp => hparts p (List.mem_cons_of_mem _ hp))
          rcases hparts part List.mem_cons_self with ⟨c, rfl, hq, hl, hg⟩ | ⟨q, run, rfl, hq, hrun⟩
          · exact .cons hq hl hg .nil
          · exact .quoted hq hrun

/-- The search for the end of a tag accepts exactly the texts of the language. -/
theorem splitTag_eq_some_iff {quotes : Bool} {text body rest : List Char} :
    splitTag quotes none text = some (body, rest) ↔
      text = body ++ '>' :: rest ∧ body ∈ tagText quotes := by
  constructor
  · intro h
    refine ⟨splitTag_eq h, ?_⟩
    cases quotes with
    | false => exact splitTag_bracketless h
    | true => exact mem_openText h
  · rintro ⟨rfl, h⟩
    exact (passes_tagText h).splitTag rest

/-! ## Lengths in bytes -/

/-- How many bytes a text takes in UTF-8. -/
def byteLength (text : List Char) : Nat := (String.ofList text).utf8ByteSize

theorem byteLength_nil : byteLength [] = 0 := by decide +kernel

theorem byteLength_append (a b : List Char) :
    byteLength (a ++ b) = byteLength a + byteLength b := by
  unfold byteLength
  rw [String.ofList_append, String.utf8ByteSize_append]

theorem byteLength_singleton (c : Char) : byteLength [c] = c.utf8Size := by
  unfold byteLength
  rw [← String.singleton_eq_ofList, String.utf8ByteSize_singleton]

theorem byteLength_cons (c : Char) (text : List Char) :
    byteLength (c :: text) = c.utf8Size + byteLength text := by
  rw [← List.singleton_append, byteLength_append, byteLength_singleton]

theorem byteLength_eq_zero {text : List Char} : byteLength text = 0 ↔ text = [] := by
  cases text with
  | nil => simp [byteLength_nil]
  | cons c text =>
      have hpos := c.utf8Size_pos
      rw [byteLength_cons]
      simp
      omega

/-- How many bytes the tag takes that begins with a `<` before the given text, both brackets
included, if a tag begins there. -/
def tagLength? (quotes : Bool) (text : List Char) : Option Nat :=
  (splitTag quotes none text).map fun s => byteLength ('<' :: s.1 ++ ['>'])

/-- Whether a text of the language stands between the `<` that a text begins with and a `>` that is
its `n`-th byte. -/
def EndsAt (quotes : Bool) (text : List Char) (n : Nat) : Prop :=
  ∃ body rest, text = '<' :: body ++ '>' :: rest ∧ n = byteLength ('<' :: body ++ ['>']) ∧
    body ∈ tagText quotes

theorem tagLength?_eq_some_iff {quotes : Bool} {text : List Char} {n : Nat} :
    tagLength? quotes text = some n ↔ EndsAt quotes ('<' :: text) n := by
  unfold tagLength? EndsAt
  rw [Option.map_eq_some_iff]
  constructor
  · rintro ⟨⟨body, rest⟩, hs, rfl⟩
    obtain ⟨rfl, hbody⟩ := splitTag_eq_some_iff.mp hs
    exact ⟨body, rest, rfl, rfl, hbody⟩
  · rintro ⟨body, rest, htext, rfl, hbody⟩
    exact ⟨(body, rest), splitTag_eq_some_iff.mpr ⟨(List.cons.inj htext).2, hbody⟩, rfl⟩

/-- **The search for the end of a tag accepts exactly its language.** Whether quotes count or not,
it finds a tag of `n` bytes if and only if the `n`-th byte is a `>` and what stands between the
brackets is a text of the language. If there is no such `n` it finds nothing, and there are never
two. -/
theorem tagLength_language (quotes : Bool) (text : List Char) :
    (∀ n, tagLength? quotes text = some n ↔ EndsAt quotes ('<' :: text) n) ∧
      (tagLength? quotes text = none ↔ ∀ n, ¬ EndsAt quotes ('<' :: text) n) ∧
        ∀ n m, EndsAt quotes ('<' :: text) n → EndsAt quotes ('<' :: text) m → n = m := by
  refine ⟨fun n => tagLength?_eq_some_iff, ?_, ?_⟩
  · rw [Option.eq_none_iff_forall_ne_some]
    exact forall_congr' fun n => not_congr tagLength?_eq_some_iff
  · intro n m hn hm
    have hfound := tagLength?_eq_some_iff.mpr hn
    rw [tagLength?_eq_some_iff.mpr hm] at hfound
    exact (Option.some.inj hfound).symm

/-- A bracket in a quoted value does not end a tag in which quotes count, and ends any other. -/
theorem titled_ends :
    let titled := ['a', ' ', 't', '=', '\'', '>', '"', '\'', '>', 'é']
    EndsAt true ('<' :: titled) 10 ∧ EndsAt false ('<' :: titled) 7 ∧
      ∀ n, EndsAt true ('<' :: titled) n → n = 10 := by
  intro titled
  obtain ⟨hquoted, -, hunique⟩ := tagLength_language true titled
  obtain ⟨hplain, -, -⟩ := tagLength_language false titled
  have hten : EndsAt true ('<' :: titled) 10 := (hquoted 10).mp (by decide +kernel)
  exact ⟨hten, (hplain 7).mp (by decide +kernel), fun n hn => hunique n 10 hn hten⟩

end Inlay
