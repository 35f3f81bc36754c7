import Mathlib.Data.List.Permutation
import Inlay.Proofs.Markup.Grammar
import Inlay.Proofs.Markup.Written

set_option autoImplicit false

/-! # Quotes in attributes

Two readers ask what is quoted in a tag. The search for its end counts every quote, and passes over
brackets as long as one is open (`openQuote`). The reader of the attributes knows a quote only where
a value begins. They agree on keys, blanks and quoted values, but not on a word that holds a quote.
So a tag whose attributes are accepted is recognised if and only if they leave no quote open, which
is certain only where no word holds one (`recognise_spelled`).
-/

namespace Inlay

/-! ## The quote that is open -/

/-- The quote that is open after one more character. -/
def nextQuote : Option Char → Char → Option Char
  | some q, c => if c == q then none else some q
  | none, c => if isQuote c then some c else none

/-- The quote that the search for the end of a tag holds open after a text. -/
def openQuote (text : List Char) : Option Char := text.foldl nextQuote none

theorem nextQuote_some (q c : Char) : nextQuote (some q) c = if c == q then none else some q := rfl

theorem nextQuote_none (c : Char) : nextQuote none c = if isQuote c then some c else none := rfl

theorem openQuote_append {a : List Char} (ha : openQuote a = none) (b : List Char) :
    openQuote (a ++ b) = openQuote b := by
  unfold openQuote at ha ⊢
  rw [List.foldl_append, ha]

theorem openQuote_quoteless {text : List Char} (h : text.any isQuote = false) :
    openQuote text = none := by
  induction text with
  | nil => rfl
  | cons c text ih =>
      rw [List.any_cons, Bool.or_eq_false_iff] at h
      unfold openQuote at ih ⊢
      rw [List.foldl_cons, nextQuote_none, h.1, if_neg Bool.false_ne_true]
      exact ih h.2

/-- A quote stays open until it occurs again. -/
theorem openQuote_quoted {quote : Char} {raw : List Char} (hq : isQuote quote)
    (hr : quote ∉ raw) : openQuote (quote :: raw ++ [quote]) = none := by
  have hstay : ∀ text : List Char, quote ∉ text →
      text.foldl nextQuote (some quote) = some quote := by
    intro text
    induction text with
    | nil => exact fun _ => rfl
    | cons c text ih =>
        intro h
        rw [List.mem_cons, not_or] at h
        rw [List.foldl_cons, nextQuote_some,
          if_neg (by simpa using fun hc : c = quote => h.1 hc.symm)]
        exact ih h.2
  unfold openQuote
  rw [List.cons_append, List.foldl_cons, nextQuote_none, if_pos hq, List.foldl_append,
    hstay raw hr, List.foldl_cons, nextQuote_some, if_pos (by simp)]
  rfl

theorem isQuote_of_openQuote {text : List Char} {q : Char} (h : openQuote text = some q) :
    isQuote q := by
  -- a text grows at its end here, so the induction is on the reversed text
  suffices hr : ∀ l : List Char, ∀ q, openQuote l.reverse = some q → isQuote q by
    exact hr text.reverse q (by rw [List.reverse_reverse]; exact h)
  intro l
  induction l with
  | nil => exact nofun
  | cons c l ih =>
      intro q hq
      unfold openQuote at hq ih
      rw [List.reverse_cons, List.foldl_append, List.foldl_cons, List.foldl_nil] at hq
      cases hs : l.reverse.foldl nextQuote none with
      | some q' =>
          rw [hs, nextQuote_some] at hq
          split at hq
          · cases hq
          · cases hq
            exact ih q hs
      | none =>
          rw [hs, nextQuote_none] at hq
          split at hq
          · rename_i hc
            cases hq
            exact hc
          · cases hq

/-! ## The end of a tag -/

/-- Where a text holds no bracket, the search passes over it and keeps account of the quotes. -/
theorem splitTag_append {text : List Char} (hl : '<' ∉ text) (hg : '>' ∉ text)
    (quote : Option Char) (rest : List Char) :
    splitTag true quote (text ++ rest) =
      (splitTag true (text.foldl nextQuote quote) rest).map fun s => (text ++ s.1, s.2) := by
  induction text generalizing quote with
  | nil => simp
  | cons c text ih =>
      rw [List.mem_cons, not_or] at hl hg
      have hstep : splitTag true quote (c :: (text ++ rest)) =
          (splitTag true (nextQuote quote c) (text ++ rest)).map fun s => (c :: s.1, s.2) := by
        cases quote with
        | some q => rfl
        | none =>
            rw [splitTag, if_neg (by simpa using fun h : c = '>' => hg.1 h.symm),
              if_neg (by simpa using fun h : c = '<' => hl.1 h.symm), Bool.true_and]
            rfl
      rw [List.cons_append, hstep, ih hl.2 hg.2, Option.map_map, List.foldl_cons]
      rfl

theorem Passes.of_openQuote {text : List Char} (h : openQuote text = none) (hl : '<' ∉ text)
    (hg : '>' ∉ text) : Passes true text := by
  intro rest
  rw [splitTag_append hl hg]
  unfold openQuote at h
  rw [h]

/-- A quote that is open is closed before the tag ends. -/
theorem mem_of_splitTag_open {quotes : Bool} {q : Char} {text body rest : List Char}
    (h : splitTag quotes (some q) text = some (body, rest)) : q ∈ body := by
  induction text generalizing body with
  | nil => cases h
  | cons c text ih =>
      rw [splitTag] at h
      obtain ⟨⟨b, r⟩, hs, hb⟩ := Option.map_eq_some_iff.mp h
      cases hb
      split at hs
      · rename_i hc
        rw [eq_of_beq hc]
        exact List.mem_cons_self
      · exact List.mem_cons_of_mem _ (ih hs)

/-! ## Attributes as they are written -/

/-- Whether a value is no word with a quote in it. -/
def ValueForm.Unequivocal : ValueForm → Prop
  | word raw => raw.any isQuote = false
  | _ => True

theorem Blank.quoteless {text : List Char} (h : Blank text) : text.any isQuote = false := by
  rw [List.any_eq_false]
  intro c hc hq
  have hb := h c hc
  rw [isBlank_of_isQuote hq] at hb
  cases hb

/-- A value leaves no quote open, unless it is a word. -/
theorem openQuote_value {value : ValueForm} (hw : value.WellFormed) (hv : value.Unequivocal) :
    openQuote value.written = none := by
  cases value with
  | bare => rfl
  | quoted quote raw => exact openQuote_quoted hw.1 hw.2
  | word raw => exact openQuote_quoteless hv

theorem openQuote_written {f : AttributeForm} (hf : f.WellFormed) (hv : f.value.Unequivocal) :
    openQuote f.written = none := by
  have hkey := openQuote_quoteless hf.quoteless
  have htrailing := openQuote_quoteless hf.trailing.quoteless
  have hvalue : openQuote (f.before ++ '=' :: (f.after ++ f.value.written)) = none := by
    rw [openQuote_append (openQuote_quoteless hf.before.quoteless)]
    show openQuote (['='] ++ (f.after ++ f.value.written)) = none
    rw [openQuote_append rfl, openQuote_append (openQuote_quoteless hf.after.quoteless)]
    exact openQuote_value hf.value hv
  unfold AttributeForm.written
  split
  · rw [openQuote_append hkey]
    exact htrailing
  · rw [List.append_assoc, openQuote_append hkey, openQuote_append hvalue]
    exact htrailing

/-- Attributes leave no quote open if no word of them holds one. -/
theorem Spelling.openQuote {text : List Char} {forms : List AttributeForm} (h : Spelling text forms)
    (hv : ∀ f ∈ forms, f.value.Unequivocal) : openQuote text = none := by
  induction h with
  | nil => rfl
  | cons hf _ _ ih =>
      rw [openQuote_append (openQuote_written hf (hv _ List.mem_cons_self))]
      exact ih fun g hg => hv g (List.mem_cons_of_mem _ hg)

/-! ## Recognition -/

variable {markers : Markers} {opening command : String} {text : List Char}
  {attrs : List (String × String)}

theorem Markers.splitTag_of_recognise {position : Position} {text rest : List Char} {tag : Tag}
    (h : markers.recognise position text = .ok (.command tag rest)) :
    ∃ body, splitTag (markers.begins text) none text = some (body, rest) := by
  obtain ⟨body, inner, command, attrs, hs, -⟩ := recognise_eq_command.mp h
  exact ⟨body, hs⟩

/-- A tag is not recognised if its attributes leave a quote open, which its closing marker does not
close. -/
theorem openQuote_of_recognise (hm : markers.opening = some opening) (hop : Plain opening.toList)
    (hcl : Plain (markers.closing.getD "").toList) (hcmd : Plain command.toList)
    (hl : '<' ∉ text) (hg : '>' ∉ text) {position : Position} {rest : List Char} {tag : Tag}
    (h : markers.recognise position (tagBody opening markers.closing command text ++ '>' :: rest) =
      .ok (.command tag rest)) : openQuote text = none := by
  obtain ⟨body, hs⟩ := Markers.splitTag_of_recognise h
  have hname : Passes true (opening.toList ++ command.toList) :=
    (Passes.plain hop).append (.plain hcmd)
  have ht : tagBody opening markers.closing command text ++ '>' :: rest =
      opening.toList ++ command.toList ++
        (text ++ ((markers.closing.getD "").toList ++ '>' :: rest)) := by
    simp [tagBody]
  rw [Markers.begins_tagBody hm, ht, hname, splitTag_append hl hg, Option.map_map] at hs
  obtain ⟨⟨tail, r⟩, hend, hr⟩ := Option.map_eq_some_iff.mp hs
  obtain rfl : r = rest := congrArg Prod.snd hr
  cases hq : text.foldl nextQuote none with
  | none => exact hq
  | some q =>
      -- the search would end in the closing marker and there find the quote that is open
      rw [hq] at hend
      have hmem := mem_of_splitTag_open hend
      rw [List.append_cancel_right (splitTag_eq hend).symm] at hmem
      have hplain := hcl q hmem
      unfold isPlain at hplain
      rw [isQuote_of_openQuote hq] at hplain
      simp at hplain

/-- **A tag is recognised if and only if its attributes leave no quote open.** Let the attributes of
a tag be accepted and hold no bracket. Then they are spelled as the grammar says, and the tag is
read with just its command and its attributes, and what follows it is left, unless a quote is open
at the end of them. That can only be so where a word holds a quote. -/
theorem recognise_spelled (hm : markers.opening = some opening) (ho : opening ≠ "")
    (hop : Plain opening.toList) (hcl : ∀ closing ∈ markers.closing, Plain closing.toList)
    (hcmd : Plain command.toList) (hb : ∀ c ∈ text.head?, isBlank c) (hl : '<' ∉ text)
    (hg : '>' ∉ text) (ha : attributesOf text = .ok attrs) (position : Position)
    (rest : List Char) :
    (markers.recognise position (tagBody opening markers.closing command text ++ '>' :: rest) =
        .ok (.command (commandTag opening markers.closing command text attrs position) rest) ↔
      openQuote text = none) ∧
    (∃ blanks spelled forms, Blank blanks ∧ text = blanks ++ spelled ∧ Spelling spelled forms ∧
      attrs = forms.map AttributeForm.pair) ∧
    ∀ blanks spelled forms, Blank blanks → text = blanks ++ spelled → Spelling spelled forms →
      (∀ f ∈ forms, f.value.Unequivocal) → openQuote text = none := by
  have hcl : Plain (markers.closing.getD "").toList := by
    cases hc : markers.closing with
    | none => exact fun _ h => absurd h List.not_mem_nil
    | some closing => exact hcl closing hc
  refine ⟨⟨openQuote_of_recognise hm hop hcl hcmd hl hg, fun h => ?_⟩, exists_spelling ha, ?_⟩
  · have hn : Plain (opening.toList ++ command.toList) :=
      fun c hc => (List.mem_append.mp hc).elim (hop c) (hcmd c)
    exact markers.recognise_passes hm ho hn.nonblank hb ha
      (((Passes.plain hn).append (.of_openQuote h hl hg)).append (.plain hcl)) position rest
  · rintro blanks spelled forms hblanks rfl hs hv
    rw [openQuote_append (openQuote_quoteless hblanks.quoteless)]
    exact hs.openQuote hv

/-- A quoted value may hold the other quote, but a word with a quote in it hides its tag. -/
theorem quoteInWord_hides :
    let markers : Markers := ⟨some "!--#", some "--"⟩
    let quoted := [' ', 'a', '=', '\'', 'b', '"', 'c', '\'', ' ', 'h']
    let word := [' ', 'a', '=', 'b', '"', 'c']
    let recognised (text : List Char) (attrs : List (String × String)) : Prop :=
      markers.recognise .start (tagBody "!--#" (some "--") "x" text ++ ['>']) =
        .ok (.command (commandTag "!--#" (some "--") "x" text attrs .start) [])
    attributesOf word = .ok [("a", "b\"c")] ∧ recognised quoted [("a", "b\"c"), ("h", "")] ∧
      ¬ recognised word [("a", "b\"c")] := by
  intro markers quoted word recognised
  have hquoted : attributesOf quoted = .ok [("a", "b\"c"), ("h", "")] := by cbv
  have hword : attributesOf word = .ok [("a", "b\"c")] := by cbv
  have hblank : ∀ c ∈ some ' ', isBlank c := by
    intro c hc
    cases hc
    decide
  have hq := @recognise_spelled markers "!--#" "x" quoted _ rfl (by decide) (by decide)
    (by decide) (by decide) hblank (by decide) (by decide) hquoted .start []
  have hw := @recognise_spelled markers "!--#" "x" word _ rfl (by decide) (by decide)
    (by decide) (by decide) hblank (by decide) (by decide) hword .start []
  refine ⟨hword, hq.1.mpr rfl, fun h => ?_⟩
  exact absurd (hw.1.mp h) (by decide)

end Inlay
