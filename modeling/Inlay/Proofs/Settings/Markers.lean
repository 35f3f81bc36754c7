import Inlay.Proofs.Markup.Quotation
import Inlay.Proofs.Settings.Validity
import Mathlib.Data.String.Basic

set_option autoImplicit false

/-! # Configured markers

A marker that passes the check holds no blank and no bracket, but it may hold quotes, and these
count in the search for the end of a tag (`splitTag`). A tag without attributes is recognised by the
markers of valid settings if and only if the two markers together leave no quote open
(`recognise_configured`). So a marker with a single quote is accepted, and no tag that is written
with it is ever found, unless the other marker closes the quote.
-/

namespace Inlay

/-! ## Distinct keys -/

theorem mem_insertByKey {α : Type} {key k : String} {item : α} {table : List (String × α)} :
    k ∈ (insertByKey key item table).map Prod.fst ↔ k = key ∨ k ∈ table.map Prod.fst := by
  induction table with
  | nil => simp [insertByKey]
  | cons entry table ih =>
      obtain ⟨k', i'⟩ := entry
      unfold insertByKey
      split
      · simp
      · split
        · rename_i heq
          simp [heq]
        · rw [List.map_cons, List.mem_cons, ih, List.map_cons, List.mem_cons]
          exact or_left_comm

theorem insertByKey_ordered {α : Type} (key : String) (item : α) {table : List (String × α)}
    (h : (table.map Prod.fst).Pairwise (· < ·)) :
    ((insertByKey key item table).map Prod.fst).Pairwise (· < ·) := by
  induction table with
  | nil => exact List.pairwise_singleton _ _
  | cons entry table ih =>
      obtain ⟨k', i'⟩ := entry
      rw [List.map_cons, List.pairwise_cons] at h
      unfold insertByKey
      split
      · rename_i hlt
        rw [List.map_cons, List.map_cons, List.pairwise_cons, List.pairwise_cons]
        refine ⟨fun k hk => ?_, h⟩
        rcases List.mem_cons.mp hk with rfl | hk
        · exact hlt
        · exact hlt.trans (h.1 k hk)
      · split
        · rename_i heq
          rw [List.map_cons, List.pairwise_cons, heq]
          exact h
        · rename_i hlt hne
          have hgt : k' < key := lt_of_le_of_ne (not_lt.mp hlt) (Ne.symm hne)
          rw [List.map_cons, List.pairwise_cons]
          refine ⟨fun k hk => ?_, ih h.2⟩
          rcases mem_insertByKey.mp hk with rfl | hk
          · exact hgt
          · exact h.1 k hk

theorem orderedByKey_ordered {α : Type} (items : List (String × α)) :
    ((orderedByKey items).map Prod.fst).Pairwise (· < ·) := by
  have hfold : ∀ (items table : List (String × α)), (table.map Prod.fst).Pairwise (· < ·) →
      ((items.foldl (fun table i => insertByKey i.1 i.2 table) table).map Prod.fst).Pairwise
        (· < ·) := by
    intro items
    induction items with
    | nil => exact fun _ h => h
    | cons i items ih => exact fun _ h => ih _ (insertByKey_ordered i.1 i.2 h)
  exact hfold items [] List.Pairwise.nil

theorem tableField_ordered {α : Type} {read? : Toml.Value → Option α} {entries : Toml.Entries}
    {key : String} {table : List (String × α)} (h : tableField read? entries key = some table) :
    (table.map Prod.fst).Pairwise (· < ·) := by
  unfold tableField at h
  split at h
  · cases h
    exact List.Pairwise.nil
  · obtain ⟨items, -, h⟩ := Option.bind_eq_some_iff.mp h
    obtain ⟨items', -, rfl⟩ := Option.map_eq_some_iff.mp h
    exact orderedByKey_ordered items'

theorem Written.ofToml?_ordered {entries : Toml.Entries} {w : Written}
    (h : ofToml? entries = some w) :
    (w.commands.map Prod.fst).Pairwise (· < ·) ∧ (w.constants.map Prod.fst).Pairwise (· < ·) := by
  unfold ofToml? at h
  simp only [Option.bind_eq_bind, Option.bind_eq_some_iff] at h
  obtain ⟨_, -, _, -, _, -, _, -, _, -, _, -, _, hcommands, _, hconstants, h⟩ := h
  cases h
  exact ⟨tableField_ordered hcommands, tableField_ordered hconstants⟩

theorem keys_of_forall₂ {α : Type} {R : String × α → String × α → Prop}
    {items items' : List (String × α)}
    (h : List.Forall₂ (fun i i' => i'.1 = i.1 ∧ R i i') items items') :
    items'.map Prod.fst = items.map Prod.fst := by
  induction h with
  | nil => rfl
  | cons hi _ ih => rw [List.map_cons, List.map_cons, hi.1, ih]

/-- Whether no command and no constant of settings is given twice. -/
structure Settings.Distinct (s : Settings) : Prop where
  commands : (s.commands.map Prod.fst).Nodup
  constants : (s.constants.map Prod.fst).Nodup

/-- In settings that are loaded every key is given once. -/
theorem Settings.load_distinct {disk : Disk} {env : Environment} {file : Option Path}
    {overrides : Option Overrides} {s : Settings} (h : load disk env file overrides = .ok s) :
    s.Distinct := by
  obtain ⟨-, htraced⟩ := sound_of_load h
  unfold Traced at htraced
  split at htraced
  · obtain ⟨content, written, -, hw, hexpands⟩ := htraced
    obtain ⟨entries, -, hw⟩ := Option.bind_eq_some_iff.mp hw
    obtain ⟨hcommands, hconstants⟩ := Written.ofToml?_ordered hw
    constructor
    · rw [keys_of_forall₂ hexpands.commands]
      exact hcommands.imp ne_of_lt
    · rw [keys_of_forall₂ hexpands.constants]
      exact hconstants.imp ne_of_lt
  · obtain ⟨hcommands, hconstants⟩ := htraced
    constructor
    · rw [hcommands]
      exact List.nodup_nil
    · rw [hconstants]
      exact List.nodup_nil

/-! ## The markers of a registry -/

/-- The marker that a value sets; an empty one sets none. -/
def markerOf (value : String) : Option String := if value.isEmpty then none else some value

theorem markerOf_getD (value : String) : (markerOf value).getD "" = value := by
  unfold markerOf
  split
  · rename_i h
    exact (String.isEmpty_iff.mp h).symm
  · rfl

/-- The marker that a key sets. -/
def Markers.under (m : Markers) (key : String) : Option String :=
  if key = Key.opening then m.opening else m.closing

namespace Registry

/-- A setting sets the marker of its key, and no other. -/
theorem configure_under (r : Registry) (key value : String) {marker : String}
    (hm : isMarkerKey marker) : (r.configure key value).markers.under marker =
      if key = marker then markerOf value else r.markers.under marker := by
  have hne : Key.closing ≠ Key.opening := by decide
  unfold configure Markers.under
  rw [isMarkerKey_iff] at hm
  by_cases ho : key = Key.opening
  · rw [if_pos (beq_iff_eq.mpr ho), ho]
    rcases hm with rfl | rfl
    · rw [if_pos rfl, if_pos rfl]
      rfl
    · rw [if_neg hne, if_neg hne.symm, if_neg hne]
  · rw [if_neg (mt beq_iff_eq.mp ho)]
    by_cases hc : key = Key.closing
    · rw [if_pos (beq_iff_eq.mpr hc), hc]
      rcases hm with rfl | rfl
      · rw [if_pos rfl, if_neg hne, if_pos rfl]
      · rw [if_neg hne, if_pos rfl]
        rfl
    · rw [if_neg (mt beq_iff_eq.mp hc)]
      rcases hm with rfl | rfl
      · rw [if_neg ho]
        rfl
      · rw [if_neg hc]
        rfl

/-- Of settings with distinct keys each marker key sets its marker. -/
theorem foldl_configure_under {commands : List (String × String)} {marker value : String}
    (hd : (commands.map Prod.fst).Nodup) (hm : isMarkerKey marker)
    (h : (marker, value) ∈ commands) (r : Registry) :
    (commands.foldl (fun r c => r.configure c.1 c.2) r).markers.under marker = markerOf value := by
  have hkeep : ∀ (cs : List (String × String)) (r : Registry), marker ∉ cs.map Prod.fst →
      (cs.foldl (fun r c => r.configure c.1 c.2) r).markers.under marker =
        r.markers.under marker := by
    intro cs
    induction cs with
    | nil => exact fun _ _ => rfl
    | cons c cs ih =>
        intro r hn
        rw [List.map_cons, List.mem_cons, not_or] at hn
        rw [List.foldl_cons, ih _ hn.2, configure_under r _ _ hm, if_neg (Ne.symm hn.1)]
  induction commands generalizing r with
  | nil => cases h
  | cons c commands ih =>
      rw [List.map_cons, List.nodup_cons] at hd
      rw [List.foldl_cons]
      rcases List.mem_cons.mp h with rfl | h
      · rw [hkeep commands _ hd.1, configure_under r _ _ hm, if_pos rfl]
      · exact ih hd.2 h _

end Registry

theorem Settings.registry_under {s : Settings} {marker value : String}
    (hd : (s.commands.map Prod.fst).Nodup) (hm : isMarkerKey marker)
    (h : (marker, value) ∈ s.commands) : s.registry.markers.under marker = markerOf value := by
  have hconstants : ∀ (cs : List (String × Constant)) (r : Registry),
      (cs.foldl (fun r c => r.insert c.1 (.handler c.2.handler)) r).markers = r.markers := by
    intro cs
    induction cs with
    | nil => exact fun _ => rfl
    | cons c cs ih => exact fun r => ih _
  unfold Settings.registry
  rw [hconstants]
  exact Registry.foldl_configure_under hd hm h _

/-! ## Tags between markers with quotes -/

/-- A text without quotes leaves the quote open that was open before it. -/
theorem foldl_nextQuote_quoteless {text : List Char} (h : text.any isQuote = false)
    {quote : Option Char} (hq : ∀ q ∈ quote, isQuote q) : text.foldl nextQuote quote = quote := by
  cases quote with
  | none => exact openQuote_quoteless h
  | some q =>
      induction text with
      | nil => rfl
      | cons c text ih =>
          rw [List.any_cons, Bool.or_eq_false_iff] at h
          have hne : c ≠ q := by
            rintro rfl
            rw [hq c rfl] at h
            exact Bool.noConfusion h.1
          rw [List.foldl_cons, nextQuote_some, if_neg (mt eq_of_beq hne)]
          exact ih h.2

theorem openQuote_between {opening name closing : List Char} (h : name.any isQuote = false) :
    openQuote (opening ++ name ++ closing) = openQuote (opening ++ closing) := by
  have hname : name.foldl nextQuote (openQuote opening) = openQuote opening :=
    foldl_nextQuote_quoteless h fun q hq => isQuote_of_openQuote hq
  unfold openQuote at hname ⊢
  rw [List.foldl_append, List.foldl_append, hname, List.foldl_append]

/-- The tag of a command without attributes between markers without blanks and brackets is
recognised if and only if the markers leave no quote open. -/
theorem recognise_bare {markers : Markers} {opening : String} (hm : markers.opening = some opening)
    (ho : opening ≠ "")
    (hop : ∀ x ∈ opening.toList, isBlank x = false ∧ x ≠ '<' ∧ x ≠ '>')
    (hcl : ∀ x ∈ (markers.closing.getD "").toList, isBlank x = false ∧ x ≠ '<' ∧ x ≠ '>')
    {name : String} (hn : Plain name.toList) (position : Position) (rest : List Char) :
    markers.recognise position (tagBody opening markers.closing name [] ++ '>' :: rest) =
        .ok (.command (commandTag opening markers.closing name [] [] position) rest) ↔
      openQuote (opening.toList ++ (markers.closing.getD "").toList) = none := by
  have hbody : tagBody opening markers.closing name [] =
      opening.toList ++ name.toList ++ (markers.closing.getD "").toList := by
    unfold tagBody
    rw [List.append_nil]
  have hopen : openQuote (tagBody opening markers.closing name []) =
      openQuote (opening.toList ++ (markers.closing.getD "").toList) := by
    rw [hbody, openQuote_between hn.quoteless]
  have hbrackets : ∀ x ∈ tagBody opening markers.closing name [], x ≠ '<' ∧ x ≠ '>' := by
    intro x hx
    rw [hbody, List.mem_append, List.mem_append] at hx
    rcases hx with (hx | hx) | hx
    · exact (hop x hx).2
    · have hp := hn x hx
      simp only [isPlain, Bool.and_eq_true, bne_iff_ne] at hp
      exact ⟨hp.1.2, hp.2⟩
    · exact (hcl x hx).2
  have hl : '<' ∉ tagBody opening markers.closing name [] := fun hx => (hbrackets _ hx).1 rfl
  have hg : '>' ∉ tagBody opening markers.closing name [] := fun hx => (hbrackets _ hx).2 rfl
  rw [← hopen]
  constructor
  · intro h
    -- with a quote open the search goes on beyond the bracket, and finds the quote once more
    obtain ⟨body, hs⟩ := Markers.splitTag_of_recognise h
    rw [Markers.begins_tagBody hm, splitTag_append hl hg] at hs
    obtain ⟨⟨tail, rest'⟩, hend, heq⟩ := Option.map_eq_some_iff.mp hs
    obtain rfl : rest' = rest := congrArg Prod.snd heq
    have htail : tail = [] := by
      have hlen := congrArg List.length (splitTag_eq hend)
      rw [List.length_append] at hlen
      exact List.eq_nil_of_length_eq_zero (by omega)
    cases hq : openQuote (tagBody opening markers.closing name []) with
    | none => rfl
    | some q =>
        unfold openQuote at hq
        rw [hq] at hend
        have hmem := mem_of_splitTag_open hend
        rw [htail] at hmem
        cases hmem
  · intro h
    have hblank : ∀ x ∈ opening.toList ++ name.toList, (!isBlank x) = true := by
      intro x hx
      rcases List.mem_append.mp hx with hx | hx
      · rw [(hop x hx).1]
        rfl
      · exact hn.nonblank x hx
    exact markers.recognise_passes hm ho hblank (by simp) (attributesFrom_nil [])
      (Passes.of_openQuote h hl hg) position rest

namespace Settings

/-- **The markers of valid settings work if and only if together they leave no quote open**, as is
certain where they hold none. Then the tag of any command is recognised, whatever follows it. -/
theorem recognise_configured {s : Settings} (h : s.fault? = none)
    (hd : (s.commands.map Prod.fst).Nodup) {opening closing : String}
    (ho : (Key.opening, opening) ∈ s.commands) (hne : opening ≠ "")
    (hc : (Key.closing, closing) ∈ s.commands) {name : String} (hn : Plain name.toList)
    (position : Position) (rest : List Char) :
    let body := opening.toList ++ name.toList ++ closing.toList
    let tag : Tag := { name := opening ++ name, command := some name, attrs := [], position
                       source := String.ofList ('<' :: body ++ ['>']) }
    (s.registry.markers.recognise position (body ++ '>' :: rest) = .ok (.command tag rest) ↔
        openQuote (opening.toList ++ closing.toList) = none) ∧
      ((opening.toList ++ closing.toList).any isQuote = false →
        openQuote (opening.toList ++ closing.toList) = none) := by
  have hsound := (fault?_eq_none_iff s).mp h
  have hopening : s.registry.markers.opening = some opening := by
    have hm := registry_under hd ((isMarkerKey_iff _).mpr (.inl rfl)) ho
    unfold Markers.under markerOf at hm
    rwa [if_pos rfl, if_neg (by rwa [String.isEmpty_iff])] at hm
  have hclosing : s.registry.markers.closing.getD "" = closing := by
    have hm := registry_under hd ((isMarkerKey_iff _).mpr (.inr rfl)) hc
    unfold Markers.under at hm
    rw [if_neg (by decide)] at hm
    rw [hm, markerOf_getD]
  have hop := (hsound.commands _ ho).marker (.inl rfl)
  have hcl := (hsound.commands _ hc).marker (.inr rfl)
  rw [← hclosing] at hcl
  have hbare := recognise_bare hopening hne hop hcl hn position rest
  simp only [commandTag, tagBody, List.append_nil, hclosing] at hbare
  exact ⟨hbare, openQuote_quoteless⟩

/-- Settings in which the opening marker is a quote. -/
def quoteMarked : Settings where
  commands := [(Key.opening, "\""), (Key.closing, "--"), ("x", "drop")]

/-- A quote is a marker that settings may have, and the tag that is written with it is not found. -/
theorem quoteMarked_hides : quoteMarked.fault? = none ∧
    quoteMarked.registry.markers.recognise ⟨1, 1⟩ ['"', 'x', '-', '-', '>'] ≠
      .ok (.command { name := "\"x", command := some "x", attrs := [], position := ⟨1, 1⟩
                      source := "<\"x-->" } []) := by
  have hvalid : quoteMarked.fault? = none := by decide +kernel
  have hd : (quoteMarked.commands.map Prod.fst).Nodup := by decide +kernel
  have hplain : Plain "x".toList := by decide +kernel
  have hopen : openQuote ("\"".toList ++ "--".toList) ≠ none := by decide +kernel
  refine ⟨hvalid, fun h => hopen ?_⟩
  exact (recognise_configured hvalid hd List.mem_cons_self (by decide)
    (List.mem_cons_of_mem _ List.mem_cons_self) hplain ⟨1, 1⟩ []).1.mp h

end Settings

end Inlay
