import Inlay.Markup.Candidate
import Inlay.Proofs.Markup.Escape

set_option autoImplicit false

/-! # Tags as they are written

A command with attributes is written as a tag between the markers, its values in double quotes
(`TagForm.written`). Reading the tag brings the command and the attributes back, whatever follows it
(`recognise_written`): the search for the end passes over the name and over each quoted value, the
markers come off, and the attributes are read one after another.
-/

namespace Inlay

/-! ## Written tags -/

/-- Whether a character has no meaning of its own in a tag: it is no blank, quote or bracket. -/
def isPlain (c : Char) : Bool := !isBlank c && !isQuote c && c != '<' && c != '>'

/-- Whether all characters of a text are plain. -/
def Plain (text : List Char) : Prop := ∀ c ∈ text, isPlain c

instance (text : List Char) : Decidable (Plain text) :=
  decidable_of_iff (text.all isPlain = true) List.all_eq_true

/-- A command with its attributes. -/
structure TagForm where
  command : String
  attrs : List (String × String)

/-- How an attribute is written. -/
def writtenAttribute (a : String × String) : List Char :=
  ' ' :: a.1.toList ++ '=' :: '"' :: escape a.2.toList ++ ['"']

/-- How the attributes are written. -/
def writtenAttributes (attrs : List (String × String)) : List Char := attrs.flatMap writtenAttribute

namespace TagForm

/-- Whether a tag may be written: its words are plain, and its keys are not empty, without an equals
sign and distinct. The values may be anything. -/
structure WellFormed (f : TagForm) : Prop where
  command : Plain f.command.toList
  keys : ∀ a ∈ f.attrs, a.1 ≠ "" ∧ Plain a.1.toList ∧ '=' ∉ a.1.toList
  distinct : (f.attrs.map Prod.fst).Nodup

/-- What stands between the brackets of a tag, less the closing marker. -/
def inner (opening : String) (f : TagForm) : List Char :=
  opening.toList ++ f.command.toList ++ writtenAttributes f.attrs

/-- What stands between the brackets of a tag. -/
def body (opening : String) (closing : Option String) (f : TagForm) : List Char :=
  f.inner opening ++ (closing.getD "").toList

/-- How a tag is written. -/
def written (opening : String) (closing : Option String) (f : TagForm) : List Char :=
  '<' :: f.body opening closing ++ ['>']

/-- The tag that is read. -/
def tag (opening : String) (closing : Option String) (f : TagForm) (position : Position) : Tag where
  name := opening ++ f.command
  command := some f.command
  attrs := f.attrs
  position := position
  source := String.ofList (f.written opening closing)

end TagForm

/-! ## The end of a written tag -/

/-- Whether the search for the end of a tag passes over a text, in which it is outside of quotes
before and after. -/
def Passes (quotes : Bool) (passed : List Char) : Prop :=
  ∀ text, splitTag quotes none (passed ++ text) =
    (splitTag quotes none text).map fun s => (passed ++ s.1, s.2)

namespace Passes

variable {quotes : Bool}

theorem nil : Passes quotes [] := by
  intro text
  simp

theorem append {a b : List Char} (ha : Passes quotes a) (hb : Passes quotes b) :
    Passes quotes (a ++ b) := by
  intro text
  rw [List.append_assoc, ha, hb, Option.map_map]
  simp [Function.comp_def]

theorem cons {c : Char} (hq : isQuote c = false) (hl : c ≠ '<') (hg : c ≠ '>') {a : List Char}
    (ha : Passes quotes a) : Passes quotes (c :: a) := by
  intro text
  rw [List.cons_append, splitTag, if_neg (by simpa using hg), if_neg (by simpa using hl), hq,
    Bool.and_false, if_neg Bool.false_ne_true, ha, Option.map_map]
  rfl

theorem plain {text : List Char} (h : Plain text) : Passes quotes text := by
  induction text with
  | nil => exact nil
  | cons c text ih =>
      have hc := h c List.mem_cons_self
      simp only [isPlain, Bool.and_eq_true, Bool.not_eq_true', bne_iff_ne] at hc
      exact cons hc.1.1.2 hc.1.2 hc.2 (ih fun x hx => h x (List.mem_cons_of_mem _ hx))

/-- Between two quotes of one kind everything is passed over. -/
theorem splitTag_quoted {quote : Char} {value : List Char} (h : quote ∉ value)
    (text : List Char) : splitTag quotes (some quote) (value ++ quote :: text) =
      (splitTag quotes none text).map fun s => (value ++ quote :: s.1, s.2) := by
  induction value with
  | nil => rw [List.nil_append, splitTag, if_pos (beq_self_eq_true quote)]; rfl
  | cons c value ih =>
      rw [List.mem_cons, not_or] at h
      have hc : (c == quote) = false := by simpa using Ne.symm h.1
      rw [List.cons_append, splitTag, hc, if_neg Bool.false_ne_true, ih h.2, Option.map_map]
      rfl

theorem quoted {quote : Char} {value : List Char} (hq : isQuote quote) (h : quote ∉ value) :
    Passes true (quote :: value ++ [quote]) := by
  intro text
  have hg : (quote == '>') = false := by rcases isQuote_cases hq with rfl | rfl <;> decide
  have hl : (quote == '<') = false := by rcases isQuote_cases hq with rfl | rfl <;> decide
  rw [List.cons_append, List.cons_append, List.append_assoc, List.singleton_append, splitTag, hg,
    if_neg Bool.false_ne_true, hl, if_neg Bool.false_ne_true, hq, if_pos (by decide),
    splitTag_quoted h, Option.map_map]
  simp [Function.comp_def]

theorem writtenAttribute {a : String × String} (h : Plain a.1.toList) :
    Passes true (writtenAttribute a) := by
  have he : Inlay.writtenAttribute a =
      ' ' :: (a.1.toList ++ '=' :: ('"' :: escape a.2.toList ++ ['"'])) := by
    simp [Inlay.writtenAttribute]
  rw [he]
  refine cons (by decide) (by decide) (by decide) ((plain h).append ?_)
  exact cons (by decide) (by decide) (by decide)
    (quoted (by decide) fun h => escape_quoteless _ _ h rfl)

theorem writtenAttributes {attrs : List (String × String)} (h : ∀ a ∈ attrs, Plain a.1.toList) :
    Passes true (writtenAttributes attrs) := by
  induction attrs with
  | nil => exact nil
  | cons a attrs ih =>
      refine (writtenAttribute (h a List.mem_cons_self)).append ?_
      exact ih fun x hx => h x (List.mem_cons_of_mem _ hx)

/-- A tag ends where the text that is passed over is followed by its bracket. -/
theorem splitTag {body : List Char} (h : Passes quotes body) (rest : List Char) :
    splitTag quotes none (body ++ '>' :: rest) = some (body, rest) := by
  rw [h, Inlay.splitTag, if_pos (by decide)]
  simp

end Passes

/-! ## The attributes of a written tag -/

theorem Plain.nonblank {text : List Char} (h : Plain text) : ∀ c ∈ text, (!isBlank c) = true := by
  intro c hc
  have hp := h c hc
  simp only [isPlain, Bool.and_eq_true] at hp
  exact hp.1.1.1

theorem Plain.quoteless {text : List Char} (h : Plain text) : text.any isQuote = false := by
  rw [List.any_eq_false]
  intro c hc
  have hp := h c hc
  simp only [isPlain, Bool.and_eq_true, Bool.not_eq_true'] at hp
  rw [hp.1.1.2]
  decide

theorem skipBlanks_written {key : List Char} (hn : key ≠ []) (hp : Plain key) (text : List Char) :
    skipBlanks (' ' :: (key ++ text)) = key ++ text := by
  cases key with
  | nil => exact absurd rfl hn
  | cons c key =>
      have hc : isBlank c = false := by simpa using hp.nonblank c List.mem_cons_self
      unfold skipBlanks
      rw [List.dropWhile_cons_of_pos (by decide), List.cons_append,
        List.dropWhile_cons_of_neg (by rw [hc]; decide)]

theorem valueAfterKey_written (key : String) {value : List Char} (h : ∀ c ∈ value, c ≠ '"')
    (text : List Char) :
    valueAfterKey key ('=' :: '"' :: (value ++ '"' :: text)) = .ok (value, text) := by
  have hv : ∀ c ∈ value, (c != '"') = true := fun c hc => bne_iff_ne.mpr (h c hc)
  -- neither the equals sign nor the quote is a blank, so no blank is skipped
  show rawValue key ('"' :: (value ++ '"' :: text)) = _
  rw [rawValue, if_pos (by decide), List.dropWhile_append_of_pos hv,
    List.takeWhile_append_of_pos hv, List.dropWhile_cons_of_neg (by decide),
    List.takeWhile_cons_of_neg (by decide), List.append_nil]

/-- A written attribute is read, and the rest after it. -/
theorem attributesFrom_cons {seen : List String} {a : String × String} (hn : a.1 ≠ "")
    (hp : Plain a.1.toList) (he : '=' ∉ a.1.toList) (hs : a.1 ∉ seen) (text : List Char) :
    attributesFrom seen (writtenAttribute a ++ text) =
      (attributesFrom (a.1 :: seen) text).map (a :: ·) := by
  have hne : a.1.toList ≠ [] := fun h => hn (String.toList_inj.mp h)
  have hk : ∀ c ∈ a.1.toList, isKeyChar c = true := by
    intro c hc
    unfold isKeyChar
    rw [hp.nonblank c hc, Bool.true_and, bne_iff_ne]
    rintro rfl
    exact he hc
  have hw : skipBlanks (writtenAttribute a ++ text) =
      a.1.toList ++ '=' :: '"' :: (escape a.2.toList ++ '"' :: text) := by
    rw [← skipBlanks_written hne hp]
    simp [writtenAttribute]
  -- the key ends at its equals sign, and the value at the second quote
  have hend : ∀ c ∈ ('=' :: '"' :: (escape a.2.toList ++ '"' :: text)).head?,
      isKeyChar c = false := by
    intro c hc
    cases hc
    decide
  have h := attributesFrom_read hw hne hk hp.quoteless hend (by rwa [String.ofList_toList])
    (valueAfterKey_written _ (escape_quoteless a.2.toList) text)
  rw [decodeEntities_escape, String.ofList_toList, String.ofList_toList] at h
  exact h

theorem attributesFrom_nil (seen : List String) : attributesFrom seen [] = .ok [] := by
  rw [attributesFrom]
  rfl

/-- Written attributes with distinct keys are read as they were. -/
theorem attributesFrom_written {seen : List String} {attrs : List (String × String)}
    (hk : ∀ a ∈ attrs, a.1 ≠ "" ∧ Plain a.1.toList ∧ '=' ∉ a.1.toList)
    (hd : (attrs.map Prod.fst).Nodup) (hs : ∀ a ∈ attrs, a.1 ∉ seen) :
    attributesFrom seen (writtenAttributes attrs) = .ok attrs := by
  induction attrs generalizing seen with
  | nil => exact attributesFrom_nil seen
  | cons a attrs ih =>
      obtain ⟨hn, hp, he⟩ := hk a List.mem_cons_self
      rw [List.map_cons, List.nodup_cons] at hd
      -- the keys seen grow by one, which is not among the others
      have hs' : ∀ b ∈ attrs, b.1 ∉ a.1 :: seen := by
        intro b hb
        rw [List.mem_cons, not_or]
        refine ⟨fun hab => hd.1 ?_, hs b (List.mem_cons_of_mem _ hb)⟩
        rw [← hab]
        exact List.mem_map_of_mem hb
      rw [writtenAttributes, List.flatMap_cons,
        attributesFrom_cons hn hp he (hs a List.mem_cons_self)]
      have h := ih (fun b hb => hk b (List.mem_cons_of_mem _ hb)) hd.2 hs'
      rw [writtenAttributes] at h
      rw [h]
      rfl

/-! ## Recognition -/

/-- What stands between the brackets of a tag with the given command and attribute text. -/
def tagBody (opening : String) (closing : Option String) (command : String) (text : List Char) :
    List Char :=
  opening.toList ++ command.toList ++ text ++ (closing.getD "").toList

/-- The tag with the given command and attribute text, of which the attributes were read. -/
def commandTag (opening : String) (closing : Option String) (command : String) (text : List Char)
    (attrs : List (String × String)) (position : Position) : Tag where
  name := opening ++ command
  command := some command
  attrs := attrs
  position := position
  source := String.ofList ('<' :: tagBody opening closing command text ++ ['>'])

namespace Markers

variable {markers : Markers} {opening : String}

theorem unclosed?_append (markers : Markers) (inner : List Char) :
    markers.unclosed? (inner ++ (markers.closing.getD "").toList) = some inner := by
  unfold unclosed?
  cases markers.closing with
  | none => simp
  | some closing =>
      dsimp only [Option.getD_some]
      unfold withoutTail?
      rw [if_pos (List.isSuffixOf_iff_suffix.mpr (List.suffix_append _ _)), List.length_append,
        Nat.add_sub_cancel, List.take_left]

/-- The name of a tag ends at the blank that its attributes begin with. -/
theorem nameOf_append {name text : List Char} (h : ∀ c ∈ name, (!isBlank c) = true)
    (ht : ∀ c ∈ text.head?, isBlank c) :
    nameOf (name ++ text) = name ∧ attributeTextOf (name ++ text) = text := by
  unfold nameOf attributeTextOf
  rw [List.takeWhile_append_of_pos h, List.dropWhile_append_of_pos h]
  cases text with
  | nil => exact ⟨List.append_nil _, rfl⟩
  | cons c text =>
      have hc : (!isBlank c) = false := by simpa using ht c rfl
      rw [List.takeWhile_cons_of_neg (by rw [hc]; decide),
        List.dropWhile_cons_of_neg (by rw [hc]; decide)]
      exact ⟨List.append_nil _, rfl⟩

theorem begins_tagBody (hm : markers.opening = some opening) (closing : Option String)
    (command : String) (text rest : List Char) :
    markers.begins (tagBody opening closing command text ++ rest) = true := by
  unfold begins tagBody
  rw [hm]
  simp

/-- A tag is read if its name holds no blank, its attributes follow one, and the search for its end
passes over it. -/
theorem recognise_passes (hm : markers.opening = some opening) (ho : opening ≠ "")
    {command : String} (hn : ∀ c ∈ opening.toList ++ command.toList, (!isBlank c) = true)
    {text : List Char} (ht : ∀ c ∈ text.head?, isBlank c) {attrs : List (String × String)}
    (ha : attributesOf text = .ok attrs)
    (hp : Passes true (tagBody opening markers.closing command text)) (position : Position)
    (rest : List Char) :
    markers.recognise position (tagBody opening markers.closing command text ++ '>' :: rest) =
      .ok (.command (commandTag opening markers.closing command text attrs position) rest) := by
  have hcmd : markers.command? (opening.toList ++ command.toList) = some (some command) := by
    unfold command? withoutHead?
    rw [hm]
    simp
  have hu : markers.unclosed? (tagBody opening markers.closing command text) =
      some (opening.toList ++ command.toList ++ text) := unclosed?_append markers _
  obtain ⟨hname, htext⟩ := nameOf_append hn ht
  -- the end, the closing marker, the name and the attributes, in this order
  refine recognise_eq_command.mpr ⟨_, _, some command, attrs, ?_, hu, ?_, ?_, ?_, ?_⟩
  · rw [begins_tagBody hm, hp.splitTag]
  · rw [hname]
    exact fun h => ho (String.toList_inj.mp (List.append_eq_nil_iff.mp h).1)
  · rw [hname, hcmd]
  · rw [htext, ha]
  · rw [hname, String.ofList_append, String.ofList_toList, String.ofList_toList]
    rfl

end Markers

namespace TagForm

variable {opening : String} {closing : Option String} {f : TagForm}

theorem passes_body (ho : Plain opening.toList) (hc : Plain (closing.getD "").toList)
    (hf : f.WellFormed) : Passes true (f.body opening closing) :=
  (((Passes.plain ho).append (.plain hf.command)).append
    (.writtenAttributes fun a ha => (hf.keys a ha).2.1)).append (.plain hc)

/-- Written attributes begin with a blank. -/
theorem head?_writtenAttributes (attrs : List (String × String)) :
    ∀ c ∈ (writtenAttributes attrs).head?, isBlank c := by
  cases attrs with
  | nil => exact nofun
  | cons a attrs =>
      intro c hc
      have he : (writtenAttributes (a :: attrs)).head? = some ' ' := rfl
      rw [he] at hc
      cases hc
      decide

/-- **A written tag is read back**, whatever follows it. -/
theorem recognise_written {markers : Markers} (hm : markers.opening = some opening)
    (ho : opening ≠ "") (hop : Plain opening.toList)
    (hc : Plain (markers.closing.getD "").toList) (hf : f.WellFormed) (position : Position)
    (rest : List Char) :
    markers.recognise position (f.body opening markers.closing ++ '>' :: rest) =
      .ok (.command (f.tag opening markers.closing position) rest) := by
  have hn : Plain (opening.toList ++ f.command.toList) :=
    fun c h => (List.mem_append.mp h).elim (hop c) (hf.command c)
  have ha : attributesOf (writtenAttributes f.attrs) = .ok f.attrs :=
    attributesFrom_written hf.keys hf.distinct fun _ _ => List.not_mem_nil
  exact Markers.recognise_passes hm ho hn.nonblank (head?_writtenAttributes f.attrs) ha
    (passes_body hop hc hf) position rest

end TagForm

end Inlay
