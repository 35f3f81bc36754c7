import Mathlib.Data.List.TakeWhile
import Inlay.Proofs.Markup.TagEnd

set_option autoImplicit false

/-! # Reading by offsets

A text may be read by offsets into its bytes: what is looked for is found at an offset, and the
text is cut there. A cut goes astray if it does not lie within the text and on the boundary of a
character (`cut`). Here the readers of a tag are put this way, with the cuts that each of them
makes. No cut goes astray, whatever the text and the markers are, and each reader has the result of
the one that reads character by character (`attributesAt_eq`, `matchAt_eq`).
-/

namespace Inlay

/-! ## Cuts -/

/-- Why a reading by offsets stops: it cuts a text where there is no boundary between two
characters, or it refuses the text. -/
inductive Stop (ε : Type) where
  | astray (text : List Char) (offset : Nat)
  | refused (e : ε)

/-- A reading by offsets. -/
abbrev Reading (ε α : Type) := Except (Stop ε) α

namespace Reading

variable {ε δ α : Type}

/-- A result that was come to without cuts. -/
def ofResult (r : Except ε α) : Reading ε α := r.mapError .refused

/-- Take what a reading refuses for a result. -/
def caught (r : Reading ε α) : Reading δ (Except ε α) :=
  match r with
  | .ok a => .ok (.ok a)
  | .error (.refused e) => .ok (.error e)
  | .error (.astray text offset) => .error (.astray text offset)

theorem caught_ofResult (r : Except ε α) :
    (ofResult r).caught = (.ok r : Reading δ (Except ε α)) := by
  cases r <;> rfl

end Reading

/-- The text before an offset and the text from it on. -/
def splitBytes : Nat → List Char → List Char × List Char
  | 0, text => ([], text)
  | _ + 1, [] => ([], [])
  | n + 1, c :: text =>
    let (before, after) := splitBytes (n + 1 - c.utf8Size) text
    (c :: before, after)

theorem splitBytes_append (a b : List Char) : splitBytes (byteLength a) (a ++ b) = (a, b) := by
  induction a with
  | nil => rw [byteLength_nil, splitBytes, List.nil_append]
  | cons c a ih =>
      have hpos := c.utf8Size_pos
      obtain ⟨n, hn⟩ : ∃ n, c.utf8Size + byteLength a = n + 1 :=
        ⟨c.utf8Size + byteLength a - 1, by omega⟩
      rw [byteLength_cons, hn, List.cons_append, splitBytes]
      have hsub : n + 1 - c.utf8Size = byteLength a := by omega
      rw [hsub, ih]

section Cuts

variable {ε : Type}

/-- Cut a text in two at an offset, which has to lie within the text and on the boundary of a
character. -/
def cut (text : List Char) (offset : Nat) : Reading ε (List Char × List Char) :=
  if (String.Pos.Raw.mk offset).IsValid (String.ofList text) then .ok (splitBytes offset text)
  else .error (.astray text offset)

/-- The part of a text between two offsets. -/
def part (text : List Char) (start stop : Nat) : Reading ε (List Char) := do
  let (upTo, _) ← cut text stop
  let (_, part) ← cut upTo start
  return part

theorem cut_append (a b : List Char) :
    cut (a ++ b) (byteLength a) = (.ok (a, b) : Reading ε (List Char × List Char)) := by
  have hvalid : (String.Pos.Raw.mk (byteLength a)).IsValid (String.ofList (a ++ b)) :=
    String.Pos.Raw.isValid_iff_exists_append.mpr
      ⟨String.ofList a, String.ofList b, String.ofList_append, rfl⟩
  unfold cut
  rw [if_pos hvalid, splitBytes_append]

theorem part_append (a b c : List Char) :
    part (a ++ b ++ c) (byteLength a) (byteLength (a ++ b)) = (.ok b : Reading ε (List Char)) := by
  unfold part
  rw [cut_append]
  show (cut (a ++ b) (byteLength a) >>= _) = _
  rw [cut_append]
  rfl

end Cuts

/-- The offset of the first character with a property. -/
def offsetOf? (p : Char → Bool) : List Char → Option Nat
  | [] => none
  | c :: text => if p c then some 0 else (offsetOf? p text).map (c.utf8Size + ·)

theorem offsetOf?_append {p : Char → Bool} {run : List Char} (hrun : ∀ c ∈ run, p c = false)
    {c : Char} (hc : p c = true) (rest : List Char) :
    offsetOf? p (run ++ c :: rest) = some (byteLength run) := by
  induction run with
  | nil => rw [List.nil_append, offsetOf?, if_pos hc, byteLength_nil]
  | cons d run ih =>
      have hd : ¬ p d = true := by rw [hrun d List.mem_cons_self]; decide
      rw [List.cons_append, offsetOf?, if_neg hd,
        ih fun x hx => hrun x (List.mem_cons_of_mem _ hx), byteLength_cons]
      rfl

theorem offsetOf?_eq_none {p : Char → Bool} {text : List Char} (h : ∀ c ∈ text, p c = false) :
    offsetOf? p text = none := by
  induction text with
  | nil => rfl
  | cons d text ih =>
      have hd : ¬ p d = true := by rw [h d List.mem_cons_self]; decide
      rw [offsetOf?, if_neg hd, ih fun x hx => h x (List.mem_cons_of_mem _ hx)]
      rfl

/-- A text either has no character with a property, or falls into the text before the first one,
this one and the text after it. -/
theorem first_cases (p : Char → Bool) (text : List Char) :
    (∀ c ∈ text, p c = false) ∨
      ∃ run c rest, text = run ++ c :: rest ∧ (∀ d ∈ run, p d = false) ∧ p c = true := by
  induction text with
  | nil => exact .inl nofun
  | cons c text ih =>
      cases hc : p c with
      | true => exact .inr ⟨[], c, text, rfl, nofun, hc⟩
      | false =>
          rcases ih with h | ⟨run, d, rest, rfl, hrun, hd⟩
          · exact .inl (List.forall_mem_cons.mpr ⟨hc, h⟩)
          · exact .inr ⟨c :: run, d, rest, rfl, List.forall_mem_cons.mpr ⟨hc, hrun⟩, hd⟩

/-- The offset of the first character with a property, or else that of the end. -/
def offsetOrEnd (p : Char → Bool) (text : List Char) : Nat :=
  (offsetOf? p text).getD (byteLength text)

theorem offsetOrEnd_eq (p : Char → Bool) (text : List Char) :
    offsetOrEnd p text = byteLength (text.takeWhile (!p ·)) := by
  unfold offsetOrEnd
  rcases first_cases p text with h | ⟨run, c, rest, rfl, hrun, hc⟩
  · have htake : text.takeWhile (!p ·) = text :=
      List.takeWhile_eq_self_iff.mpr fun c hmem => by rw [h c hmem]; rfl
    rw [offsetOf?_eq_none h, Option.getD_none, htake]
  · have htake : (run ++ c :: rest).takeWhile (!p ·) = run :=
      (takeWhile_dropWhile_run (by simpa using hrun) (by simpa using hc)).1
    rw [offsetOf?_append hrun hc, Option.getD_some, htake]

theorem cut_offsetOrEnd {ε : Type} (p : Char → Bool) (text : List Char) :
    cut text (offsetOrEnd p text) =
      (.ok (text.takeWhile (!p ·), text.dropWhile (!p ·)) : Reading ε (List Char × List Char)) := by
  have hcut := cut_append (ε := ε) (text.takeWhile (!p ·)) (text.dropWhile (!p ·))
  rwa [List.takeWhile_append_dropWhile, ← offsetOrEnd_eq] at hcut

/-! ## Names and values -/

section Values

/-- Cut a body into the name of the tag and the attribute text. -/
def splitNameAt {ε : Type} (body : List Char) : Reading ε (List Char × List Char) :=
  cut body (offsetOrEnd isBlank body)

theorem splitNameAt_eq {ε : Type} (body : List Char) :
    splitNameAt body = (.ok (nameOf body, attributeTextOf body) : Reading ε _) :=
  cut_offsetOrEnd isBlank body

/-- The first sixteen characters of a text, or all of it if there are no more. -/
def excerptAt {ε : Type} (text : List Char) : Reading ε (List Char) :=
  if 16 < text.length then do
    let (head, _) ← cut text (byteLength (text.take 16))
    return head
  else return text

theorem excerptAt_eq {ε : Type} (text : List Char) :
    excerptAt text = (.ok (text.take 16) : Reading ε (List Char)) := by
  unfold excerptAt
  split
  · have hcut := cut_append (ε := ε) (text.take 16) (text.drop 16)
    rw [List.take_append_drop] at hcut
    rw [hcut]
    rfl
  · rename_i h
    rw [List.take_of_length_le (by omega)]
    rfl

/-- A quote takes one byte. -/
theorem byteLength_quote {c : Char} (h : isQuote c) : byteLength [c] = 1 := by
  rcases isQuote_cases h with rfl | rfl <;> decide +kernel

/-- Cut the text behind a quote into what stands before the next quote of its kind and what stands
behind that. -/
def quotedAt (key : String) (quote : Char) (inner : List Char) :
    Reading String (List Char × List Char) :=
  match offsetOf? (· == quote) inner with
  | none => .error (.refused (AttributeFault.unterminated key).message)
  | some stop => do
    let (value, _) ← cut inner stop
    let (_, rest) ← cut inner (stop + 1)
    return (value, rest)

/-- Cut a text into the value of an attribute that it begins with and the text after it. -/
def valueAt (key : String) (text : List Char) : Reading String (List Char × List Char) :=
  match text.head? with
  | none => .error (.refused (AttributeFault.noValue key).message)
  | some c =>
    if isQuote c then do
      let (_, inner) ← cut text 1
      quotedAt key c inner
    else cut text (offsetOrEnd isBlank text)

theorem quotedAt_eq (key : String) {quote : Char} (hq : isQuote quote) (inner : List Char) :
    quotedAt key quote inner = .ofResult (Except.mapError AttributeFault.message
      (match inner.dropWhile (· != quote) with
      | [] => .error (.unterminated key)
      | _ :: rest => .ok (inner.takeWhile (· != quote), rest))) := by
  unfold quotedAt
  rcases first_cases (· == quote) inner with h | ⟨run, c, rest, rfl, hrun, hc⟩
  · have hdrop : inner.dropWhile (· != quote) = [] :=
      List.dropWhile_eq_nil_iff.mpr fun c hmem => by rw [bne, h c hmem]; rfl
    rw [offsetOf?_eq_none h, hdrop]
    rfl
  · obtain rfl : c = quote := eq_of_beq hc
    obtain ⟨htake, hdrop⟩ : (run ++ c :: rest).takeWhile (· != c) = run ∧
        (run ++ c :: rest).dropWhile (· != c) = c :: rest :=
      takeWhile_dropWhile_run (by simpa using hrun) (by simp)
    -- the cut behind the quote is good because a quote takes one byte
    have hstop : byteLength run + 1 = byteLength (run ++ [c]) := by
      rw [byteLength_append, byteLength_quote hq]
    have hrest : cut (run ++ c :: rest) (byteLength run + 1) =
        (.ok (run ++ [c], rest) : Reading String _) := by
      rw [hstop]
      simpa using cut_append (ε := String) (run ++ [c]) rest
    rw [offsetOf?_append hrun hc, htake, hdrop]
    dsimp only
    rw [cut_append, hrest]
    rfl

theorem valueAt_eq (key : String) (text : List Char) :
    valueAt key text = .ofResult ((rawValue key text).mapError AttributeFault.message) := by
  cases text with
  | nil => rfl
  | cons c text =>
      unfold valueAt rawValue
      dsimp only [List.head?_cons]
      split
      · rename_i hq
        have hone : cut (c :: text) 1 = (.ok ([c], text) : Reading String _) := by
          rw [← byteLength_quote hq]
          exact cut_append [c] text
        rw [hone]
        exact quotedAt_eq key hq text
      · exact cut_offsetOrEnd isBlank (c :: text)

/-- Cut the text behind a key into its value, which is empty if there is no equals sign, and the
text after it. -/
def valueAfterKeyAt (key : String) (text : List Char) : Reading String (List Char × List Char) :=
  match skipBlanks text with
  | [] => .ok ([], [])
  | c :: rest => if c = '=' then valueAt key (skipBlanks rest) else .ok ([], c :: rest)

theorem valueAfterKeyAt_eq (key : String) (text : List Char) :
    valueAfterKeyAt key text =
      .ofResult ((valueAfterKey key text).mapError AttributeFault.message) := by
  unfold valueAfterKeyAt
  cases hs : skipBlanks text with
  | nil =>
      rw [valueAfterKey_bare key (by rw [hs]; nofun), hs]
      rfl
  | cons c rest =>
      dsimp only
      by_cases hc : c = '='
      · subst hc
        have hvalue : valueAfterKey key text = rawValue key (skipBlanks rest) := by
          unfold valueAfterKey
          rw [hs]
          rfl
        rw [if_pos rfl, valueAt_eq, hvalue]
      · have hbare : ∀ x ∈ (skipBlanks text).head?, x ≠ '=' := by
          rw [hs]
          intro x hx
          cases hx
          exact hc
        rw [if_neg hc, valueAfterKey_bare key hbare, hs]
        rfl

end Values

/-! ## Attributes -/

/-- Read the first attribute of a text: the attribute, and the text after it. -/
def firstAttribute (seen : List String) (text : List Char) :
    Except AttributeFault ((String × String) × List Char) :=
  let letters := text.takeWhile isKeyChar
  let key := String.ofList letters
  if letters = [] then .error (.nameless text)
  else if letters.any isQuote then .error (.quoteInKey key)
  else if key ∈ seen then .error (.duplicate key)
  else (valueAfterKey key (text.dropWhile isKeyChar)).map fun (value, rest) =>
    ((key, String.ofList (decodeEntities value)), rest)

theorem attributesFrom_eq (seen : List String) (source : List Char) :
    attributesFrom seen source =
      if skipBlanks source = [] then .ok []
      else firstAttribute seen (skipBlanks source) >>= fun x =>
        (attributesFrom (x.1.1 :: seen) x.2).map (x.1 :: ·) := by
  rw [attributesFrom]
  unfold firstAttribute
  dsimp only
  by_cases hs : skipBlanks source = []
  · rw [if_pos hs, if_pos (List.isEmpty_iff.mpr hs)]
  · rw [if_neg hs, if_neg (mt List.isEmpty_iff.mp hs)]
    split
    · rfl
    · split
      · rfl
      · split
        · rfl
        · split
          · rename_i fault hv
            rw [hv]
            rfl
          · rename_i value rest hv
            rw [hv]
            show _ = Except.map _ (attributesFrom _ rest)
            cases attributesFrom _ rest <;> rfl

theorem firstAttribute_length {seen : List String} {text rest : List Char} {pair : String × String}
    (h : firstAttribute seen text = .ok (pair, rest)) : rest.length < text.length := by
  unfold firstAttribute at h
  dsimp only at h
  split at h
  · cases h
  · rename_i hl
    split at h
    · cases h
    · split at h
      · cases h
      · cases hv : valueAfterKey (String.ofList (text.takeWhile isKeyChar))
            (text.dropWhile isKeyChar) with
        | error fault =>
            rw [hv] at h
            cases h
        | ok x =>
            rw [hv] at h
            cases h
            have hrest := valueAfterKey_length hv
            have hparts := congrArg List.length
              (List.takeWhile_append_dropWhile (p := isKeyChar) (l := text))
            have hletters := List.length_pos_iff.mpr hl
            rw [List.length_append] at hparts
            omega

/-- Cut a text into its first attribute and the text after it and its blanks. -/
def attributeAt (seen : List String) (text : List Char) :
    Reading String ((String × String) × List Char) := do
  let keyEnd := offsetOrEnd (fun c => isBlank c || c == '=') text
  if keyEnd = 0 then
    let near ← excerptAt text
    .error (.refused (AttributeFault.nameless near).message)
  else
    let (letters, afterKey) ← cut text keyEnd
    let key := String.ofList letters
    if letters.any isQuote then .error (.refused (AttributeFault.quoteInKey key).message)
    else if key ∈ seen then .error (.refused (AttributeFault.duplicate key).message)
    else
      let (value, rest) ← valueAfterKeyAt key afterKey
      return ((key, String.ofList (decodeEntities value)), skipBlanks rest)

/-- The message shows no more of a text than its excerpt. -/
theorem message_nameless_take (text : List Char) :
    (AttributeFault.nameless (text.take 16)).message = (AttributeFault.nameless text).message := by
  unfold AttributeFault.message
  dsimp only
  rw [List.take_take, Nat.min_self]

theorem isKeyChar_eq : isKeyChar = fun c => !(isBlank c || c == '=') := by
  funext c
  rw [isKeyChar, bne, Bool.not_or]

theorem attributeAt_eq (seen : List String) (text : List Char) :
    attributeAt seen text = .ofResult (((firstAttribute seen text).map fun x =>
      (x.1, skipBlanks x.2)).mapError AttributeFault.message) := by
  have hend : offsetOrEnd (fun c => isBlank c || c == '=') text =
      byteLength (text.takeWhile isKeyChar) := by
    rw [isKeyChar_eq]
    exact offsetOrEnd_eq _ text
  have hcut := cut_append (ε := String) (text.takeWhile isKeyChar) (text.dropWhile isKeyChar)
  rw [List.takeWhile_append_dropWhile] at hcut
  unfold attributeAt firstAttribute
  dsimp only
  rw [hend]
  by_cases hl : text.takeWhile isKeyChar = []
  · rw [if_pos hl, if_pos (byteLength_eq_zero.mpr hl), excerptAt_eq]
    show Except.error (Stop.refused (AttributeFault.nameless (text.take 16)).message) = _
    rw [message_nameless_take]
    rfl
  · rw [if_neg hl, if_neg (mt byteLength_eq_zero.mp hl), hcut]
    show (if _ then _ else _) = _
    split
    · rfl
    · split
      · rfl
      · rw [valueAfterKeyAt_eq]
        cases valueAfterKey _ (text.dropWhile isKeyChar) <;> rfl

theorem attributeAt_length {seen : List String} {text rest : List Char} {pair : String × String}
    (h : attributeAt seen text = .ok (pair, rest)) : rest.length < text.length := by
  rw [attributeAt_eq] at h
  cases hf : firstAttribute seen text with
  | error fault =>
      rw [hf] at h
      cases h
  | ok x =>
      rw [hf] at h
      cases h
      exact Nat.lt_of_le_of_lt (skipBlanks_length x.2) (firstAttribute_length hf)

/-- Read the attributes of a text that does not begin with a blank. -/
def attributesAt (seen : List String) (text : List Char) :
    Reading String (List (String × String)) :=
  if text.isEmpty then .ok []
  else
    match _h : attributeAt seen text with
    | .error e => .error e
    | .ok (pair, rest) => (attributesAt (pair.1 :: seen) rest).map (pair :: ·)
termination_by text.length
decreasing_by exact attributeAt_length _h

/-- An attribute is read, and then those after it. -/
theorem attributesAt_bind (seen : List String) (text : List Char) :
    attributesAt seen text =
      if text.isEmpty then .ok []
      else attributeAt seen text >>= fun x =>
        (attributesAt (x.1.1 :: seen) x.2).map (x.1 :: ·) := by
  rw [attributesAt]
  split
  · rfl
  · split
    · rename_i e h
      rw [h]
      rfl
    · rename_i pair rest h
      rw [h]
      rfl

/-- The attributes of a text are read alike by offsets and without them. -/
theorem attributesAt_eq (seen : List String) (source : List Char) :
    attributesAt seen (skipBlanks source) =
      .ofResult ((attributesFrom seen source).mapError AttributeFault.message) := by
  -- an attribute takes at least the letters of its key
  induction hn : source.length using Nat.strong_induction_on generalizing seen source with
  | _ n ih =>
    subst hn
    rw [attributesAt_bind, attributesFrom_eq]
    by_cases hs : skipBlanks source = []
    · rw [if_pos (List.isEmpty_iff.mpr hs), if_pos hs]
      rfl
    · rw [if_neg (mt List.isEmpty_iff.mp hs), if_neg hs, attributeAt_eq]
      cases hf : firstAttribute seen (skipBlanks source) with
      | error fault => rfl
      | ok x =>
          have hlt : x.2.length < source.length :=
            Nat.lt_of_lt_of_le (firstAttribute_length hf) (skipBlanks_length source)
          show (attributesAt (x.1.1 :: seen) (skipBlanks x.2)).map _ = _
          rw [ih _ hlt _ _ rfl]
          show _ = Reading.ofResult (((attributesFrom (x.1.1 :: seen) x.2).map _).mapError _)
          cases attributesFrom (x.1.1 :: seen) x.2 <;> rfl

/-! ## Tags -/

/-- The offset behind the bracket that closes a tag, looked for in a text that stands at `offset`
when the quote `quote` is open. -/
def tagEndFrom (quotes : Bool) : (quote : Option Char) → (offset : Nat) → List Char → Option Nat
  | _, _, [] => none
  | some q, offset, c :: text =>
    tagEndFrom quotes (if c == q then none else some q) (offset + c.utf8Size) text
  | none, offset, c :: text =>
    if quotes && isQuote c then tagEndFrom quotes (some c) (offset + c.utf8Size) text
    else if c == '>' then some (offset + 1)
    else if c == '<' then none
    else tagEndFrom quotes none (offset + c.utf8Size) text

theorem tagEndFrom_eq (quotes : Bool) (quote : Option Char) (offset : Nat) (text : List Char) :
    tagEndFrom quotes quote offset text =
      (splitTag quotes quote text).map fun s => offset + byteLength s.1 + 1 := by
  induction text generalizing quote offset with
  | nil => cases quote <;> rfl
  | cons c text ih =>
      -- the character is passed over, and the search goes on behind it
      have hpass (quote : Option Char) : tagEndFrom quotes quote (offset + c.utf8Size) text =
          ((splitTag quotes quote text).map fun s => (c :: s.1, s.2)).map
            fun s => offset + byteLength s.1 + 1 := by
        rw [ih, Option.map_map]
        congr 1
        funext s
        rw [Function.comp_apply, byteLength_cons, Nat.add_assoc offset]
      cases quote with
      | some q =>
          rw [tagEndFrom, splitTag]
          exact hpass _
      | none =>
          rw [tagEndFrom, splitTag]
          by_cases hq : (quotes && isQuote c) = true
          · obtain ⟨hg, hl⟩ : ¬ (c == '>') = true ∧ ¬ (c == '<') = true := by
              rcases isQuote_cases (Bool.and_eq_true_iff.mp hq).2 with rfl | rfl <;> decide
            rw [if_pos hq, if_neg hg, if_neg hl, if_pos hq]
            exact hpass _
          · rw [if_neg hq, if_neg hq]
            split
            · rfl
            · split
              · rfl
              · exact hpass _

/-- The offset behind the tag that a text begins with; its first character is taken for the bracket
that opens the tag. -/
def tagEnd? (quotes : Bool) : List Char → Option Nat
  | [] => none
  | c :: text => tagEndFrom quotes none c.utf8Size text

theorem byteLength_tag (body : List Char) :
    byteLength ('<' :: body ++ ['>']) = 1 + byteLength body + 1 := by
  rw [byteLength_append, byteLength_cons, byteLength_singleton]
  rfl

theorem tagEnd?_eq (quotes : Bool) (text : List Char) :
    tagEnd? quotes ('<' :: text) = tagLength? quotes text := by
  rw [tagEnd?, tagEndFrom_eq]
  unfold tagLength?
  simp only [byteLength_tag]
  rfl

/-- What stands at a `<`, with its length in bytes if it is a tag. -/
inductive Match where
  | noTag
  | markup (length : Nat)
  | command (tag : Tag) (length : Nat)

/-- The candidate by its length. -/
def Candidate.measured : Candidate → Match
  | .noTag => .noTag
  | .markup body _ => .markup (byteLength ('<' :: body ++ ['>']))
  | .command tag _ => .command tag (byteLength tag.source.toList)

namespace Markers

/-- Whether a text begins like a command tag. Its first byte is cut off for the opening marker. -/
def beginsAt (m : Markers) (input : List Char) : Reading TagError Bool :=
  match m.opening with
  | none => .ok true
  | some opening => do
    let (_, text) ← cut input 1
    return opening.toList.isPrefixOf text

/-- Make out the tag that is written as `source`, of which `inner` is the body without the closing
marker. -/
def matchInner (m : Markers) (position : Position) (source inner : List Char) (length : Nat) :
    Reading TagError Match := do
  let (name, attributeText) ← splitNameAt inner
  if name.isEmpty then return .noTag
  else match m.command? name with
    | none => return .markup length
    | some command =>
      let tag : Tag :=
        { name := String.ofList name, command, attrs := [], position
          source := String.ofList source }
      match ← (attributesAt [] (skipBlanks attributeText)).caught with
      | .error message => .error (.refused (tag.error ("malformed tag: " ++ message)))
      | .ok attrs => return .command { tag with attrs } length

/-- Make out what stands at the beginning of a text, which has to be a `<`. -/
def matchAt (m : Markers) (position : Position) (input : List Char) : Reading TagError Match := do
  match tagEnd? (← m.beginsAt input) input with
  | none => return .noTag
  | some length =>
    let (source, _) ← cut input length
    let body ← part source 1 (length - 1)
    match m.unclosed? body with
    | none => return .markup length
    | some inner => m.matchInner position source inner length

theorem beginsAt_eq (m : Markers) (text : List Char) :
    m.beginsAt ('<' :: text) = .ok (m.begins text) := by
  unfold beginsAt begins
  cases m.opening with
  | none => rfl
  | some opening =>
      have hone : cut ('<' :: text) 1 = (.ok (['<'], text) : Reading TagError _) :=
        cut_append ['<'] text
      dsimp only
      rw [hone]
      rfl

/-- At a `<` the same is made out by offsets as without them. -/
theorem matchAt_eq (m : Markers) (position : Position) (text : List Char) :
    m.matchAt position ('<' :: text) =
      .ofResult ((m.recognise position text).map Candidate.measured) := by
  unfold matchAt recognise
  rw [beginsAt_eq]
  show (match tagEnd? (m.begins text) ('<' :: text) with | none => _ | some length => _) = _
  rw [tagEnd?_eq]
  unfold tagLength?
  cases hs : splitTag (m.begins text) none text with
  | none => rfl
  | some s =>
      obtain ⟨body, rest⟩ := s
      have hsource : '<' :: text = ('<' :: body ++ ['>']) ++ rest := by
        rw [splitTag_eq hs]
        simp
      -- each bracket takes one byte, so the body is what the cuts leave of the tag
      have hlast : byteLength ('<' :: body ++ ['>']) - 1 = byteLength (['<'] ++ body) := by
        rw [byteLength_tag, Nat.add_sub_cancel, byteLength_append, byteLength_singleton]
        rfl
      have hbody : part ('<' :: body ++ ['>']) 1 (byteLength ('<' :: body ++ ['>']) - 1) =
          (.ok body : Reading TagError _) := by
        rw [hlast]
        exact part_append ['<'] body ['>']
      dsimp only [Option.map_some]
      rw [hsource, cut_append]
      show (part _ _ _ >>= _) = _
      rw [hbody]
      show (match m.unclosed? body with | none => _ | some inner => _) = _
      cases m.unclosed? body with
      | none => rfl
      | some inner =>
          dsimp only
          unfold matchInner
          rw [splitNameAt_eq]
          show (if _ then _ else _) = _
          split
          · rfl
          · cases m.command? (nameOf inner) with
            | none => rfl
            | some command =>
                dsimp only
                rw [attributesAt_eq, Reading.caught_ofResult]
                unfold attributesOf
                cases attributesFrom [] (attributeTextOf inner) with
                | error fault => rfl
                | ok attrs =>
                    exact congrArg (fun source => Except.ok (Match.command _ (byteLength source)))
                      String.toList_ofList.symm

end Markers

end Inlay
