import Inlay.Markup.Attribute
import Inlay.Markup.Tag

set_option autoImplicit false

/-! # Candidates for tags

What stands at a `<` of the source. Two markers tell command tags from other markup: the opening
marker begins a command tag's name and the closing marker ends its body. In a tag that begins like
a command tag, quoted text may hold `<` and `>`. Elsewhere quotes mean nothing, so an apostrophe in
a comment hides no tag after it.
-/

namespace Inlay

/-- The markers of command tags. Without an opening marker every tag is one; without a closing
marker no tag needs one. -/
structure Markers where
  opening : Option String
  closing : Option String
  deriving DecidableEq, Repr, Inhabited

/-- What a `<` of the source begins. -/
inductive Candidate where
  /-- Nothing shaped like a tag: the `<` is text. -/
  | noTag
  /-- Markup of another kind, which is text: what stands between its brackets, and what follows. -/
  | markup (body rest : List Char)
  /-- A command tag, and what follows. -/
  | command (tag : Tag) (rest : List Char)
  deriving DecidableEq, Repr

/-! ## The end of a tag -/

/-- The body of a tag whose `<` has been read and the text after its `>`. A tag is not closed when
another `<` or the end of the text comes first. In a text with quoted values, the brackets between
two quotes of one kind do not count; `quote` is the quote that is open. -/
def splitTag (quotes : Bool) : (quote : Option Char) → List Char → Option (List Char × List Char)
  | _, [] => none
  | some q, c :: rest =>
    (splitTag quotes (if c == q then none else some q) rest).map fun s => (c :: s.1, s.2)
  | none, c :: rest =>
    if c == '>' then some ([], rest)
    else if c == '<' then none
    else (splitTag quotes (if quotes && isQuote c then some c else none) rest).map
      fun s => (c :: s.1, s.2)

theorem splitTag_eq {quotes : Bool} {quote : Option Char} {text body rest : List Char}
    (h : splitTag quotes quote text = some (body, rest)) : text = body ++ '>' :: rest := by
  induction text generalizing quote body with
  | nil => cases quote <;> simp [splitTag] at h
  | cons c text ih =>
    cases quote with
    | some q =>
      simp only [splitTag, Option.map_eq_some_iff, Prod.exists, Prod.mk.injEq] at h
      obtain ⟨b, r, hs, rfl, rfl⟩ := h
      rw [ih hs, List.cons_append]
    | none =>
      simp only [splitTag] at h
      split at h
      · rename_i hc
        simp only [Option.some.injEq, Prod.mk.injEq] at h
        rw [← h.1, ← h.2, eq_of_beq hc, List.nil_append]
      · split at h
        · cases h
        · simp only [Option.map_eq_some_iff, Prod.exists, Prod.mk.injEq] at h
          obtain ⟨b, r, hs, rfl, rfl⟩ := h
          rw [ih hs, List.cons_append]

/-! ## Recognition -/

/-- The text without a given beginning. -/
def withoutHead? (head text : List Char) : Option (List Char) :=
  if head.isPrefixOf text then some (text.drop head.length) else none

/-- The text without a given end. -/
def withoutTail? (tail text : List Char) : Option (List Char) :=
  if tail.isSuffixOf text then some (text.take (text.length - tail.length)) else none

/-- The name of a tag: its body up to the first blank. -/
def nameOf (body : List Char) : List Char := body.takeWhile (!isBlank ·)

/-- The attribute text of a tag: its body from the first blank on. -/
def attributeTextOf (body : List Char) : List Char := body.dropWhile (!isBlank ·)

namespace Markers

/-- Whether the text after a `<` begins like a command tag, so that quotes count in it. -/
def begins (m : Markers) (text : List Char) : Bool :=
  match m.opening with
  | none => true
  | some opening => opening.toList.isPrefixOf text

/-- The body of a tag without the closing marker, if it ends in one. -/
def unclosed? (m : Markers) (body : List Char) : Option (List Char) :=
  match m.closing with
  | none => some body
  | some closing => withoutTail? closing.toList body

/-- The command that a tag's name stands for: absent when no opening marker is set, and nothing at
all when the name lacks the marker. -/
def command? (m : Markers) (name : List Char) : Option (Option String) :=
  match m.opening with
  | none => some none
  | some opening => (withoutHead? opening.toList name).map fun c => some (String.ofList c)

/-- What the `<` before `text` begins. -/
def recognise (m : Markers) (position : Position) (text : List Char) : Except TagError Candidate :=
  match splitTag (m.begins text) none text with
  | none => .ok .noTag
  | some (body, rest) =>
    match m.unclosed? body with
    | none => .ok (.markup body rest)
    | some inner =>
      let name := nameOf inner
      -- without a name only the bracket is passed, so that a tag may begin in what follows
      if name.isEmpty then .ok .noTag
      else match m.command? name with
        | none => .ok (.markup body rest)
        | some command =>
          -- a malformed tag is named too, before it has attributes
          let tag : Tag :=
            { name := String.ofList name, command, attrs := [], position
              source := String.ofList ('<' :: body ++ ['>']) }
          match attributesOf (attributeTextOf inner) with
          | .error fault => .error (tag.error ("malformed tag: " ++ fault.message))
          | .ok attrs => .ok (.command { tag with attrs } rest)

theorem recognise_markup {m : Markers} {p : Position} {text body rest : List Char}
    (h : m.recognise p text = .ok (.markup body rest)) : text = body ++ '>' :: rest := by
  unfold recognise at h
  split at h
  · cases h
  · rename_i b r hs
    split at h
    · simp only [Except.ok.injEq, Candidate.markup.injEq] at h
      rw [← h.1, ← h.2]
      exact splitTag_eq hs
    · dsimp only at h
      split at h
      · cases h
      · split at h
        · simp only [Except.ok.injEq, Candidate.markup.injEq] at h
          rw [← h.1, ← h.2]
          exact splitTag_eq hs
        · split at h <;> cases h

/-- When a command tag is recognised: the search for its end succeeds, its body ends in the closing
marker, its name begins with the opening one, and its attributes are read. -/
theorem recognise_eq_command {m : Markers} {p : Position} {text rest : List Char} {tag : Tag} :
    m.recognise p text = .ok (.command tag rest) ↔ ∃ body inner command attrs,
      splitTag (m.begins text) none text = some (body, rest) ∧ m.unclosed? body = some inner ∧
      nameOf inner ≠ [] ∧ m.command? (nameOf inner) = some command ∧
      attributesOf (attributeTextOf inner) = .ok attrs ∧
      tag = ⟨String.ofList (nameOf inner), command, attrs, p,
        String.ofList ('<' :: body ++ ['>'])⟩ := by
  constructor
  · intro h
    unfold recognise at h
    split at h
    · cases h
    · rename_i body rest' hs
      split at h
      · cases h
      · rename_i inner hu
        dsimp only at h
        split at h
        · cases h
        · rename_i hn
          split at h
          · cases h
          · rename_i command hc
            split at h
            · cases h
            · rename_i attrs ha
              cases h
              exact ⟨body, inner, command, attrs, hs, hu, by simpa using hn, hc, ha, rfl⟩
  · rintro ⟨body, inner, command, attrs, hs, hu, hn, hc, ha, rfl⟩
    unfold recognise
    rw [hs]
    dsimp only
    rw [hu]
    dsimp only
    rw [if_neg (by simpa using hn), hc]
    dsimp only
    rw [ha]

theorem recognise_command {m : Markers} {p : Position} {text rest : List Char} {tag : Tag}
    (h : m.recognise p text = .ok (.command tag rest)) :
    ∃ body, tag.source.toList = '<' :: body ++ ['>'] ∧ text = body ++ '>' :: rest ∧
      tag.position = p := by
  obtain ⟨body, inner, command, attrs, hs, -, -, -, -, rfl⟩ := recognise_eq_command.mp h
  exact ⟨body, String.toList_ofList, splitTag_eq hs, rfl⟩

end Markers

end Inlay
