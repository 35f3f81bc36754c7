import Inlay.Path
import Mathlib.Data.List.DropRight

set_option autoImplicit false

/-! # Components of paths

A path is written in many ways, and what it names is its list of components. The path without its
last component names all of them but the last (`parent?_components`), however many separators and
dots stand between and behind them. Only the root and the empty path have no such path
(`exists_parent?`), and it is empty if and only if there was one component (`components_eq_nil_iff`).
A relative path that is joined to a directory keeps the components of the directory and adds its
own (`components_join`).
-/

namespace Inlay

namespace Path

/-! ## Parts -/

theorem parts_eq_splitOn (text : List Char) : parts text = text.splitOn '/' := by
  induction text with
  | nil => rfl
  | cons c rest ih =>
      rw [parts, ih, List.splitOn_cons_eq_if_modifyHead]
      by_cases h : c = '/'
      · rw [if_pos h, if_pos (beq_iff_eq.mpr h)]
      · rw [if_neg h, if_neg (mt beq_iff_eq.mp h)]
        cases hs : rest.splitOn '/' with
        | nil => exact absurd hs (List.splitOn_ne_nil _ _)
        | cons part others => rfl

theorem parts_joinParts {ps : List (List Char)} (hne : ps ≠ []) (h : ∀ p ∈ ps, '/' ∉ p) :
    parts (joinParts ps) = ps := by
  rw [parts_eq_splitOn]
  exact List.splitOn_intercalate '/' h hne

theorem not_mem_of_mem_parts {text part : List Char} (h : part ∈ parts text) : '/' ∉ part := by
  induction text generalizing part with
  | nil =>
      have hp : part = [] := by simpa [parts] using h
      simp [hp]
  | cons c rest ih =>
      rw [parts] at h
      split at h
      · rcases List.mem_cons.mp h with rfl | h
        · simp
        · exact ih h
      · rename_i hc
        split at h
        · have hp : part = [c] := by simpa using h
          simp [hp, Ne.symm hc]
        · rename_i first others hs
          rcases List.mem_cons.mp h with rfl | h
          · have hfirst : '/' ∉ first := ih (hs ▸ List.mem_cons_self)
            simp [Ne.symm hc, hfirst]
          · exact ih (hs ▸ List.mem_cons_of_mem _ h)

/-- The first part is empty if the text is, or begins with a separator. -/
theorem head?_parts_eq_nil {text : List Char} (h : (parts text).head? = some []) :
    text = [] ∨ ∃ rest, text = '/' :: rest := by
  cases text with
  | nil => exact .inl rfl
  | cons c rest =>
      by_cases hc : c = '/'
      · exact .inr ⟨rest, by rw [hc]⟩
      · rw [parts, if_neg hc] at h
        split at h <;> simp at h

/-! ## Heads -/

/-- Whether a text falls into a head and the text after it: the root separator, or a leading `.`, or
no head, and then the first part is a component unless there is nothing at all. -/
inductive Heads : (head body : List Char) → Prop where
  | root (body : List Char) : Heads ['/'] body
  | current {body : List Char} (h : (parts body).head? = some []) : Heads ['.'] body
  | none {body : List Char} (h : ∀ part ∈ (parts body).head?, isVoid part → body = []) :
    Heads [] body

theorem isVoid_iff (part : List Char) : isVoid part ↔ part = [] ∨ part = ['.'] := by
  simp [isVoid, List.isEmpty_iff]

theorem heads_splitHead (text : List Char) :
    text = (splitHead text).1 ++ (splitHead text).2 ∧
      Heads (splitHead text).1 (splitHead text).2 := by
  unfold splitHead
  split
  · exact ⟨rfl, .root _⟩
  · exact ⟨rfl, .current rfl⟩
  · exact ⟨rfl, .current (by simp [parts])⟩
  · rename_i hroot hdot hdotted
    refine ⟨rfl, .none ?_⟩
    intro part hp hv
    cases text with
    | nil => rfl
    | cons c rest =>
        have hc : c ≠ '/' := fun hc => hroot rest (by rw [hc])
        rw [parts, if_neg hc] at hp
        -- the part begins with `c`, so it is void only as a single dot
        cases hs : parts rest with
        | nil => exact absurd (parts_eq_splitOn rest ▸ hs) (List.splitOn_ne_nil _ _)
        | cons first others =>
            obtain rfl : c :: first = part := by simpa [hs] using hp
            obtain ⟨rfl, rfl⟩ : c = '.' ∧ first = [] := by simpa [isVoid_iff] using hv
            rcases head?_parts_eq_nil (by rw [hs]; rfl) with rfl | ⟨rest', rfl⟩
            · exact absurd rfl hdot
            · exact absurd rfl (hdotted rest')

theorem splitHead_append {head body : List Char} (h : Heads head body) :
    splitHead (head ++ body) = (head, body) := by
  cases h with
  | root => rfl
  | current h =>
      rcases head?_parts_eq_nil h with rfl | ⟨rest, rfl⟩
      · rfl
      · rfl
  | none h =>
      rw [List.nil_append]
      unfold splitHead
      split
      · exact absurd (h [] (by simp [parts]) rfl) (by simp)
      · exact absurd (h ['.'] rfl rfl) (by simp)
      · exact absurd (h ['.'] (by simp [parts]) rfl) (by simp)
      · rfl

/-- The component that the head of a path stands for. -/
def headComponent? (head : List Char) : Option Component :=
  if head = ['/'] then some .root else if head = ['.'] then some .current else none

/-- The components after the head of a path. -/
def named (body : List Char) : List Component :=
  ((parts body).filter fun part => !isVoid part).map componentOf

theorem components_eq {p : Path} {head body : List Char} (h : Heads head body)
    (hp : p.text.toList = head ++ body) :
    p.components = (headComponent? head).toList ++ named body := by
  unfold components
  rw [hp, splitHead_append h]
  cases h <;> rfl

theorem exists_heads (p : Path) :
    ∃ head body, Heads head body ∧ p.text.toList = head ++ body := by
  obtain ⟨heq, h⟩ := heads_splitHead p.text.toList
  exact ⟨_, _, h, heq⟩

/-- Only the empty path names nothing. -/
theorem components_eq_nil_iff (p : Path) : p.components = [] ↔ p.text = "" := by
  constructor
  · intro h
    obtain ⟨head, body, hh, hp⟩ := exists_heads p
    rw [components_eq hh hp, List.append_eq_nil_iff] at h
    cases hh with
    | root => simp [headComponent?] at h
    | current => simp [headComponent?] at h
    | none hfirst =>
        have hvoid : ∀ part ∈ parts body, isVoid part := by simpa [named] using h.2
        have hbody : body = [] := by
          cases hs : parts body with
          | nil => exact absurd (parts_eq_splitOn body ▸ hs) (List.splitOn_ne_nil _ _)
          | cons first others =>
              exact hfirst first (by rw [hs]; rfl) (hvoid first (by rw [hs]; simp))
        exact String.toList_eq_nil_iff.mp (by rw [hp, hbody]; rfl)
  · intro h
    obtain ⟨text⟩ := p
    obtain rfl : text = "" := h
    decide

/-! ## The path without its last component -/

theorem filter_dropVoids (ps : List (List Char)) :
    (dropVoids ps).filter (fun part => !isVoid part) = ps.filter fun part => !isVoid part := by
  show (ps.rdropWhile isVoid).filter _ = _
  induction ps using List.reverseRecOn with
  | nil => rfl
  | append_singleton ps part ih =>
      rw [List.rdropWhile_concat]
      split
      · rename_i hv
        rw [ih, List.filter_append]
        simp [hv]
      · rfl

/-- A path whose parts are not all void ends in a component. -/
theorem dropVoids_concat {ps before : List (List Char)} {part : List Char}
    (h : dropVoids ps = before ++ [part]) :
    isVoid part = false ∧ before ++ [part] <+: ps := by
  have hne : ps.rdropWhile isVoid ≠ [] := by
    show dropVoids ps ≠ []
    simp [h]
  have hlast := List.rdropWhile_last_not isVoid ps hne
  have hprefix : ps.rdropWhile isVoid <+: ps := List.rdropWhile_prefix isVoid ps
  constructor
  · have hpart : (ps.rdropWhile isVoid).getLast hne = part := by
      show (dropVoids ps).getLast hne = part
      simp [h]
    simpa [hpart] using hlast
  · exact h ▸ hprefix

theorem named_joinParts {ps : List (List Char)} (h : ∀ p ∈ ps, '/' ∉ p) :
    named (joinParts ps) = (ps.filter fun part => !isVoid part).map componentOf := by
  unfold named
  by_cases hne : ps = []
  · subst hne
    rfl
  · rw [parts_joinParts hne h]

/-- What a path falls into if it has a path above it. Either it is a single dot, with separators and
dots behind it, or the last of its parts that is not void is left out. -/
theorem parent?_cases {p dir : Path} {head body : List Char} (h : Heads head body)
    (hp : p.text.toList = head ++ body) (hd : p.parent? = some dir) :
    (head = ['.'] ∧ dropVoids (parts body) = [] ∧ dir = ⟨""⟩) ∨
      ∃ before part, dropVoids (parts body) = before ++ [part] ∧
        dir = ⟨String.ofList (head ++ joinParts (dropVoids before))⟩ := by
  unfold parent? at hd
  rw [hp, splitHead_append h] at hd
  dsimp only at hd
  split at hd
  · rename_i hnil
    split at hd
    · rename_i hdot
      cases hd
      exact .inl ⟨beq_iff_eq.mp hdot, List.reverse_eq_nil_iff.mp hnil, rfl⟩
    · cases hd
  · rename_i part before hcons
    cases hd
    refine .inr ⟨before.reverse, part, ?_, rfl⟩
    rw [← List.reverse_reverse (dropVoids (parts body)), hcons, List.reverse_cons]

/-- What is left of a text whose last parts are left out has the same head. -/
theorem Heads.joinParts {head body : List Char} {ps : List (List Char)} (h : Heads head body)
    (hps : ps <+: parts body) (hbody : ps ≠ [] → body ≠ []) : Heads head (joinParts ps) := by
  by_cases hne : ps = []
  · subst hne
    cases h with
    | root => exact .root _
    | current => exact .current rfl
    | none => exact .none fun _ _ _ => rfl
  · have hslash : ∀ p ∈ ps, '/' ∉ p := fun p hp => not_mem_of_mem_parts (hps.subset hp)
    have hparts : parts (Path.joinParts ps) = ps := parts_joinParts hne hslash
    -- the first part is still there, and it alone decides
    have hfirst : (parts (Path.joinParts ps)).head? = (parts body).head? := by
      obtain ⟨others, ho⟩ := hps
      rw [hparts, ← ho, List.head?_append_of_ne_nil _ hne]
    cases h with
    | root => exact .root _
    | current h => exact .current (hfirst.trans h)
    | none h =>
        refine .none fun part hp hv => absurd (h part ?_ hv) (hbody hne)
        rwa [← hfirst]

/-- **The path without its last component names all components but the last.** -/
theorem parent?_components {p dir : Path} (hd : p.parent? = some dir) :
    dir.components = p.components.dropLast := by
  obtain ⟨head, body, hh, hp⟩ := exists_heads p
  rw [components_eq hh hp]
  rcases parent?_cases hh hp hd with ⟨rfl, hvoid, rfl⟩ | ⟨before, part, hkept, rfl⟩
  · have hnamed : named body = [] := by
      rw [named, ← filter_dropVoids, hvoid]
      rfl
    rw [hnamed]
    decide
  · obtain ⟨hpart, hprefix⟩ := dropVoids_concat hkept
    have hbefore : dropVoids before <+: parts body :=
      (List.rdropWhile_prefix isVoid before).trans ((List.prefix_append _ _).trans hprefix)
    have hbody : dropVoids before ≠ [] → body ≠ [] := by
      rintro hne rfl
      have hlen := hprefix.length_le
      have hone : before = [] := by
        simpa [parts] using hlen
      exact hne (by rw [hone]; rfl)
    have hslash : ∀ p ∈ dropVoids before, '/' ∉ p :=
      fun p hp => not_mem_of_mem_parts (hbefore.subset hp)
    have hnamed : named body = named (joinParts (dropVoids before)) ++ [componentOf part] := by
      calc named body
          = ((before ++ [part]).filter fun part => !isVoid part).map componentOf := by
            rw [named, ← filter_dropVoids, hkept]
        _ = (before.filter fun part => !isVoid part).map componentOf ++ [componentOf part] := by
            simp [hpart]
        _ = named (joinParts (dropVoids before)) ++ [componentOf part] := by
            rw [named_joinParts hslash, filter_dropVoids]
    have hdir : Path.components ⟨String.ofList (head ++ joinParts (dropVoids before))⟩ =
        (headComponent? head).toList ++ named (joinParts (dropVoids before)) :=
      components_eq (hh.joinParts hbefore hbody) String.toList_ofList
    rw [hdir, hnamed, ← List.append_assoc, List.dropLast_concat]

/-- A path that ends in a component other than the root has a path above it. -/
theorem exists_parent? {p : Path} {last : Component} (hl : p.components.getLast? = some last)
    (hr : last ≠ .root) : ∃ dir, p.parent? = some dir := by
  obtain ⟨head, body, hh, hp⟩ := exists_heads p
  rw [components_eq hh hp] at hl
  unfold parent?
  rw [hp, splitHead_append hh]
  dsimp only
  split
  · rename_i hnil
    have hnamed : named body = [] := by
      rw [named, ← filter_dropVoids, List.reverse_eq_nil_iff.mp hnil]
      rfl
    rw [hnamed] at hl
    cases hh with
    | root =>
        obtain rfl : Component.root = last := by simpa [headComponent?] using hl
        exact absurd rfl hr
    | current => exact ⟨_, rfl⟩
    | none => simp [headComponent?] at hl
  · exact ⟨_, rfl⟩

/-! ## Joined paths -/

theorem parts_append (a b : List Char) : parts (a ++ '/' :: b) = parts a ++ parts b := by
  induction a with
  | nil => simp [parts]
  | cons c a ih =>
      rw [List.cons_append, parts, parts, ih]
      split
      · rfl
      · cases hs : parts a with
        | nil => exact absurd (parts_eq_splitOn a ▸ hs) (List.splitOn_ne_nil _ _)
        | cons first others => rfl

theorem named_append (a b : List Char) : named (a ++ '/' :: b) = named a ++ named b := by
  unfold named
  rw [parts_append, List.filter_append, List.map_append]

theorem named_slash (text : List Char) : named ('/' :: text) = named text := named_append [] text

/-- The head of a path holds none of its named components. -/
theorem Heads.named {head body : List Char} (h : Heads head body) :
    named (head ++ body) = Path.named body := by
  cases h with
  | root => exact named_slash body
  | current h =>
      rcases head?_parts_eq_nil h with rfl | ⟨rest, rfl⟩
      · rfl
      · show Path.named (['.'] ++ '/' :: rest) = _
        rw [named_append, named_slash]
        rfl
  | none => rfl

theorem components_eq_named (p : Path) : p.components =
    (headComponent? (splitHead p.text.toList).1).toList ++ named p.text.toList := by
  obtain ⟨head, body, hh, hp⟩ := exists_heads p
  rw [components_eq hh hp, hp, splitHead_append hh, hh.named]

/-- What stands behind a separator does not change the head. -/
theorem splitHead_slash {stem : List Char} (h : stem ≠ []) (text : List Char) :
    (splitHead (stem ++ '/' :: text)).1 = (splitHead stem).1 := by
  obtain ⟨hstem, hh⟩ := heads_splitHead stem
  generalize (splitHead stem).1 = head at hstem hh ⊢
  generalize (splitHead stem).2 = body at hstem hh
  subst hstem
  have hfirst : (parts (body ++ '/' :: text)).head? = (parts body).head? := by
    rw [parts_append, List.head?_append_of_ne_nil]
    rw [parts_eq_splitOn]
    exact List.splitOn_ne_nil _ _
  have hjoined : Heads head (body ++ '/' :: text) := by
    cases hh with
    | root => exact .root _
    | current hh => exact .current (hfirst.trans hh)
    | none hh => exact .none fun part hp hv => absurd (hh part (hfirst ▸ hp) hv) h
  rw [List.append_assoc, splitHead_append hjoined]

/-- A relative path that is joined to a directory adds its named components. -/
theorem components_join {p q : Path} (hp : p.text ≠ "") (hq : q.isAbsolute = false) :
    (p.join q).components = p.components ++ named q.text.toList := by
  have hne : p.text.toList ≠ [] := mt String.toList_eq_nil_iff.mp hp
  unfold join
  rw [hq, if_neg Bool.false_ne_true, components_eq_named p]
  split
  · rename_i hend
    have hempty : p.text.isEmpty = false := by simpa using hp
    rw [hempty, Bool.false_or, beq_iff_eq] at hend
    -- the directory ends in a separator, and no other one is put behind it
    obtain ⟨stem, hstem⟩ := List.getLast?_eq_some_iff.mp hend
    have hhead : (splitHead (stem ++ '/' :: q.text.toList)).1 = (splitHead (stem ++ ['/'])).1 := by
      by_cases hs : stem = []
      · rw [hs]
        rfl
      · rw [splitHead_slash hs, splitHead_slash hs]
    rw [components_eq_named, String.toList_append, hstem, List.append_assoc, List.singleton_append,
      hhead, named_append, named_append stem [], List.append_assoc, List.append_assoc]
    rfl
  · rw [components_eq_named, String.toList_append, String.toList_append]
    show (headComponent? (splitHead (_ ++ ['/'] ++ _)).1).toList ++ named (_ ++ ['/'] ++ _) = _
    rw [List.append_assoc, List.singleton_append, splitHead_slash hne, named_append,
      List.append_assoc]

end Path

end Inlay
