import Inlay.Command.Handler
import Inlay.Proofs.Files.Paths

set_option autoImplicit false

/-! # References of a document

A reference to a file is taken from the directory of the document that makes it. That directory is
the path of the document without its last component, and where this is not empty the base directory
plays no part (`resolveFile_beside`). A bare file name has an empty directory. It would stand for the
working directory, but the base directory takes its place, as it does for a document without a path.
So the same document is referred to differently as `index.shtml` and as `./index.shtml`.
-/

namespace Inlay

/-- An absolute reference replaces every directory. -/
theorem Path.join_absolute {reference : Path} (h : reference.isAbsolute = true) (dir : Path) :
    dir.join reference = reference := by
  unfold join
  rw [if_pos h]

/-- A relative reference is another path from the directory `x` than from the empty one. -/
theorem Path.join_relative_ne {reference : Path} (h : reference.isAbsolute = false) :
    join ⟨"x"⟩ reference ≠ join ⟨""⟩ reference := by
  intro heq
  have hfar : join ⟨"x"⟩ reference = ⟨"x" ++ "/" ++ reference.text⟩ := by
    unfold join
    rw [h]
    rfl
  have hnear : join ⟨""⟩ reference = ⟨"" ++ reference.text⟩ := by
    unfold join
    rw [h]
    rfl
  have hlen := congrArg (fun p : Path => p.text.length) (hfar ▸ hnear ▸ heq)
  simp [String.length_append] at hlen

namespace Cursor

variable {c : Cursor} {file dir : Path}

/-- The cursor, told another base directory. -/
def withBase (c : Cursor) (base : Path) : Cursor := { c with baseDir := base }

/-- The directory of a document whose path has more than one component. -/
theorem directory_of_parent? (hf : c.sourcePath = some file) (hd : file.parent? = some dir)
    (hne : dir.text ≠ "") : c.directory = dir := by
  unfold directory
  rw [hf, Option.bind_some, hd]
  dsimp only
  rw [if_neg (by rwa [String.isEmpty_iff])]

/-- The directory of a document with a bare name. -/
theorem directory_of_bare (hf : c.sourcePath = some file) (hd : file.parent? = some dir)
    (he : dir.text = "") : c.directory = c.baseDir := by
  unfold directory
  rw [hf, Option.bind_some, hd]
  dsimp only
  rw [if_pos (by rw [he]; rfl)]

/-- **A reference is taken from the directory of the document, whatever the base directory is, if and
only if the document has a directory in its path**, or the reference needs none. From a document
with a bare name it is taken from the base directory, just as from one without a path. -/
theorem resolveFile_beside {last : Component} (hf : c.sourcePath = some file)
    (hl : file.components.getLast? = some last) (hr : last ≠ .root) :
    ∃ dir, file.parent? = some dir ∧ dir.components = file.components.dropLast ∧
      ∀ reference : String,
        ((∀ base, (c.withBase base).resolveFile reference = dir.join ⟨reference⟩) ↔
          file.components ≠ [last] ∨ Path.isAbsolute ⟨reference⟩ = true) ∧
        (file.components = [last] →
          ∀ base, (c.withBase base).resolveFile reference = base.join ⟨reference⟩) ∧
        ∀ base, ({ c with sourcePath := none }.withBase base).resolveFile reference =
          base.join ⟨reference⟩ := by
  obtain ⟨dir, hd⟩ := Path.exists_parent? hl hr
  have hcomponents := Path.parent?_components hd
  -- the directory is empty if and only if there is no other component
  have hempty : dir.text = "" ↔ file.components = [last] := by
    rw [← Path.components_eq_nil_iff, hcomponents]
    obtain ⟨before, hb⟩ := List.getLast?_eq_some_iff.mp hl
    rw [hb, List.dropLast_concat]
    simp
  have hbare : file.components = [last] → ∀ (reference : String) (base : Path),
      (c.withBase base).resolveFile reference = base.join ⟨reference⟩ := by
    intro hone reference base
    have hdirectory : (c.withBase base).directory = base :=
      directory_of_bare hf hd (hempty.mpr hone)
    rw [resolveFile, hdirectory]
  refine ⟨dir, hd, hcomponents, fun reference => ⟨⟨?_, ?_⟩, fun hone => hbare hone reference, ?_⟩⟩
  · intro hsame
    by_contra hcon
    obtain ⟨hone, hrelative⟩ := not_or.mp hcon
    have hone := not_not.mp hone
    obtain rfl : dir = ⟨""⟩ := congrArg Path.mk (hempty.mpr hone)
    have hx := hsame ⟨"x"⟩
    rw [hbare hone reference ⟨"x"⟩] at hx
    exact Path.join_relative_ne (Bool.eq_false_iff.mpr hrelative) hx
  · intro h base
    by_cases hone : file.components = [last]
    · have habsolute := h.resolve_left (not_not.mpr hone)
      rw [hbare hone reference base, Path.join_absolute habsolute, Path.join_absolute habsolute]
    · have hdirectory : (c.withBase base).directory = dir :=
        directory_of_parent? hf hd (mt hempty.mp hone)
      rw [resolveFile, hdirectory]
  · intro base
    rfl

/-- A cursor in a document with a bare name. -/
def bareCursor : Cursor where
  sourcePath := some ⟨"index.shtml"⟩
  baseDir := ⟨"/srv/www"⟩
  position := ⟨1, 1⟩
  segment := 0
  encoding := .utf8
  bindings := []

/-- A reference of the document is not taken from where the document is. -/
theorem bareCursor_strays :
    (bareCursor.resolveFile "nav.html").text = "/srv/www/nav.html" ∧
      ∃ dir, Path.parent? ⟨"index.shtml"⟩ = some dir ∧ dir.components = [] ∧
        ¬ ∀ base, (bareCursor.withBase base).resolveFile "nav.html" = dir.join ⟨"nav.html"⟩ := by
  have hone : Path.components ⟨"index.shtml"⟩ = [.name "index.shtml"] := by decide +kernel
  have hrelative : Path.isAbsolute ⟨"nav.html"⟩ = false := by decide +kernel
  have hf : bareCursor.sourcePath = some ⟨"index.shtml"⟩ := rfl
  have hl : (Path.components ⟨"index.shtml"⟩).getLast? = some (.name "index.shtml") := by
    rw [hone]
    rfl
  obtain ⟨dir, hd, hcomponents, h⟩ := resolveFile_beside hf hl nofun
  obtain ⟨hlaw, hbare, -⟩ := h "nav.html"
  refine ⟨?_, dir, hd, by rw [hcomponents, hone]; rfl, fun hsame => ?_⟩
  · exact congrArg Path.text (hbare hone ⟨"/srv/www"⟩)
  · rcases hlaw.mp hsame with hmore | habsolute
    · exact hmore hone
    · rw [hrelative] at habsolute
      cases habsolute

end Cursor

end Inlay
