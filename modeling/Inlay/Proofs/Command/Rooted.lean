import Inlay.Command.Builtin
import Inlay.Document.Task
import Inlay.Proofs.Files.Paths

set_option autoImplicit false

/-! # Rooted references

A rooted reference is taken from the base directory, however it is written: separators before it do
not count, so it is never absolute, and its path begins with the components of the base directory
(`resolveVirtual_rooted`). If it does not go up anywhere, it stays below the base directory, and the
fetch of an include with such a reference depends on the loader at that path alone.
-/

namespace Inlay

/-- Whether a path leads down from a directory: its components are those of the directory and then
others, of which none is the root or goes up. -/
def Path.Below (p dir : Path) : Prop :=
  ∃ down, p.components = dir.components ++ down ∧
    ∀ component ∈ down, component ≠ .root ∧ component ≠ .parent

namespace Path

/-- Separators before a text do not change what it names. -/
theorem named_dropWhile (text : List Char) : named (text.dropWhile (· == '/')) = named text := by
  induction text with
  | nil => rfl
  | cons c text ih =>
      rw [List.dropWhile_cons]
      split
      · rename_i hc
        rw [ih, eq_of_beq hc, named_slash]
      · rfl

theorem root_not_mem_named (text : List Char) : Component.root ∉ named text := by
  intro h
  obtain ⟨part, -, hpart⟩ := List.mem_map.mp h
  unfold componentOf at hpart
  split at hpart <;> cases hpart

/-- The components that a path does not name are its head. -/
theorem mem_components {p : Path} {component : Component} (h : component ∈ p.components) :
    component = .root ∧ p.isAbsolute = true ∨ component = .current ∨
      component ∈ named p.text.toList := by
  obtain ⟨head, body, hh, hp⟩ := exists_heads p
  rw [components_eq hh hp] at h
  rw [hp, hh.named]
  rcases List.mem_append.mp h with h | h
  · cases hh with
    | root =>
        refine .inl ⟨by simpa [headComponent?] using h, ?_⟩
        unfold isAbsolute
        rw [hp]
        rfl
    | current => exact .inr (.inl (by simpa [headComponent?] using h))
    | none => simp [headComponent?] at h
  · exact .inr (.inr h)

/-- A relative path that is joined to the empty one stays what it is. -/
theorem join_empty {p : Path} (h : p.isAbsolute = false) : join ⟨""⟩ p = p := by
  unfold join
  rw [h, if_neg Bool.false_ne_true, if_pos (by decide +kernel), String.empty_append]

end Path

/-- The tasks of an insert that loads a file depend on the loader at the path of this file alone. -/
theorem PendingInsert.tasks_congr {insert : PendingInsert} {delay : Nat} {path : Path}
    {encoding : Encoding} {load load' : Path → Encoding → Except LoadError String}
    (hw : insert.fetch.work = .load delay path encoding)
    (h : load path encoding = load' path encoding) (standard : Option Nat) (slot : Nat) :
    insert.tasks standard load slot = insert.tasks standard load' slot := by
  unfold tasks work?
  rw [hw]
  simp only [Work.delivery?, h]

namespace Cursor

variable (c : Cursor) (reference : String)

/-- A rooted reference without the separators before it is relative. -/
theorem stripped_relative :
    Path.isAbsolute ⟨String.ofList (reference.toList.dropWhile (· == '/'))⟩ = false := by
  unfold Path.isAbsolute
  rw [String.toList_ofList, beq_eq_false_iff_ne]
  intro h
  have hc := List.head?_dropWhile_not (· == '/') reference.toList
  rw [h] at hc
  exact absurd hc (by decide)

/-- The path of a rooted reference has the components of the base directory, and then those that the
reference names, which are neither the root nor do they go up more often than the reference does. -/
theorem resolveVirtual_components :
    ∃ down, (c.resolveVirtual reference).components = c.baseDir.components ++ down ∧
      .root ∉ down ∧ (.parent ∈ down → .parent ∈ Path.components ⟨reference⟩) := by
  have hrelative := stripped_relative reference
  have hnamed : Component.parent ∈ Path.named reference.toList →
      Component.parent ∈ Path.components ⟨reference⟩ := by
    intro h
    rw [Path.components_eq_named]
    exact List.mem_append_right _ h
  by_cases hb : c.baseDir.text = ""
  · have hbase : c.baseDir = ⟨""⟩ := congrArg Path.mk hb
    unfold resolveVirtual
    refine ⟨_, by rw [(Path.components_eq_nil_iff _).mpr hb, List.nil_append], ?_, ?_⟩
    · rw [hbase, Path.join_empty hrelative]
      intro hroot
      rcases Path.mem_components hroot with ⟨-, h⟩ | h | h
      · rw [hrelative] at h
        cases h
      · cases h
      · exact Path.root_not_mem_named _ h
    · rw [hbase, Path.join_empty hrelative]
      intro hparent
      rcases Path.mem_components hparent with ⟨h, -⟩ | h | h
      · cases h
      · cases h
      · rw [String.toList_ofList, Path.named_dropWhile] at h
        exact hnamed h
  · refine ⟨Path.named reference.toList, ?_, Path.root_not_mem_named _, hnamed⟩
    unfold resolveVirtual
    rw [Path.components_join hb hrelative, String.toList_ofList, Path.named_dropWhile]

/-- A rooted reference that goes up nowhere stays below the base directory. -/
theorem resolveVirtual_below (h : .parent ∉ Path.components ⟨reference⟩) :
    (c.resolveVirtual reference).Below c.baseDir := by
  obtain ⟨down, heq, hroot, hparent⟩ := c.resolveVirtual_components reference
  refine ⟨down, heq, fun component hmem => ⟨?_, ?_⟩⟩
  · rintro rfl
    exact hroot hmem
  · rintro rfl
    exact h (hparent hmem)

/-- Separators before a rooted reference do not count. -/
theorem resolveVirtual_separators (n : Nat) :
    c.resolveVirtual (String.ofList (List.replicate n '/') ++ reference) =
      c.resolveVirtual reference := by
  unfold resolveVirtual
  rw [String.toList_append, String.toList_ofList, List.dropWhile_append_of_pos]
  intro slash h
  rw [List.eq_of_mem_replicate h]
  rfl

/-- **A rooted reference is taken from the base directory.** Its path begins with the components of
the base directory, whatever the reference is, and separators before the reference do not change it.
If the reference goes up nowhere, its path leads down from the base directory. An include by it is
then answered with a fetch of this one path, so the tasks of the fetch are the same for any two
loaders that agree below the base directory. -/
theorem resolveVirtual_rooted :
    c.baseDir.components <+: (c.resolveVirtual reference).components ∧
      (∀ n, c.resolveVirtual (String.ofList (List.replicate n '/') ++ reference) =
        c.resolveVirtual reference) ∧
      (.parent ∉ Path.components ⟨reference⟩ →
        (c.resolveVirtual reference).Below c.baseDir ∧
          ∀ (previous : Value) (tag : Tag), tag.attr? "file" = none →
            tag.attr? "virtual" = some reference →
              ∃ fetch left, Builtin.includeFile previous tag c = .pure (.fetch fetch, left) ∧
                fetch.work = .load 0 (c.resolveVirtual reference) c.encoding ∧
                  ∀ load load' : Path → Encoding → Except LoadError String,
                    (∀ path, path.Below c.baseDir → load path = load' path) →
                      ∀ standard slot, (⟨left, fetch⟩ : PendingInsert).tasks standard load slot =
                        (⟨left, fetch⟩ : PendingInsert).tasks standard load' slot) := by
  refine ⟨?_, c.resolveVirtual_separators reference, fun h => ?_⟩
  · obtain ⟨down, heq, -⟩ := c.resolveVirtual_components reference
    exact ⟨down, heq.symm⟩
  · have hbelow := c.resolveVirtual_below reference h
    refine ⟨hbelow, fun previous tag hfile hvirtual => ?_⟩
    refine ⟨{ work := .load 0 (c.resolveVirtual reference) c.encoding },
      (tag.without "file").without "virtual", ?_, rfl, ?_⟩
    · unfold Builtin.includeFile
      rw [hfile, hvirtual]
    · intro load load' hagree standard slot
      exact PendingInsert.tasks_congr rfl (congrFun (hagree _ hbelow) _) standard slot

/-- A cursor in a document of a site. -/
def siteCursor : Cursor where
  sourcePath := some ⟨"/srv/www/blog/post.shtml"⟩
  baseDir := ⟨"/srv/www"⟩
  position := .start
  segment := 0
  encoding := .utf8
  bindings := []

/-- A tag that includes a file by a reference that looks absolute. -/
def passwordTag : Tag where
  name := "!--#include"
  command := some "include"
  attrs := [("virtual", "//etc/passwd")]
  position := .start
  source := "<!--#include virtual=\"//etc/passwd\"-->"

/-- A reference that looks absolute is taken from the base directory all the same, and so is one
that goes up. -/
theorem siteCursor_rooted :
    (siteCursor.resolveVirtual "//etc/passwd").text = "/srv/www/etc/passwd" ∧
      (siteCursor.resolveVirtual "//etc/passwd").Below ⟨"/srv/www"⟩ ∧
        (∃ fetch left, Builtin.includeFile .null passwordTag siteCursor =
            .pure (.fetch fetch, left) ∧
          fetch.work = .load 0 ⟨"/srv/www/etc/passwd"⟩ .utf8) ∧
          siteCursor.baseDir.components <+: (siteCursor.resolveVirtual "/../x").components := by
  have hpath : siteCursor.resolveVirtual "//etc/passwd" = ⟨"/srv/www/etc/passwd"⟩ := by
    decide +kernel
  obtain ⟨-, -, hbelow⟩ := siteCursor.resolveVirtual_rooted "//etc/passwd"
  obtain ⟨hbelow, hinclude⟩ := hbelow (by decide +kernel)
  obtain ⟨fetch, left, hreply, hwork, -⟩ :=
    hinclude .null passwordTag (by decide +kernel) (by decide +kernel)
  exact ⟨by rw [hpath], hbelow, ⟨fetch, left, hreply, by rw [hwork, hpath]; rfl⟩,
    (siteCursor.resolveVirtual_rooted "/../x").1⟩

end Cursor

end Inlay
