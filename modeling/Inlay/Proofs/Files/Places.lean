import Inlay.Proofs.Files.Paths
import Inlay.Proofs.Files.Storage

set_option autoImplicit false

/-! # The paths of places

The path of a place is made of the names on the way to it (`Disk.pathOf`). It leads to its place as
long as there are directories on the way (`Disk.place_pathOf`). The path of an entry is that of its
directory joined with its name (`Disk.pathOf_join`), and so the path above it is that of its
directory (`Disk.parent?_pathOf`).
-/

namespace Inlay

/-! ## Names -/

/-- Whether a text can be the name of an entry of a directory: it is one part of a path, and not one
of those that stay where they are or go up. -/
structure IsName (name : String) : Prop where
  solid : Path.isVoid name.toList = false
  steady : name.toList ≠ ['.', '.']
  whole : '/' ∉ name.toList
  clean : '\x00' ∉ name.toList

theorem IsName.ne_nil {name : String} (h : IsName name) : name.toList ≠ [] := by
  intro hn
  have hs := h.solid
  rw [hn] at hs
  cases hs

theorem IsName.not_absolute {name : String} (h : IsName name) :
    Path.isAbsolute ⟨name⟩ = false := by
  unfold Path.isAbsolute
  rw [beq_eq_false_iff_ne]
  exact fun hc => h.whole (List.mem_of_mem_head? hc)

/-- Whether all steps on the way to a place are names. -/
def AreNames (place : List String) : Prop := ∀ name ∈ place, IsName name

namespace AreNames

variable {place : List String} {name : String}

theorem concat (h : AreNames place) (hn : IsName name) : AreNames (place ++ [name]) := by
  intro n hmem
  rcases List.mem_append.mp hmem with hmem | hmem
  · exact h n hmem
  · rw [List.mem_singleton.mp hmem]
    exact hn

theorem init (h : AreNames (place ++ [name])) : AreNames place :=
  fun n hmem => h n (List.mem_append_left _ hmem)

theorem last (h : AreNames (place ++ [name])) : IsName name :=
  h name (List.mem_append_right _ (List.mem_singleton_self _))

theorem part (h : AreNames place) {p : List Char} (hp : p ∈ place.map String.toList) :
    Path.isVoid p = false ∧ '/' ∉ p ∧ '\x00' ∉ p := by
  obtain ⟨n, hmem, rfl⟩ := List.mem_map.mp hp
  exact ⟨(h n hmem).solid, (h n hmem).whole, (h n hmem).clean⟩

/-- No name is void, so none is dropped. -/
theorem dropVoids (h : AreNames place) :
    Path.dropVoids (place.map String.toList) = place.map String.toList := by
  unfold Path.dropVoids
  rw [List.dropWhile_eq_self_iff.mpr, List.reverse_reverse]
  intro hl
  rw [(h.part (List.mem_reverse.mp (List.getElem_mem hl))).1]
  exact Bool.false_ne_true

theorem parts (h : AreNames place) (hne : place ≠ []) :
    Path.parts (Path.joinParts (place.map String.toList)) = place.map String.toList :=
  Path.parts_joinParts (by simpa using hne) fun _ hp => (h.part hp).2.1

end AreNames

theorem Path.mem_joinParts {ps : List (List Char)} {c : Char} (h : c ∈ joinParts ps) :
    c = '/' ∨ ∃ p ∈ ps, c ∈ p := by
  induction ps with
  | nil => cases h
  | cons p ps ih =>
      cases ps with
      | nil => exact .inr ⟨p, List.mem_cons_self, by simpa [joinParts] using h⟩
      | cons q ps =>
          unfold joinParts at h ih
          rw [List.intercalate_cons_cons, List.append_assoc, List.mem_append, List.mem_append,
            List.mem_singleton] at h
          rcases h with h | h | h
          · exact .inr ⟨p, List.mem_cons_self, h⟩
          · exact .inl h
          · exact (ih h).imp_right fun ⟨r, hr, hc⟩ => ⟨r, List.mem_cons_of_mem _ hr, hc⟩

namespace Disk

variable {d : Disk} {place : List String} {name : String}

/-! ## Paths of entries -/

theorem pathOf_text (place : List String) :
    (pathOf place).text.toList = '/' :: Path.joinParts (place.map String.toList) := by
  unfold pathOf Path.joinParts
  rw [String.toList_append, String.toList_intercalate]
  rfl

theorem isEmpty_pathOf (place : List String) : (pathOf place).text.isEmpty = false := by
  rw [Bool.eq_false_iff, ne_eq, String.isEmpty_iff, ← String.toList_eq_nil_iff, pathOf_text]
  exact List.cons_ne_nil _ _

theorem pathOf_concat (h : place ≠ []) :
    pathOf (place ++ [name]) = ⟨(pathOf place).text ++ "/" ++ name⟩ := by
  unfold pathOf
  rw [String.intercalate_append_of_ne_nil h (List.cons_ne_nil _ _), String.intercalate_singleton]
  simp [String.append_assoc]

/-- The path of an entry ends in its name, and so not in a separator. -/
theorem getLast?_pathOf (h : IsName name) :
    (pathOf (place ++ [name])).text.toList.getLast? ≠ some '/' := by
  obtain ⟨head, hp⟩ : ∃ head : String, (pathOf (place ++ [name])).text = head ++ name := by
    by_cases hp : place = []
    · subst hp
      exact ⟨"/", by rw [List.nil_append, pathOf, String.intercalate_singleton]⟩
    · exact ⟨_, by rw [pathOf_concat hp]⟩
  rw [hp, String.toList_append, List.getLast?_append_of_ne_nil _ h.ne_nil]
  exact fun hl => h.whole (List.mem_of_getLast? hl)

/-- The path of an entry is that of its directory joined with its name. -/
theorem pathOf_join (h : AreNames (place ++ [name])) :
    (pathOf place).join ⟨name⟩ = pathOf (place ++ [name]) := by
  unfold Path.join
  rw [h.last.not_absolute, if_neg Bool.false_ne_true]
  rcases List.eq_nil_or_concat place with rfl | ⟨before, last, rfl⟩
  · rw [List.nil_append, pathOf, pathOf, String.intercalate_singleton]
    rfl
  · rw [List.concat_eq_append] at h ⊢
    rw [isEmpty_pathOf, Bool.false_or, if_neg (by simpa using getLast?_pathOf h.init.last),
      ← pathOf_concat (by simp)]

/-- The path above that of an entry is the path of its directory. -/
theorem parent?_pathOf (h : AreNames (place ++ [name])) :
    (pathOf (place ++ [name])).parent? = some (pathOf place) := by
  have hroot (body : List Char) : Path.splitHead ('/' :: body) = (['/'], body) := rfl
  unfold Path.parent?
  rw [pathOf_text, hroot]
  dsimp only
  rw [h.parts (by simp), h.dropVoids, List.map_append, List.map_singleton, List.reverse_append,
    List.reverse_singleton, List.singleton_append]
  dsimp only
  rw [List.reverse_reverse, h.init.dropVoids, List.singleton_append, ← pathOf_text,
    String.ofList_toList]

theorem parent?_root : (pathOf []).parent? = none := by
  decide +kernel

/-! ## The way to a place -/

/-- Names are followed one after another as long as there are directories. -/
theorem follow_names {names reached : List String} (h : AreNames names)
    (hd : ∀ before, before <+: names → before ≠ names → d.isDirectory (reached ++ before) = true) :
    d.follow reached (names.map String.toList) = .ok (reached ++ names) := by
  induction names generalizing reached with
  | nil => rw [List.append_nil]; rfl
  | cons name names ih =>
      have hname := h name List.mem_cons_self
      have hdir : d.isDirectory reached = true := by
        have h := hd [] List.nil_prefix (List.cons_ne_nil _ _).symm
        rwa [List.append_nil] at h
      rw [List.map_cons, follow]
      unfold isDirectory at hdir
      split at hdir
      · rename_i modified hf
        rw [hf]
        dsimp only
        rw [hname.solid, if_neg Bool.false_ne_true, if_neg (by simpa using hname.steady),
          String.ofList_toList, ih (fun n hmem => h n (List.mem_cons_of_mem _ hmem)) ?_]
        · rw [List.append_assoc, List.singleton_append]
        · intro before hb hne
          rw [List.append_assoc]
          exact hd (name :: before) ((List.prefix_cons_inj name).mpr hb) (by simpa using hne)
      · cases hdir

/-- The path of an entry leads to it if there are directories on the way. -/
theorem place_pathOf (h : AreNames (place ++ [name]))
    (hd : ∀ before, before <+: place → d.isDirectory before = true) :
    d.place (pathOf (place ++ [name])) = .ok (place ++ [name]) := by
  have hparts : Path.parts (pathOf (place ++ [name])).text.toList =
      [] :: (place ++ [name]).map String.toList := by
    rw [pathOf_text, Path.parts, if_pos rfl, h.parts (by simp)]
  have hnul : (pathOf (place ++ [name])).text.toList.contains '\x00' = false := by
    rw [List.contains_eq_mem, decide_eq_false_iff_not, pathOf_text, List.mem_cons, not_or]
    refine ⟨by decide, fun hmem => ?_⟩
    rcases Path.mem_joinParts hmem with hc | ⟨p, hp, hc⟩
    · exact absurd hc (by decide)
    · exact (h.part hp).2.2 hc
  have habsolute : (pathOf (place ++ [name])).isAbsolute = true := by
    unfold Path.isAbsolute
    rw [pathOf_text]
    rfl
  have hroot : d.find? [] = some (.directory d.now) := rfl
  unfold Disk.place
  rw [isEmpty_pathOf, if_neg Bool.false_ne_true, hnul, if_neg Bool.false_ne_true, habsolute,
    if_pos rfl, hparts, follow, hroot]
  -- the empty part before the first separator stays at the root
  refine follow_names h fun before hb hne => ?_
  exact hd before ((List.prefix_concat_iff.mp hb).resolve_left hne)

theorem holds_pathOf (h : AreNames (place ++ [name]))
    (hd : ∀ before, before <+: place → d.isDirectory before = true) :
    d.holds (pathOf (place ++ [name])) = (d.find? (place ++ [name])).isSome := by
  unfold holds
  rw [entry_of_place (place_pathOf h hd)]
  cases d.find? (place ++ [name]) <;> rfl

end Disk

end Inlay
