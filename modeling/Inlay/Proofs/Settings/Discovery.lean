import Inlay.Proofs.Files.Places
import Inlay.Proofs.Settings.Precedence

set_option autoImplicit false

/-! # Discovery of the configuration file

Without a file that is named, a run looks for one in the working directory, then in the directory
above it, and so on up to the root (`Searches`). The search ends, and what it ends with is the file
in the closest of these directories that has an entry of that name (`load_nearest`). The settings of
the run are then those of this file, as if it had been named, and relative directories in them are
taken from where it stands.
-/

namespace Inlay

namespace Disk

/-- Whether the working directory stands on the disk: the names on the way to it are names, and
there are directories on the way. -/
structure Grounded (d : Disk) : Prop where
  names : AreNames d.workingDirectory
  directories : ∀ place, place <+: d.workingDirectory → d.isDirectory place = true

/-- Whether `place` is the closest directory, from `start` up to the root, with an entry of a
name. -/
structure Nearest (d : Disk) (start : List String) (name : String) (place : List String) :
    Prop where
  above : place <+: start
  entry : (d.find? (place ++ [name])).isSome
  closest : ∀ other, other <+: start → (d.find? (other ++ [name])).isSome → other <+: place

end Disk

/-- The search for a configuration file from a directory on: there is one here, or it goes on above,
or this is the topmost directory. -/
inductive Searches (disk : Disk) : (dir : Path) → (found : Option Path) → Prop where
  | here {dir : Path} (h : disk.holds (dir.join settingsFileName) = true) :
    Searches disk dir (some (dir.join settingsFileName))
  | above {dir up : Path} {found : Option Path}
    (h : disk.holds (dir.join settingsFileName) = false) (hup : dir.parent? = some up)
    (hs : Searches disk up found) : Searches disk dir found
  | top {dir : Path} (h : disk.holds (dir.join settingsFileName) = false)
    (hup : dir.parent? = none) : Searches disk dir none

variable {disk : Disk}

/-- The search has one end. -/
theorem Searches.unique {dir : Path} {found found' : Option Path} (h : Searches disk dir found)
    (h' : Searches disk dir found') : found = found' := by
  induction h with
  | here hh =>
      cases h' with
      | here => rfl
      | above hh' => rw [hh] at hh'; cases hh'
      | top hh' => rw [hh] at hh'; cases hh'
  | above hh hup _ ih =>
      cases h' with
      | here hh' => rw [hh] at hh'; cases hh'
      | above _ hup' hs' =>
          rw [hup] at hup'
          cases hup'
          exact ih hs'
      | top _ hup' => rw [hup] at hup'; cases hup'
  | top hh hup =>
      cases h' with
      | here hh' => rw [hh] at hh'; cases hh'
      | above _ hup' => rw [hup] at hup'; cases hup'
      | top => rfl

/-! ## The places from a place upward -/

theorem upward_nil : upward [] = [[]] := rfl

theorem upward_concat (place : List String) (name : String) :
    upward (place ++ [name]) = (place ++ [name]) :: upward place := by
  unfold upward
  rw [List.length_append, List.length_singleton, List.range_succ, List.reverse_append,
    List.reverse_singleton, List.singleton_append, List.map_cons,
    ← List.length_singleton (a := name), ← List.length_append, List.take_length]
  refine congrArg _ (List.map_congr_left fun n hn => ?_)
  rw [List.mem_reverse, List.mem_range] at hn
  exact List.take_append_of_le_length (by simp at hn; omega)

theorem mem_upward {place start : List String} : place ∈ upward start ↔ place <+: start := by
  induction start using List.reverseRecOn with
  | nil => rw [upward_nil, List.mem_singleton, List.prefix_nil]
  | append_singleton start name ih => rw [upward_concat, List.mem_cons, ih, List.prefix_concat_iff]

/-- The first place upward with a property is the closest. -/
theorem closest_of_find?_upward {start place : List String} {p : List String → Bool}
    (h : (upward start).find? p = some place) :
    ∀ other, other <+: start → p other = true → other <+: place := by
  induction start using List.reverseRecOn with
  | nil =>
      intro other ho _
      rw [List.prefix_nil.mp ho]
      exact List.nil_prefix
  | append_singleton start name ih =>
      intro other ho hp
      rw [upward_concat, List.find?_cons] at h
      split at h
      · cases h
        exact ho
      · rename_i hn
        rcases List.prefix_concat_iff.mp ho with rfl | ho
        · rw [hp] at hn
          cases hn
        · exact ih h other ho hp

theorem find?_upward {start place : List String} {p : List String → Bool} :
    (upward start).find? p = some place ↔ place <+: start ∧ p place = true ∧
      ∀ other, other <+: start → p other = true → other <+: place := by
  constructor
  · intro h
    exact ⟨mem_upward.mp (List.mem_of_find?_eq_some h), List.find?_some h,
      closest_of_find?_upward h⟩
  · rintro ⟨habove, hp, hclosest⟩
    cases hf : (upward start).find? p with
    | none => exact absurd hp (List.find?_eq_none.mp hf place (mem_upward.mpr habove))
    | some first =>
        -- both are closest, so each leads to the other
        have hfirst := hclosest first (mem_upward.mp (List.mem_of_find?_eq_some hf))
          (List.find?_some hf)
        have hplace := closest_of_find?_upward hf place habove hp
        rw [hfirst.eq_of_length_le hplace.length_le]

/-- The file that the search upward from a place finds. -/
def discoverFrom (disk : Disk) (place : List String) : Option Path :=
  ((upward place).map fun place => (Disk.pathOf place).join settingsFileName).find? disk.holds

/-- The search upward from a place ends, with the file of the first directory that has one. -/
theorem searches_upward {place : List String} (h : AreNames place) :
    Searches disk (Disk.pathOf place) (discoverFrom disk place) := by
  induction place using List.reverseRecOn with
  | nil =>
      unfold discoverFrom
      rw [upward_nil, List.map_singleton, List.find?_singleton]
      split
      · rename_i hh
        exact .here hh
      · rename_i hh
        exact .top (Bool.eq_false_iff.mpr hh) Disk.parent?_root
  | append_singleton place name ih =>
      unfold discoverFrom
      rw [upward_concat, List.map_cons, List.find?_cons]
      split
      · rename_i hh
        exact .here hh
      · rename_i hh
        exact .above hh (Disk.parent?_pathOf h) (ih h.init)

/-! ## Discovery -/

theorem isName_settingsFile : IsName settingsFileName.text :=
  ⟨by decide +kernel, by decide +kernel, by decide +kernel, by decide +kernel⟩

namespace Disk.Grounded

variable {place : List String}

theorem areNames (h : disk.Grounded) (hp : place <+: disk.workingDirectory) :
    AreNames (place ++ [settingsFileName.text]) :=
  .concat (fun name hmem => h.names name (hp.subset hmem)) isName_settingsFile

theorem join_settingsFile (h : disk.Grounded) (hp : place <+: disk.workingDirectory) :
    (pathOf place).join settingsFileName = pathOf (place ++ [settingsFileName.text]) :=
  pathOf_join (h.areNames hp)

theorem holds_settingsFile (h : disk.Grounded) (hp : place <+: disk.workingDirectory) :
    disk.holds (pathOf (place ++ [settingsFileName.text])) =
      (disk.find? (place ++ [settingsFileName.text])).isSome :=
  holds_pathOf (h.areNames hp) fun before hb => h.directories before (hb.trans hp)

theorem nearest_iff (h : disk.Grounded) :
    (upward disk.workingDirectory).find?
        (fun place => disk.holds ((pathOf place).join settingsFileName)) = some place ↔
      disk.Nearest disk.workingDirectory settingsFileName.text place := by
  have hholds {other : List String} (ho : other <+: disk.workingDirectory) :
      disk.holds ((pathOf other).join settingsFileName) =
        (disk.find? (other ++ [settingsFileName.text])).isSome := by
    rw [h.join_settingsFile ho, h.holds_settingsFile ho]
  rw [find?_upward]
  constructor
  · rintro ⟨habove, hp, hclosest⟩
    exact ⟨habove, by rwa [hholds habove] at hp,
      fun other ho hs => hclosest other ho (by rwa [hholds ho])⟩
  · rintro ⟨habove, hp, hclosest⟩
    exact ⟨habove, by rwa [hholds habove],
      fun other ho hs => hclosest other ho (by rwa [hholds ho] at hs)⟩

theorem discover_eq_some_iff (h : disk.Grounded) {file : Path} :
    discover disk = some file ↔
      ∃ place, disk.Nearest disk.workingDirectory settingsFileName.text place ∧
        file = pathOf (place ++ [settingsFileName.text]) := by
  unfold discover
  rw [List.find?_map, Option.map_eq_some_iff]
  constructor
  · rintro ⟨place, hf, rfl⟩
    have hn := h.nearest_iff.mp hf
    exact ⟨place, hn, h.join_settingsFile hn.above⟩
  · rintro ⟨place, hn, rfl⟩
    exact ⟨place, h.nearest_iff.mpr hn, h.join_settingsFile hn.above⟩

theorem discover_eq_none_iff (h : disk.Grounded) :
    discover disk = none ↔ ∀ place, place <+: disk.workingDirectory →
      disk.find? (place ++ [settingsFileName.text]) = none := by
  unfold discover
  rw [List.find?_eq_none, List.forall_mem_map]
  refine forall_congr' fun place => ?_
  rw [mem_upward]
  refine forall_congr' fun hp => ?_
  rw [h.join_settingsFile hp, h.holds_settingsFile hp]
  simp

end Disk.Grounded

namespace Settings

/-- **A run finds the nearest configuration file.** The search upward ends, and it ends with what is
discovered: the file of the closest directory with an entry of its name, and nothing if and only if
no directory up to the root has one. A run that names no file loads its settings just as if this
file had been named, and takes relative directories in them from the directory where it stands. -/
theorem load_nearest (h : disk.Grounded) (env : Environment) (overrides : Option Overrides) :
    (∀ found, Searches disk disk.workingPath found ↔ found = discover disk) ∧
      (∀ file, discover disk = some file ↔
        ∃ place, disk.Nearest disk.workingDirectory settingsFileName.text place ∧
          file = Disk.pathOf (place ++ [settingsFileName.text])) ∧
        (discover disk = none ↔ ∀ place, place <+: disk.workingDirectory →
          disk.find? (place ++ [settingsFileName.text]) = none) ∧
          ∀ place, disk.Nearest disk.workingDirectory settingsFileName.text place →
            load disk env none overrides =
              load disk env (some (Disk.pathOf (place ++ [settingsFileName.text]))) overrides ∧
              ∀ s, load disk env none overrides = .ok s →
                s.origin = some (Disk.pathOf (place ++ [settingsFileName.text])) ∧
                  ∃ w, Says disk s.origin w ∧
                    s.Layered env (overrides.getD {}) w (Disk.pathOf place) := by
  have hsearch : Searches disk disk.workingPath (discover disk) := searches_upward h.names
  refine ⟨fun found => ⟨fun hs => hs.unique hsearch, fun he => he ▸ hsearch⟩,
    fun file => h.discover_eq_some_iff, h.discover_eq_none_iff, fun place hn => ?_⟩
  have hd := h.discover_eq_some_iff.mpr ⟨place, hn, rfl⟩
  constructor
  · rw [load_eq, load_eq]
    unfold found
    dsimp only
    rw [hd, if_pos (by rw [h.holds_settingsFile hn.above]; exact hn.entry)]
  · intro s hs
    obtain ⟨w, hsays, hlayered, horigin⟩ := layered_of_load hs
    have hsource : source disk none = some (Disk.pathOf (place ++ [settingsFileName.text])) := hd
    rw [hsource] at hsays hlayered horigin
    refine ⟨horigin, w, by rwa [horigin], ?_⟩
    unfold home at hlayered
    dsimp only at hlayered
    rwa [Disk.parent?_pathOf (h.areNames hn.above), Option.getD_some] at hlayered

/-- A disk with a configuration file at the root and another one in the directory above the working
directory. -/
def nestedDisk : Disk where
  workingDirectory := ["site", "blog"]
  entries :=
    [(["site"], .directory 0), (["site", "blog"], .directory 0),
      (["ssi.toml"], .file "[render]\nencoding = \"latin1\"\n".toUTF8 0),
      (["site", "ssi.toml"], .file "[render]\nbase_dir = \"pages\"\n".toUTF8 0)]

theorem nestedDisk_grounded : nestedDisk.Grounded := by
  constructor
  · intro name hmem
    rcases List.mem_pair.mp hmem with rfl | rfl
    · exact ⟨by decide +kernel, by decide +kernel, by decide +kernel, by decide +kernel⟩
    · exact ⟨by decide +kernel, by decide +kernel, by decide +kernel, by decide +kernel⟩
  · have hall : ∀ place ∈ upward nestedDisk.workingDirectory,
        nestedDisk.isDirectory place = true := by decide +kernel
    exact fun place hp => hall place (mem_upward.mpr hp)

/-- The file that is nearer is found, and its base directory is beside it. -/
theorem nestedDisk_nearest :
    Searches nestedDisk nestedDisk.workingPath (some ⟨"/site/ssi.toml"⟩) ∧
      nestedDisk.Nearest ["site", "blog"] "ssi.toml" ["site"] ∧
        ∃ s w, load nestedDisk [] none none = .ok s ∧ s.origin = some ⟨"/site/ssi.toml"⟩ ∧
          s.Layered [] {} w ⟨"/site"⟩ ∧ (s.encoding, s.baseDir) = ("utf-8", ⟨"/site/pages"⟩) := by
  obtain ⟨hsearch, hfile, -, hload⟩ := load_nearest nestedDisk_grounded [] none
  have hdiscover : discover nestedDisk = some ⟨"/site/ssi.toml"⟩ := by decide +kernel
  obtain ⟨place, hn, hplace⟩ := (hfile _).mp hdiscover
  obtain rfl : place = ["site"] := by
    have hall : ∀ place ∈ upward nestedDisk.workingDirectory,
        ⟨"/site/ssi.toml"⟩ = Disk.pathOf (place ++ [settingsFileName.text]) →
          place = ["site"] := by decide +kernel
    exact hall place (mem_upward.mpr hn.above) hplace
  have hfields : (load nestedDisk [] none none).toOption.map (fun s => (s.encoding, s.baseDir)) =
      some ("utf-8", ⟨"/site/pages"⟩) := by decide +kernel
  obtain ⟨s, hs, hfields⟩ := Option.map_eq_some_iff.mp hfields
  have hs := ok_of_toOption hs
  obtain ⟨horigin, w, -, hlayered⟩ := (hload _ hn).2 s hs
  have hpath : Disk.pathOf (["site"] ++ [settingsFileName.text]) = ⟨"/site/ssi.toml"⟩ := hplace.symm
  have hdir : Disk.pathOf ["site"] = ⟨"/site"⟩ := by decide +kernel
  exact ⟨(hsearch _).mpr hdiscover.symm, hn, s, w, hs, by rw [horigin, hpath],
    by rwa [hdir] at hlayered, hfields⟩

end Settings

end Inlay
