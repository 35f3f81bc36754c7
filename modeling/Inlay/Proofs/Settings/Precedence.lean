import Inlay.Proofs.Settings.Validity

set_option autoImplicit false

/-! # Layers of settings

The settings of a run come in three layers: what the run gives itself, what the file says, and the
defaults. Each option is taken from the first layer that has it (`load_layered`). Of the file the base
directory is expanded and taken from the directory of the file, which is the default as well;
commands and constants are those of the file alone. A file that is named and is not there is an
error before anything is read or checked.
-/

namespace Inlay

/-- Whether a constant is another one with its variables expanded; only a text has any. -/
def Constant.ExpandsTo (env : Environment) : Constant → Constant → Prop
  | .text s, c => ∃ expanded, Inlay.expand env s = .ok expanded ∧ c = .text expanded
  | fixed, c => c = fixed

theorem Constant.expand_eq_ok {env : Environment} {key : String} {c c' : Constant}
    (h : c.expand env key = .ok c') : c.ExpandsTo env c' := by
  cases c with
  | text s =>
      obtain ⟨expanded, hs, rfl⟩ := ok_of_map h
      exact ⟨expanded, ok_of_mapError hs, rfl⟩
  | bool b => exact (Except.ok.inj h).symm
  | integer i => exact (Except.ok.inj h).symm
  | float x => exact (Except.ok.inj h).symm

/-- What a file says with all its variables expanded. -/
theorem Written.expand_cases {w w' : Written} {env : Environment} (h : w.expand env = .ok w') :
    (∃ baseDir, w.baseDir.mapM (Inlay.expand env) = .ok baseDir ∧
        w' = { w with baseDir, commands := w'.commands, constants := w'.constants }) ∧
      List.Forall₂ (fun c c' => c'.1 = c.1 ∧ Inlay.expand env c.2 = .ok c'.2)
        w.commands w'.commands ∧
      List.Forall₂ (fun c c' => c'.1 = c.1 ∧ c.2.ExpandsTo env c'.2) w.constants w'.constants := by
  obtain ⟨hcommands, hconstants⟩ := Written.expand_eq_ok h
  refine ⟨?_, hcommands, hconstants.imp fun c c' hc => ⟨hc.1, Constant.expand_eq_ok hc.2⟩⟩
  unfold Written.expand at h
  obtain ⟨baseDir, hbase, h⟩ := ok_of_bind h
  obtain ⟨commands, -, h⟩ := ok_of_bind h
  obtain ⟨constants, -, h⟩ := ok_of_bind h
  cases h
  refine ⟨baseDir, ?_, rfl⟩
  cases hw : w.baseDir with
  | none =>
      rw [hw] at hbase
      cases hbase
      rfl
  | some text =>
      rw [hw] at hbase
      obtain ⟨expanded, hexpand, hsome⟩ := ok_of_map hbase
      obtain rfl : some expanded = baseDir := hsome
      show (Inlay.expand env text).map some = _
      rw [ok_of_mapError hexpand]
      rfl

namespace Settings

/-! ## Where settings come from -/

/-- Whether `w` is what the file of a run says. No file says nothing. -/
def Says (disk : Disk) (source : Option Path) (w : Written) : Prop :=
  match source with
  | some path => disk.holds path = true ∧ ∃ content, disk.readText path = .ok content ∧
      (Toml.read? content).bind Written.ofToml? = some w
  | none => w = {}

/-- The directory that is the base directory if no other is given: that of the file, or the working
directory. -/
def home (disk : Disk) (source : Option Path) : Path :=
  match source with
  | some path => path.parent?.getD ⟨"."⟩
  | none => disk.workingPath

/-! ## Layers -/

/-- Whether settings are those of a run, `o`, over those of a file, `w`, over the defaults. -/
structure Layered (s : Settings) (env : Environment) (o : Overrides) (w : Written) (home : Path) :
    Prop where
  encoding : s.encoding = (o.encoding.or w.encoding).getD "utf-8"
  preserveMark : s.preserveMark = (o.preserveMark.or w.preserveMark).getD true
  /-- In both layers zero milliseconds are no limit. -/
  timeout : s.timeout = ((o.timeout.or w.timeout).map limitOf).getD (some 30000)
  strict : s.strict = (o.strict.or w.strict).getD true
  /-- The directory of a run is taken as it is given. -/
  baseDir : ∃ expanded, w.baseDir.mapM (expand env) = .ok expanded ∧
    s.baseDir = (o.baseDir.or (expanded.map fun text => home.join ⟨text⟩)).getD home
  commands : List.Forall₂ (fun c c' => c'.1 = c.1 ∧ expand env c.2 = .ok c'.2)
    w.commands s.commands
  constants : List.Forall₂ (fun c c' => c'.1 = c.1 ∧ c.2.ExpandsTo env c'.2)
    w.constants s.constants

variable {disk : Disk} {env : Environment} {s : Settings} {w : Written}

/-- The settings of a run are put over those that were found. -/
theorem Layered.override {home : Path} (h : s.Layered env {} w home) (o : Overrides) :
    (s.override o).Layered env o w home := by
  have hor {α : Type} (given written : Option α) (default value : α)
      (hvalue : value = written.getD default) :
      given.getD value = (given.or written).getD default := by
    cases given with
    | none => exact hvalue
    | some a => rfl
  obtain ⟨expanded, hexpand, hbase⟩ := h.baseDir
  refine ⟨hor _ _ _ _ h.encoding, hor _ _ _ _ h.preserveMark, ?_, hor _ _ _ _ h.strict,
    ⟨expanded, hexpand, hor _ _ _ _ hbase⟩, h.commands, h.constants⟩
  show (o.timeout.map limitOf).getD s.timeout = _
  rw [Option.map_or]
  exact hor _ _ _ _ h.timeout

theorem default_layered (dir : Path) :
    { baseDir := dir : Settings }.Layered env {} {} dir :=
  ⟨rfl, rfl, rfl, rfl, ⟨none, rfl, rfl⟩, .nil, .nil⟩

theorem Written.layered {w expanded : Written} (h : w.expand env = .ok expanded) (file : Path) :
    (expanded.settings file).Layered env {} w (home disk (some file)) := by
  obtain ⟨⟨baseDir, hbase, heq⟩, hcommands, hconstants⟩ := Written.expand_cases h
  rw [heq]
  exact ⟨rfl, rfl, rfl, rfl, ⟨baseDir, hbase, rfl⟩, hcommands, hconstants⟩

theorem found_layered {file : Option Path} (h : found disk env file = .ok s) :
    ∃ w, Says disk (source disk file) w ∧
      s.Layered env {} w (home disk (source disk file)) ∧ s.origin = source disk file := by
  rcases found_cases h with ⟨path, hsource, hholds, hfile⟩ | ⟨hsource, rfl⟩
  · obtain ⟨content, w, expanded, hread, hw, hexpand, rfl, -⟩ := ofFile_eq_ok hfile
    rw [hsource]
    exact ⟨w, ⟨hholds, content, hread, hw⟩, Written.layered hexpand path, rfl⟩
  · rw [hsource]
    exact ⟨{}, rfl, default_layered _, rfl⟩

/-- Settings that are loaded come in layers. -/
theorem layered_of_load {file : Option Path} {overrides : Option Overrides}
    (h : load disk env file overrides = .ok s) :
    ∃ w, Says disk (source disk file) w ∧
      s.Layered env (overrides.getD {}) w (home disk (source disk file)) ∧
        s.origin = source disk file := by
  rw [load_eq] at h
  obtain ⟨s₀, hfound, h⟩ := ok_of_bind h
  obtain ⟨w, hsays, hlayered, horigin⟩ := found_layered hfound
  cases overrides with
  | none =>
      cases h
      exact ⟨w, hsays, hlayered, horigin⟩
  | some o =>
      obtain ⟨rfl, -⟩ := checked_eq_ok h
      exact ⟨w, hsays, hlayered.override o, horigin⟩

end Settings

end Inlay
