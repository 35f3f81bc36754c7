import Inlay.Settings.Reading
import Mathlib.Data.List.Forall2

set_option autoImplicit false

/-! # Valid settings

Settings are checked in one pass that stops at the first fault. They pass it if and only if every
part of them can be used (`fault?_eq_none_iff`). What is loaded has passed it with the values that
are used: with all variables expanded, and with the settings of the run put in (`load_sound`).
-/

namespace Inlay

/-! ## Names of encodings -/

/-- The names that may be configured are those that an encoding is found by. -/
theorem isEncodingName_iff (name : String) :
    isEncodingName name ↔ ∃ e, Encoding.ofName name = .ok e := by
  unfold isEncodingName Encoding.ofName
  generalize String.ofList (name.toList.map Char.toLower) = lowered
  have hnames : encodingNames = Encoding.knownNames.map Prod.fst := rfl
  have hfound : (Encoding.knownNames.lookup lowered).isSome ↔ lowered ∈ encodingNames := by
    rw [List.lookup_isSome_iff, hnames, List.mem_map]
    constructor
    · rintro ⟨p, hp, heq⟩
      exact ⟨p, hp, (eq_of_beq heq).symm⟩
    · rintro ⟨p, hp, rfl⟩
      exact ⟨p, hp, beq_self_eq_true p.1⟩
  rw [List.contains_iff_mem, ← hfound]
  cases Encoding.knownNames.lookup lowered with
  | none => simp
  | some e => simp

/-! ## Settings that can be used -/

theorem beginsReserved_iff (key : String) :
    beginsReserved key ↔ key.toList.head? = some '>' := beq_iff_eq

theorem isMarkerKey_iff (key : String) :
    isMarkerKey key ↔ key = Key.opening ∨ key = Key.closing := by
  unfold isMarkerKey
  rw [Bool.or_eq_true, beq_iff_eq, beq_iff_eq]

theorem isMarkerText_iff (text : String) :
    isMarkerText text ↔ ∀ x ∈ text.toList, isBlank x = false ∧ x ≠ '<' ∧ x ≠ '>' := by
  unfold isMarkerText
  simp only [List.all_eq_true, Bool.and_eq_true, Bool.not_eq_true', bne_iff_ne, ne_eq, and_assoc]

/-- Whether a command of settings can be used: its key is reserved or names a command, and its value
is a marker that can stand inside a tag, or names a handler. -/
structure UsableCommand (key value : String) : Prop where
  reserved : key.toList.head? = some '>' → key ∈ reservedKeys
  marker : key = Key.opening ∨ key = Key.closing →
    ∀ x ∈ value.toList, isBlank x = false ∧ x ≠ '<' ∧ x ≠ '>'
  target : key ≠ Key.opening → key ≠ Key.closing → value ≠ ""

theorem commandFault?_eq_none_iff (key value : String) :
    commandFault? key value = none ↔ UsableCommand key value := by
  have hreserved : (beginsReserved key && !reservedKeys.contains key) = true ↔
      key.toList.head? = some '>' ∧ key ∉ reservedKeys := by
    rw [Bool.and_eq_true, beginsReserved_iff, Bool.not_eq_true', ← Bool.not_eq_true,
      List.contains_iff_mem]
  unfold commandFault?
  by_cases hr : key.toList.head? = some '>' ∧ key ∉ reservedKeys
  · rw [if_pos (hreserved.mpr hr)]
    exact iff_of_false nofun fun h => hr.2 (h.reserved hr.1)
  · rw [if_neg (mt hreserved.mp hr)]
    have hr : key.toList.head? = some '>' → key ∈ reservedKeys :=
      fun hb => Classical.byContradiction fun hn => hr ⟨hb, hn⟩
    by_cases hm : key = Key.opening ∨ key = Key.closing
    · rw [if_pos ((isMarkerKey_iff key).mpr hm)]
      by_cases ht : isMarkerText value
      · rw [if_pos ht]
        have ht := (isMarkerText_iff value).mp ht
        exact iff_of_true rfl ⟨hr, fun _ => ht, fun h h' => absurd hm (not_or.mpr ⟨h, h'⟩)⟩
      · rw [if_neg ht]
        exact iff_of_false nofun fun h => ht ((isMarkerText_iff value).mpr (h.marker hm))
    · rw [if_neg (mt (isMarkerKey_iff key).mp hm)]
      have hne := not_or.mp hm
      by_cases he : value = ""
      · rw [if_pos (by rw [he]; rfl)]
        exact iff_of_false nofun fun h => h.target hne.1 hne.2 he
      · rw [if_neg (by rwa [String.isEmpty_iff])]
        exact iff_of_true rfl ⟨hr, fun h => absurd h hm, fun _ _ => he⟩

theorem constantFault?_eq_none_iff (key : String) :
    constantFault? key = none ↔ key.toList.head? ≠ some '>' := by
  unfold constantFault?
  rw [ne_eq, ← beginsReserved_iff]
  split
  · exact iff_of_false nofun fun h => h ‹_›
  · exact iff_of_true rfl ‹_›

namespace Settings

/-- Whether every part of settings can be used. -/
structure Sound (s : Settings) : Prop where
  encoding : ∃ e, Encoding.ofName s.encoding = .ok e
  commands : ∀ c ∈ s.commands, UsableCommand c.1 c.2
  constants : ∀ c ∈ s.constants, c.1.toList.head? ≠ some '>'

/-- **Settings have no fault if and only if every part of them can be used.** -/
theorem fault?_eq_none_iff (s : Settings) : s.fault? = none ↔ s.Sound := by
  have hparts : ((s.commands.findSome? fun c => commandFault? c.1 c.2).or
      (s.constants.findSome? fun c => constantFault? c.1)) = none ↔
      (∀ c ∈ s.commands, UsableCommand c.1 c.2) ∧
        ∀ c ∈ s.constants, c.1.toList.head? ≠ some '>' := by
    rw [Option.or_eq_none_iff, List.findSome?_eq_none_iff, List.findSome?_eq_none_iff]
    simp only [commandFault?_eq_none_iff, constantFault?_eq_none_iff]
  unfold fault?
  by_cases he : isEncodingName s.encoding
  · rw [if_pos he, hparts]
    have he := (isEncodingName_iff s.encoding).mp he
    exact ⟨fun h => ⟨he, h.1, h.2⟩, fun h => ⟨h.commands, h.constants⟩⟩
  · rw [if_neg he]
    exact iff_of_false nofun fun h => he ((isEncodingName_iff s.encoding).mpr h.encoding)

theorem checked_eq_ok {s s' : Settings} (h : s.checked = .ok s') : s' = s ∧ s.Sound := by
  unfold checked at h
  cases hf : s.fault? with
  | some fault =>
      rw [hf] at h
      cases h
  | none =>
      rw [hf] at h
      cases h
      exact ⟨rfl, (fault?_eq_none_iff s).mp hf⟩

end Settings

/-! ## Results -/

theorem ok_of_bind {α β ε : Type} {result : Except ε α} {f : α → Except ε β} {b : β}
    (h : result >>= f = .ok b) : ∃ a, result = .ok a ∧ f a = .ok b := by
  cases result with
  | error e => cases h
  | ok a => exact ⟨a, rfl, h⟩

theorem ok_of_map {α β ε : Type} {result : Except ε α} {f : α → β} {b : β}
    (h : result.map f = .ok b) : ∃ a, result = .ok a ∧ f a = b := by
  cases result with
  | error e => cases h
  | ok a => exact ⟨a, rfl, Except.ok.inj h⟩

theorem ok_of_mapError {α ε ε' : Type} {result : Except ε α} {f : ε → ε'} {a : α}
    (h : result.mapError f = .ok a) : result = .ok a := by
  cases result with
  | error e => cases h
  | ok a' => exact congrArg Except.ok (Except.ok.inj h)

theorem ok_of_toOption {α ε : Type} {result : Except ε α} {a : α}
    (h : result.toOption = some a) : result = .ok a := by
  cases result with
  | error e => cases h
  | ok a' => exact congrArg Except.ok (Option.some.inj h)

theorem forall₂_of_mapM {α β ε : Type} {f : α → Except ε β} {as : List α} {bs : List β}
    (h : as.mapM f = .ok bs) : List.Forall₂ (fun a b => f a = .ok b) as bs := by
  induction as generalizing bs with
  | nil =>
      cases h
      exact .nil
  | cons a as ih =>
      rw [List.mapM_cons] at h
      obtain ⟨b, ha, h⟩ := ok_of_bind h
      obtain ⟨bs', has, h⟩ := ok_of_bind h
      cases h
      exact .cons ha (ih has)

/-! ## Expanded settings -/

/-- Whether commands and constants are those of a file with their variables expanded. -/
structure ExpandsTo (w : Written) (env : Environment) (commands : List (String × String))
    (constants : List (String × Constant)) : Prop where
  commands : List.Forall₂ (fun c c' => c'.1 = c.1 ∧ expand env c.2 = .ok c'.2)
    w.commands commands
  constants : List.Forall₂ (fun c c' => c'.1 = c.1 ∧ c.2.expand env c.1 = .ok c'.2)
    w.constants constants

theorem Written.expand_eq_ok {w w' : Written} {env : Environment} (h : w.expand env = .ok w') :
    ExpandsTo w env w'.commands w'.constants := by
  unfold Written.expand at h
  obtain ⟨baseDir, -, h⟩ := ok_of_bind h
  obtain ⟨commands, hcommands, h⟩ := ok_of_bind h
  obtain ⟨constants, hconstants, h⟩ := ok_of_bind h
  cases h
  constructor
  · refine (forall₂_of_mapM hcommands).imp fun c c' hc => ?_
    obtain ⟨value, hv, rfl⟩ := ok_of_map hc
    exact ⟨rfl, ok_of_mapError hv⟩
  · refine (forall₂_of_mapM hconstants).imp fun c c' hc => ?_
    obtain ⟨value, hv, rfl⟩ := ok_of_map hc
    exact ⟨rfl, hv⟩

namespace Settings

variable {disk : Disk} {env : Environment} {s : Settings}

/-! ## Loading -/

/-- Whether settings hold the commands and the constants of the file that they come from, with all
variables expanded, or have none if they come from no file. -/
def Traced (s : Settings) (disk : Disk) (env : Environment) : Prop :=
  match s.origin with
  | some file => ∃ content written, disk.readText file = .ok content ∧
      (Toml.read? content).bind Written.ofToml? = some written ∧
        ExpandsTo written env s.commands s.constants
  | none => s.commands = [] ∧ s.constants = []

theorem ofFile_eq_ok {file : Path} (h : ofFile disk env file = .ok s) :
    ∃ content written expanded, disk.readText file = .ok content ∧
      (Toml.read? content).bind Written.ofToml? = some written ∧
        written.expand env = .ok expanded ∧ s = expanded.settings file ∧ s.Sound := by
  unfold ofFile at h
  obtain ⟨content, hread, h⟩ := ok_of_bind h
  cases hw : (Toml.read? content).bind Written.ofToml? with
  | none =>
      rw [hw] at h
      cases h
  | some written =>
      rw [hw] at h
      obtain ⟨expanded, hexpand, h⟩ := ok_of_bind h
      obtain ⟨rfl, hsound⟩ := checked_eq_ok h
      exact ⟨content, written, expanded, ok_of_mapError hread, hw, hexpand, rfl, hsound⟩

theorem sound_of_file {file : Path} (h : ofFile disk env file = .ok s) :
    s.Sound ∧ s.Traced disk env := by
  obtain ⟨content, written, expanded, hread, hw, hexpand, rfl, hsound⟩ := ofFile_eq_ok h
  exact ⟨hsound, content, written, hread, hw, Written.expand_eq_ok hexpand⟩

theorem default_sound (dir : Path) :
    { baseDir := dir : Settings }.Sound ∧ { baseDir := dir : Settings }.Traced disk env := by
  have he := (isEncodingName_iff "utf-8").mp (by decide +kernel)
  exact ⟨⟨he, nofun, nofun⟩, rfl, rfl⟩

theorem Sound.options (h : s.Sound) :
    ∃ o, s.options = .ok o ∧ Encoding.ofName s.encoding = .ok o.encoding := by
  obtain ⟨e, he⟩ := h.encoding
  unfold Settings.options
  rw [he]
  exact ⟨_, rfl, rfl⟩

/-- The settings of a run without those that the run gives itself. -/
def found (disk : Disk) (env : Environment) (file : Option Path) : Except SettingsError Settings :=
  match file with
  | some path => if disk.holds path then ofFile disk env path else .error (.notFound path)
  | none =>
    match discover disk with
    | some path => ofFile disk env path
    | none => .ok { baseDir := disk.workingPath }

theorem load_eq (file : Option Path) (overrides : Option Overrides) :
    load disk env file overrides = found disk env file >>= fun s =>
      match overrides with
      | none => .ok s
      | some o => (s.override o).checked := by
  unfold load found
  cases file with
  | some path =>
      dsimp only
      split <;> rfl
  | none => cases discover disk <;> rfl

/-- The file that the settings of a run are read from: the one that is named, or else the nearest. -/
def source (disk : Disk) (file : Option Path) : Option Path := file.or (discover disk)

/-- Settings that are found come from a file that is there, or are the defaults. -/
theorem found_cases {file : Option Path} (h : found disk env file = .ok s) :
    (∃ path, source disk file = some path ∧ disk.holds path = true ∧
        ofFile disk env path = .ok s) ∨
      source disk file = none ∧ s = { baseDir := disk.workingPath } := by
  unfold found at h
  cases file with
  | some path =>
      dsimp only at h
      split at h
      · rename_i hholds
        exact .inl ⟨path, rfl, hholds, h⟩
      · cases h
  | none =>
      cases hd : discover disk with
      | some path =>
          rw [hd] at h
          exact .inl ⟨path, hd, List.find?_some hd, h⟩
      | none =>
          rw [hd] at h
          exact .inr ⟨hd, (Except.ok.inj h).symm⟩

theorem found_sound {file : Option Path} (h : found disk env file = .ok s) :
    s.Sound ∧ s.Traced disk env := by
  rcases found_cases h with ⟨path, -, -, hfile⟩ | ⟨-, rfl⟩
  · exact sound_of_file hfile
  · exact default_sound _

theorem limitOf_ne_zero (milliseconds : Nat) : limitOf milliseconds ≠ some 0 := by
  unfold limitOf
  split
  · nofun
  · rename_i hne
    exact fun h => hne (Option.some.inj h)

/-- A limit of zero is none. -/
theorem limit_ne_zero {given : Option Nat} {default : Option Nat} (h : default ≠ some 0) :
    (given.map limitOf).getD default ≠ some 0 := by
  cases given with
  | none => exact h
  | some milliseconds => exact limitOf_ne_zero milliseconds

theorem found_timeout {file : Option Path} (h : found disk env file = .ok s) :
    s.timeout ≠ some 0 := by
  rcases found_cases h with ⟨path, -, -, hfile⟩ | ⟨-, rfl⟩
  · obtain ⟨content, written, expanded, -, -, -, rfl, -⟩ := ofFile_eq_ok hfile
    exact limit_ne_zero nofun
  · nofun

/-- No insert of a document with loaded settings is out of time at the start. -/
theorem load_timeout {file : Option Path} {overrides : Option Overrides}
    (h : load disk env file overrides = .ok s) : s.timeout ≠ some 0 := by
  rw [load_eq] at h
  obtain ⟨s₀, hfound, h⟩ := ok_of_bind h
  have htimeout := found_timeout hfound
  cases overrides with
  | none =>
      cases h
      exact htimeout
  | some o =>
      obtain ⟨rfl, -⟩ := checked_eq_ok h
      exact limit_ne_zero htimeout

theorem sound_of_load {file : Option Path} {overrides : Option Overrides}
    (h : load disk env file overrides = .ok s) : s.Sound ∧ s.Traced disk env := by
  rw [load_eq] at h
  obtain ⟨s₀, hfound, h⟩ := ok_of_bind h
  obtain ⟨hsound₀, htraced⟩ := found_sound hfound
  cases overrides with
  | none =>
      cases h
      exact ⟨hsound₀, htraced⟩
  | some o =>
      -- no override touches what the file says of commands and constants
      obtain ⟨rfl, hsound⟩ := checked_eq_ok h
      exact ⟨hsound, htraced⟩

/-- **Settings that are loaded can be used as they are.** The encoding is known, whether a file or
the run names it, so the options of a rendering are to be had. Commands and constants are those of
the file, with the values that they have when their variables are expanded, and all of them can be
used. -/
theorem load_sound {file : Option Path} {overrides : Option Overrides}
    (h : load disk env file overrides = .ok s) :
    s.Sound ∧ s.Traced disk env ∧
      ∃ o, s.options = .ok o ∧ Encoding.ofName s.encoding = .ok o.encoding := by
  obtain ⟨hsound, htraced⟩ := sound_of_load h
  exact ⟨hsound, htraced, hsound.options⟩

/-- A disk with a configuration file in which the marker is a variable. -/
def markerDisk : Disk where
  entries :=
    [(["ssi.toml"], .file "[commands]\n\">prefix\" = \"$\x7bOPEN\x7d\"\n".toUTF8 0)]

/-- The marker is what the variable holds, and the name of the encoding is that of the run. -/
theorem markerDisk_loaded : ∃ s o,
    load markerDisk [("OPEN", "%")] none (some { encoding := some "ISO-8859-1" }) = .ok s ∧
      s.commands = [(Key.opening, "%")] ∧ s.Sound ∧ s.options = .ok o ∧ o.encoding = .latin1 := by
  have hload : (load markerDisk [("OPEN", "%")] none
      (some { encoding := some "ISO-8859-1" })).toOption.map (fun s => (s.commands, s.encoding)) =
      some ([(Key.opening, "%")], "ISO-8859-1") := by decide +kernel
  obtain ⟨s, hs, hfields⟩ := Option.map_eq_some_iff.mp hload
  have hs := ok_of_toOption hs
  obtain ⟨hcommands, hencoding⟩ := Prod.mk.inj hfields
  obtain ⟨hsound, -, o, ho, hname⟩ := load_sound hs
  have hlatin : Encoding.ofName s.encoding = .ok .latin1 := by
    rw [hencoding]
    exact ok_of_toOption (by decide +kernel)
  exact ⟨s, o, hs, hcommands, hsound, ho, Except.ok.inj (hname.symm.trans hlatin)⟩

end Settings

end Inlay
