import Inlay.Settings.Basic
import Inlay.Settings.Expansion
import Inlay.Toml.Reader

set_option autoImplicit false

/-! # Reading settings

A configuration file has three tables: `render` for the options, `commands` and `constants`. Other
keys mean nothing. The variables of the base directory, of every command and of every constant text
are expanded. What a file leaves out keeps its default; a base directory is taken from the
directory of the file.
-/

namespace Inlay

/-- Why there are no settings. -/
inductive SettingsError where
  | notFound (path : Path)
  | system (fault : SystemFault)
  | malformed
  | invalid (fault : InvalidSetting)
  | unsetVariable (field variableName : String)
  deriving DecidableEq, Repr

/-- The wording of an error. -/
def SettingsError.message : SettingsError → String
  | .notFound path => "Configuration file not found: " ++ path.text
  | .system fault => "I/O error: " ++ fault.message
  | .malformed => "TOML parse error"
  | .invalid fault => "Configuration error: " ++ fault.message
  | .unsetVariable field variableName =>
    "Environment variable error in " ++ field ++ ": $\x7b" ++ variableName ++ "\x7d not set"

/-! ## Settings as written -/

/-- What a configuration file says, before variables are expanded. -/
structure Written where
  encoding : Option String := none
  preserveMark : Option Bool := none
  timeout : Option Nat := none
  strict : Option Bool := none
  baseDir : Option String := none
  commands : List (String × String) := []
  constants : List (String × Constant) := []

/-- A text of a document. -/
def textOf? : Toml.Value → Option String
  | .text s => some s
  | _ => none

/-- A truth value of a document. -/
def boolOf? : Toml.Value → Option Bool
  | .boolean b => some b
  | _ => none

/-- A natural number of 64 bits of a document. -/
def naturalOf? : Toml.Value → Option Nat
  | .integer i => if 0 ≤ i && i.toNat < Nat.pow 2 64 then some i.toNat else none
  | _ => none

/-- A constant of a document. An integer beyond 63 bits is kept as a number, within 64 bits. -/
def Constant.ofToml? : Toml.Value → Option Constant
  | .boolean b => some (.bool b)
  | .integer i =>
    if -(Nat.pow 2 63 : Nat) ≤ i && i < (Nat.pow 2 63 : Nat) then some (.integer i)
    else if 0 ≤ i && i < (Nat.pow 2 64 : Nat) then some (.float (.ofInt i))
    else none
  | .float x => some (.float x)
  | .text s => some (.text s)
  | _ => none

/-- The item of a key, which may be left out. -/
def optionalField {α : Type} (read? : Toml.Value → Option α) (entries : Toml.Entries)
    (key : String) : Option (Option α) :=
  match entries.lookup key with
  | none => some none
  | some v => (read? v).map some

/-- The items of a table, all of one kind, in the order of their keys. -/
def tableField {α : Type} (read? : Toml.Value → Option α) (entries : Toml.Entries)
    (key : String) : Option (List (String × α)) :=
  match entries.lookup key with
  | none => some []
  | some v => do
    let items ← v.entries?
    (items.mapM fun i => (read? i.2).map fun a => (i.1, a)).map orderedByKey

/-- The keys of the options, in the order in which a list gives them. -/
def optionKeys : List String :=
  ["encoding", "preserve_bom", "timeout_ms", "reject_leftover_attrs", "base_dir"]

/-- The options of a document: a table, or a list of the options in their order. -/
def optionEntries? (entries : Toml.Entries) : Option Toml.Entries :=
  match entries.lookup "render" with
  | none => some []
  | some (.list items) => some (optionKeys.zip items)
  | some v => v.entries?

/-- What a document says, if all of it is of the right kinds. -/
def Written.ofToml? (entries : Toml.Entries) : Option Written := do
  let options ← optionEntries? entries
  let encoding ← optionalField textOf? options "encoding"
  let preserveMark ← optionalField boolOf? options "preserve_bom"
  let timeout ← optionalField naturalOf? options "timeout_ms"
  let strict ← optionalField boolOf? options "reject_leftover_attrs"
  let baseDir ← optionalField textOf? options "base_dir"
  let commands ← tableField textOf? entries "commands"
  let constants ← tableField Constant.ofToml? entries "constants"
  some { encoding, preserveMark, timeout, strict, baseDir, commands, constants }

/-! ## Expansion and defaults -/

/-- Expand the variables of a field. -/
def expandField (env : Environment) (field text : String) : Except SettingsError String :=
  (expand env text).mapError (.unsetVariable field)

/-- A constant with the variables of its text expanded. -/
def Constant.expand (env : Environment) (key : String) : Constant → Except SettingsError Constant
  | .text s => (expandField env (constantField key) s).map .text
  | other => .ok other

/-- Expand all variables: of the base directory, the commands and the constants. -/
def Written.expand (w : Written) (env : Environment) : Except SettingsError Written := do
  let baseDir ← w.baseDir.mapM (expandField env "render.base_dir")
  let commands ← w.commands.mapM fun c =>
    (expandField env (commandField c.1) c.2).map fun value => (c.1, value)
  let constants ← w.constants.mapM fun c =>
    (c.2.expand env c.1).map fun value => (c.1, value)
  .ok { w with baseDir, commands, constants }

/-- The settings that a file makes: what it leaves out keeps its default. -/
def Written.settings (w : Written) (file : Path) : Settings :=
  -- the parent of a bare file name is the empty path, and not `.`
  let dir := file.parent?.getD ⟨"."⟩
  let default : Settings := {}
  { encoding := w.encoding.getD default.encoding
    preserveMark := w.preserveMark.getD default.preserveMark
    timeout := (w.timeout.map limitOf).getD default.timeout
    strict := w.strict.getD default.strict
    baseDir := (w.baseDir.map fun text => dir.join ⟨text⟩).getD dir
    commands := w.commands
    constants := w.constants
    origin := some file }

/-! ## Loading -/

/-- Settings that are valid. -/
def Settings.checked (s : Settings) : Except SettingsError Settings :=
  match s.fault? with
  | some fault => .error (.invalid fault)
  | none => .ok s

/-- The settings of a file. -/
def Settings.ofFile (disk : Disk) (env : Environment) (file : Path) :
    Except SettingsError Settings := do
  let content ← (disk.readText file).mapError .system
  match (Toml.read? content).bind Written.ofToml? with
  | none => .error .malformed
  | some written => (← written.expand env).settings file |>.checked

/-- The name that configuration files are searched by. -/
def settingsFileName : Path := ⟨"ssi.toml"⟩

/-- The places from a place up to the root. -/
def upward (place : List String) : List (List String) :=
  (List.range (place.length + 1)).reverse.map place.take

/-- The configuration file nearest to the working directory, in it or above it. -/
def discover (disk : Disk) : Option Path :=
  ((upward disk.workingDirectory).map fun place =>
    (Disk.pathOf place).join settingsFileName).find? disk.holds

/-- The settings of a run: of the file that is named, or else of the nearest one, or else the
defaults; those of the run itself win over all of them. -/
def Settings.load (disk : Disk) (env : Environment) (file : Option Path)
    (overrides : Option Overrides) : Except SettingsError Settings := do
  let settings ← match file with
    | some path => if disk.holds path then ofFile disk env path else .error (.notFound path)
    | none =>
      match discover disk with
      | some path => ofFile disk env path
      | none => .ok { baseDir := disk.workingPath }
  -- a file is checked by itself first, so no override mends an invalid one
  match overrides with
  | none => .ok settings
  | some o => (settings.override o).checked

end Inlay
