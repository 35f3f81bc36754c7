import Inlay.Document.Basic
import Inlay.Settings.Constant
import Inlay.Text.Blank

set_option autoImplicit false

/-! # Settings

What a configuration says about renderings: options, commands and constants. Settings are valid
when every part of them can be used: the encoding has a known name, a key that begins with `>` is
one of the reserved keys, a marker can stand inside a tag, and no other command is empty.
-/

namespace Inlay

/-! ## Tables in the order of their keys -/

/-- Put an item under a key into a table that is ordered by keys, in place of an earlier one. -/
def insertByKey {α : Type} (key : String) (item : α) : List (String × α) → List (String × α)
  | [] => [(key, item)]
  | (k, i) :: rest =>
    if key < k then (key, item) :: (k, i) :: rest
    else if key = k then (key, item) :: rest
    else (k, i) :: insertByKey key item rest

/-- Items in the order of their keys; of those with one key the last counts. -/
def orderedByKey {α : Type} (items : List (String × α)) : List (String × α) :=
  items.foldl (fun table i => insertByKey i.1 i.2 table) []

/-! ## Settings -/

/-- Everything that is configured. Commands and constants are in the order of their keys. -/
structure Settings where
  /-- The name of the encoding, as given. -/
  encoding : String := "utf-8"
  preserveMark : Bool := true
  timeout : Option Nat := some 30000
  strict : Bool := true
  baseDir : Path := ⟨"."⟩
  /-- The markers and the commands, which name their handlers. -/
  commands : List (String × String) := []
  constants : List (String × Constant) := []
  /-- The file that the settings were read from. -/
  origin : Option Path := none

/-- Settings given for one run, which win over those of a file. -/
structure Overrides where
  encoding : Option String := none
  preserveMark : Option Bool := none
  timeout : Option Nat := none
  strict : Option Bool := none
  baseDir : Option Path := none

/-- The limit that a number of milliseconds sets; zero sets none. -/
def limitOf (milliseconds : Nat) : Option Nat :=
  if milliseconds = 0 then none else some milliseconds

/-- The settings with those of a run put in. -/
def Settings.override (s : Settings) (o : Overrides) : Settings :=
  { s with
    encoding := o.encoding.getD s.encoding
    preserveMark := o.preserveMark.getD s.preserveMark
    timeout := (o.timeout.map limitOf).getD s.timeout
    strict := o.strict.getD s.strict
    baseDir := o.baseDir.getD s.baseDir }

/-! ## Validity -/

/-- The keys that are settings or places in the chain and no names of commands. -/
def reservedKeys : List String := [Key.opening, Key.closing, Key.before, Key.other, Key.after]

/-- The names of encodings that may be configured, in lower case. -/
def encodingNames : List String := ["utf-8", "utf8", "latin1", "iso-8859-1"]

/-- How messages name a command. -/
def commandField (key : String) : String := "commands.\"" ++ key ++ "\""

/-- How messages name a constant. -/
def constantField (key : String) : String := "constants.\"" ++ key ++ "\""

/-- What is wrong with settings. -/
inductive InvalidSetting where
  | encoding
  | notReserved (key : String)
  | unusableMarker (key : String)
  | emptyCommand (key : String)
  | reservedConstant (key : String)
  deriving DecidableEq, Repr

/-- The wording of a fault. -/
def InvalidSetting.message : InvalidSetting → String
  | .encoding =>
    "render.encoding must be one of " ++ ", ".intercalate encodingNames
  | .notReserved key =>
    commandField key ++ " is not a reserved key (expected one of " ++
      ", ".intercalate reservedKeys ++ ")"
  | .unusableMarker key => commandField key ++ " cannot contain whitespace, '<' or '>'"
  | .emptyCommand key => commandField key ++ " cannot be empty"
  | .reservedConstant key => constantField key ++ ": reserved keys belong in [commands]"

/-- Whether a name may be configured as the encoding; the case of ASCII letters does not matter. -/
def isEncodingName (name : String) : Bool :=
  encodingNames.contains (String.ofList (name.toList.map Char.toLower))

/-- Whether a key begins like a reserved one. -/
def beginsReserved (key : String) : Bool := key.toList.head? == some '>'

/-- Whether a key sets a marker. -/
def isMarkerKey (key : String) : Bool := key == Key.opening || key == Key.closing

/-- Whether a text can stand at an end of a tag. -/
def isMarkerText (text : String) : Bool :=
  text.toList.all fun c => !isBlank c && c != '<' && c != '>'

/-- What is wrong with a command. -/
def commandFault? (key value : String) : Option InvalidSetting :=
  if beginsReserved key && !reservedKeys.contains key then some (.notReserved key)
  else if isMarkerKey key then
    if isMarkerText value then none else some (.unusableMarker key)
  else if value.isEmpty then some (.emptyCommand key)
  else none

/-- What is wrong with a constant. -/
def constantFault? (key : String) : Option InvalidSetting :=
  if beginsReserved key then some (.reservedConstant key) else none

namespace Settings

/-- The first fault of settings: of the encoding, then of the commands and the constants in their
orders. -/
def fault? (s : Settings) : Option InvalidSetting :=
  if isEncodingName s.encoding then
    (s.commands.findSome? fun c => commandFault? c.1 c.2).or
      (s.constants.findSome? fun c => constantFault? c.1)
  else some .encoding

/-! ## The use of settings -/

/-- The options of a rendering. -/
def options (s : Settings) : Except UnknownEncoding Options := do
  let encoding ← Encoding.ofName s.encoding
  .ok { encoding, preserveMark := s.preserveMark, timeout := s.timeout, strict := s.strict
        baseDir := s.baseDir }

/-- The registry of a rendering: the two commands that need no configuration, then the configured
commands, then the constants. -/
def registry (s : Settings) : Registry :=
  let r := (Registry.standard.insert "include" (.alias "include")).insert "echo" (.alias "echo")
  let r := s.commands.foldl (fun r c => r.configure c.1 c.2) r
  s.constants.foldl (fun r c => r.insert c.1 (.handler c.2.handler)) r

end Settings

end Inlay
