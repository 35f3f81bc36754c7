import Inlay.CommandLine.Arguments
import Inlay.Session.Drive
import Inlay.Settings.Reading

set_option autoImplicit false

/-! # Running the command

A request is carried out on a disk and an environment: the settings are loaded, the document is
rendered, and a late hook writes the text, so that nothing is written unless the rendering gets
that far. What failed is told on the error output, every failed insert on a line of its own.
-/

namespace Inlay.CommandLine

/-- What a run of the program leaves. -/
structure Report where
  exitCode : Nat
  outlet : Outlet
  /-- The text on the error output. -/
  messages : String

namespace Request

/-- The settings that a request gives itself. -/
def overrides (r : Request) : Overrides :=
  { encoding := r.encoding
    preserveMark := if r.dropMark then some false else none
    timeout := r.timeout
    strict := if r.allowLeftover then some false else none
    baseDir := r.baseDir }

/-- Where the output goes: standard output unless a file is named. -/
def destination (r : Request) : Path := r.output.getD standardOutput

/-- The document of a request. -/
def document (r : Request) (settings : Settings) (options : Options) : Document :=
  let d : Document :=
    { filename := some r.source, options, registry := settings.registry
      lateHooks := [[.act (.save r.destination)]] }
  r.bindings.foldl (fun d v => d.setVariable v.1 v.2) d

/-- The lines that tell of an error. -/
def errorLines (e : RenderError) : List String :=
  let inserts := match e with
    | .failedInserts failed =>
      failed.toList.map fun f => "  segment #" ++ toString f.1 ++ ": " ++ f.2.error.message
    | _ => []
  inserts ++ ["Error: " ++ e.message]

/-- Lines with their ends. -/
def lines (ls : List String) : String := String.join (ls.map (· ++ "\n"))

/-- The report of a failure before anything was written. -/
def failure (disk : Disk) (messages : List String) : Report :=
  { exitCode := 1, outlet := { disk }, messages := lines messages }

/-- The lines that tell of a success. -/
def successLines (r : Request) : List String :=
  if r.destination.same standardOutput then []
  else ["Rendered " ++ r.source.text ++ " -> " ++ r.destination.text]

/-- Carry out a request. Nothing that the built-in handlers begin takes time, so nothing is waited
for. -/
def run (r : Request) (disk : Disk) (env : Environment) : Report :=
  match Settings.load disk env r.config (some r.overrides) with
  | .error e => failure disk ["Error: " ++ e.message]
  | .ok settings =>
    match settings.options with
    | .error e => failure disk ["Error: " ++ e.message]
    | .ok options =>
      let session : Session := { document := r.document settings options, outlet := { disk } }
      let (session, ending) := session.render 0
      match ending with
      | .returned _ =>
        { exitCode := 0, outlet := session.outlet, messages := lines r.successLines }
      | .failed e =>
        { exitCode := 1, outlet := session.outlet, messages := lines (errorLines e) }
      | .suspended => { exitCode := 1, outlet := session.outlet, messages := "" }

/-! ## What a request reads -/

/-- The files that may hold the settings of a request. -/
def settingsFiles (r : Request) (disk : Disk) : List Path :=
  match r.config with
  | some path => [path]
  | none =>
    (upward disk.workingDirectory).map fun place => (Disk.pathOf place).join settingsFileName

/-- The path that the work of a pending insert loads. -/
def loadedPath? (insert : PendingInsert) : Option Path :=
  match insert.fetch.work with
  | .load _ path _ => some path
  | _ => none

/-- The paths of the included files, as far as a disk tells them. -/
def includedFiles (r : Request) (disk : Disk) (env : Environment) : List Path :=
  match Settings.load disk env r.config (some r.overrides) with
  | .error _ => []
  | .ok settings =>
    match settings.options with
    | .error _ => []
    | .ok options =>
      let document := r.document settings options
      match document.loader disk r.source options.encoding with
      | .error _ => []
      | .ok text => (document.install text).tokenize.1.pending.values.filterMap loadedPath?

/-- All paths that the outcome of a request hangs on, as far as a disk tells them. -/
def paths (r : Request) (disk : Disk) (env : Environment) : List Path :=
  r.settingsFiles disk ++ [r.source, r.destination] ++ r.includedFiles disk env

end Request

/-- The version of the program. -/
def versionText : String := "ssi 0.1.0\n"

/-- How the program is used. -/
def helpText : String :=
  Request.lines
    ["Usage: ssi render [OPTIONS] <SOURCE>", "", "Options:",
     "  -o, --output <OUTPUT>          Output file (default: standard output)",
     "  -c, --config <CONFIG>          Configuration file (default: the nearest ssi.toml)",
     "      --base-dir <BASE_DIR>      Base directory for virtual includes",
     "      --encoding <ENCODING>      Source and output encoding",
     "      --timeout-ms <TIMEOUT_MS>  Time limit of an insert in milliseconds, 0 for none",
     "      --no-preserve-bom          Drop a byte-order mark found in the source",
     "      --allow-leftover-attrs     Ignore attributes no handler consumed",
     "  -D, --var <VARS>               Document variable, as NAME=VALUE (repeatable)",
     "  -v, --verbose                  Verbose output",
     "  -h, --help                     Print help",
     "  -V, --version                  Print version"]

/-- Run the program. -/
def run (disk : Disk) (env : Environment) (args : List String) : Report :=
  let printed (text : String) : Report :=
    { exitCode := 0, outlet := { disk, printed := text.toUTF8 }, messages := "" }
  match readArguments env args with
  | .ok (.render r) => r.run disk env
  | .ok .help => printed helpText
  | .ok .version => printed versionText
  | .error fault => { exitCode := 2, outlet := { disk }, messages := fault.message ++ "\n" }

end Inlay.CommandLine
