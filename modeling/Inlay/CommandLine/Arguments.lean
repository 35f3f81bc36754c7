import Inlay.Number.Reading
import Inlay.Path
import Inlay.Settings.Expansion
import Inlay.Text.Quoted

set_option autoImplicit false

/-! # Arguments

The command line names one document to render, and how. An option with a value takes it from the
same argument or from the next one. Short options may share an argument, and after `--` every
argument is the document. A value in an argument of its own is checked only when the next argument
is understood, so a misspelt option is reported before a bad value in front of it.
-/

namespace Inlay.CommandLine

/-! ## Parameters -/

/-- What can be given to the `render` command. -/
inductive Parameter where
  | source
  | output
  | config
  | baseDir
  | encoding
  | timeout
  | dropMark
  | allowLeftover
  | define
  | verbose
  | help
  deriving DecidableEq, Repr

namespace Parameter

/-- How messages show a parameter. -/
def shown : Parameter → String
  | .source => "<SOURCE>"
  | .output => "--output <OUTPUT>"
  | .config => "--config <CONFIG>"
  | .baseDir => "--base-dir <BASE_DIR>"
  | .encoding => "--encoding <ENCODING>"
  | .timeout => "--timeout-ms <TIMEOUT_MS>"
  | .dropMark => "--no-preserve-bom"
  | .allowLeftover => "--allow-leftover-attrs"
  | .define => "--var <VARS>"
  | .verbose => "--verbose"
  | .help => "--help"

/-- Whether a parameter has a value. -/
def takesValue : Parameter → Bool
  | .dropMark | .allowLeftover | .verbose | .help => false
  | _ => true

/-- Whether a parameter may be given again. -/
def isRepeatable (p : Parameter) : Bool := p == .define

/-- The options by their long names. -/
def longNames : List (String × Parameter) :=
  [("output", .output), ("config", .config), ("base-dir", .baseDir), ("encoding", .encoding),
   ("timeout-ms", .timeout), ("no-preserve-bom", .dropMark),
   ("allow-leftover-attrs", .allowLeftover), ("var", .define), ("verbose", .verbose),
   ("help", .help)]

/-- The options by their letters. -/
def letters : List (Char × Parameter) :=
  [('o', .output), ('c', .config), ('D', .define), ('v', .verbose), ('h', .help)]

end Parameter

/-- What is wrong with the arguments. -/
inductive UsageFault where
  | noCommand
  | unknownCommand (name : String)
  | unexpectedArgument (shown : String)
  | unexpectedValue (value : String) (p : Parameter)
  | missingValue (p : Parameter)
  | invalidValue (value : String) (p : Parameter) (reason : String)
  | repeated (p : Parameter)
  | missingSource
  deriving DecidableEq, Repr

/-- The wording of a fault. -/
def UsageFault.message : UsageFault → String
  | .noCommand => "SSI - asynchronous server-side include renderer"
  | .unknownCommand name => "error: unrecognized subcommand '" ++ name ++ "'"
  | .unexpectedArgument shown => "error: unexpected argument '" ++ shown ++ "' found"
  | .unexpectedValue value p =>
    "error: unexpected value '" ++ value ++ "' for '" ++ p.shown ++ "' found; no more were expected"
  | .missingValue p =>
    "error: a value is required for '" ++ p.shown ++ "' but none was supplied"
  | .invalidValue value p reason =>
    "error: invalid value '" ++ value ++ "' for '" ++ p.shown ++ "': " ++ reason
  | .repeated p => "error: the argument '" ++ p.shown ++ "' cannot be used multiple times"
  | .missingSource =>
    "error: the following required arguments were not provided:\n  " ++ Parameter.source.shown

/-! ## Requests -/

/-- A request to render a document. -/
structure Request where
  source : Path := ⟨""⟩
  output : Option Path := none
  config : Option Path := none
  baseDir : Option Path := none
  encoding : Option String := none
  timeout : Option Nat := none
  dropMark : Bool := false
  allowLeftover : Bool := false
  /-- The variables of the document, in the order given. -/
  bindings : List (String × String) := []
  verbose : Bool := false

/-- A value that has to be a path. -/
def pathValue (p : Parameter) (value : String) : Except UsageFault Path :=
  if value.isEmpty then .error (.missingValue p) else .ok ⟨value⟩

/-- A value that has to be a natural number of 64 bits. -/
def numberValue (p : Parameter) (value : String) : Except UsageFault Nat :=
  (readNatural64 value).mapError fun fault => .invalidValue value p fault.message

/-- A value that has to be a name, an equals sign and a text. -/
def definitionValue (p : Parameter) (value : String) : Except UsageFault (String × String) :=
  let chars := value.toList
  let name := chars.takeWhile (· != '=')
  match name, chars.dropWhile (· != '=') with
  | _ :: _, _ :: text => .ok (String.ofList name, String.ofList text)
  | _, _ => .error (.invalidValue value p ("expected NAME=VALUE, got " ++ quotedText value))

/-- A request with the value of a parameter put in. -/
def Request.set (r : Request) (p : Parameter) (value : String) : Except UsageFault Request :=
  match p with
  | .source => (pathValue p value).map fun path => { r with source := path }
  | .output => (pathValue p value).map fun path => { r with output := some path }
  | .config => (pathValue p value).map fun path => { r with config := some path }
  | .baseDir => (pathValue p value).map fun path => { r with baseDir := some path }
  | .encoding => .ok { r with encoding := some value }
  | .timeout => (numberValue p value).map fun n => { r with timeout := some n }
  | .define =>
    (definitionValue p value).map fun d => { r with bindings := r.bindings ++ [d] }
  | .dropMark => .ok { r with dropMark := true }
  | .allowLeftover => .ok { r with allowLeftover := true }
  | .verbose => .ok { r with verbose := true }
  | .help => .ok r

/-! ## Reading arguments -/

/-- Arguments that are being read. -/
structure Reading where
  request : Request := {}
  /-- The parameters that were given and checked. -/
  given : List Parameter := []
  /-- The parameter given last, if it is not checked yet, with its value if that was given. -/
  pending : Option (Parameter × Option String) := none
  /-- Whether the document was given. -/
  hasSource : Bool := false
  /-- Whether `--` was read. -/
  isPlain : Bool := false

/-- Why the reading of arguments ends early. -/
inductive Interruption where
  | fault (f : UsageFault)
  | help

namespace Reading

/-- Check a parameter and put it into the request. -/
def store (r : Reading) (p : Parameter) (value : Option String) :
    Except UsageFault Reading :=
  if p.takesValue && value.isNone then .error (.missingValue p)
  else if !p.isRepeatable && r.given.contains p then .error (.repeated p)
  else (r.request.set p (value.getD "")).map fun request =>
    { r with request, given := p :: r.given }

/-- Check the parameter that is pending. -/
def settle (r : Reading) : Except UsageFault Reading :=
  match r.pending with
  | none => .ok r
  | some (p, value) => ({ r with pending := none } : Reading).store p value

/-- Take a parameter that is complete. -/
def take (r : Reading) (p : Parameter) (value : Option String) : Except Interruption Reading := do
  let r ← r.settle.mapError .fault
  if p = .help then .error .help else (r.store p value).mapError .fault

/-- Take an option whose value may follow in the next argument. -/
def await (r : Reading) (p : Parameter) : Except Interruption Reading := do
  let r ← r.settle.mapError .fault
  .ok { r with pending := some (p, none) }

/-- Read a long option. -/
def long (r : Reading) (text : List Char) : Except Interruption Reading :=
  let name := String.ofList (text.takeWhile (· != '='))
  match Parameter.longNames.lookup name, text.dropWhile (· != '=') with
  | none, _ => .error (.fault (.unexpectedArgument ("--" ++ name)))
  | some p, [] => if p.takesValue then r.await p else r.take p none
  | some p, _ :: value =>
    if p.takesValue then r.take p (some (String.ofList value))
    else .error (.fault (.unexpectedValue (String.ofList value) p))

/-- Read the letters of short options. -/
def short (r : Reading) : List Char → Except Interruption Reading
  | [] => .ok r
  | letter :: rest =>
    match Parameter.letters.lookup letter with
    | none => .error (.fault (.unexpectedArgument (String.ofList ['-', letter])))
    | some p =>
      if p.takesValue then
        match rest with
        | [] => r.await p
        | '=' :: value => r.take p (some (String.ofList value))
        | value => r.take p (some (String.ofList value))
      else do
        let r ← r.take p none
        r.short rest

/-- Read an argument that is no option. -/
def plain (r : Reading) (arg : String) : Except Interruption Reading :=
  if r.hasSource then .error (.fault (.unexpectedArgument arg))
  else do
    let r ← r.settle.mapError .fault
    .ok { r with pending := some (.source, some arg), hasSource := true }

/-- Read an argument. -/
def argument (r : Reading) (arg : String) : Except Interruption Reading :=
  if r.isPlain then r.plain arg
  else match arg.toList with
    | ['-', '-'] => .ok { r with isPlain := true }
    | '-' :: '-' :: text => r.long text
    | '-' :: letter :: rest => r.short (letter :: rest)
    | _ =>
      match r.pending with
      | some (p, none) => .ok { r with pending := some (p, some arg) }
      | _ => r.plain arg

/-- The variable of the environment that stands for the time limit. -/
def timeoutVariable : String := "SSI_TIMEOUT_MS"

/-- The request, when all arguments are read. The environment may give the time limit. -/
def finish (r : Reading) (env : Environment) : Except UsageFault Request := do
  let r ← r.settle
  let request ← match env.lookup timeoutVariable with
    | some value =>
      if r.given.contains .timeout then pure r.request else r.request.set .timeout value
    | none => pure r.request
  if r.hasSource then .ok request else .error .missingSource

end Reading

/-- Read the arguments of the `render` command. -/
def readRequest (env : Environment) (args : List String) : Except Interruption Request := do
  let r ← args.foldlM Reading.argument {}
  (r.finish env).mapError .fault

/-! ## Commands -/

/-- What a command line asks for. -/
inductive Invocation where
  | render (r : Request)
  | help
  | version

/-- Read an option in front of the command. -/
def leadingOption (text : List Char) : Except UsageFault Invocation :=
  match text with
  | '-' :: name =>
    let key := String.ofList (name.takeWhile (· != '='))
    match key, name.dropWhile (· != '=') with
    | "help", [] => .ok .help
    | "version", [] => .ok .version
    | _, _ => .error (.unexpectedArgument ("--" ++ key))
  | 'h' :: _ => .ok .help
  | 'V' :: _ => .ok .version
  | letter :: _ => .error (.unexpectedArgument (String.ofList ['-', letter]))
  | [] => .error (.unknownCommand "-")

/-- Read a command line. -/
def readArguments (env : Environment) (args : List String) : Except UsageFault Invocation :=
  match args with
  | [] => .error .noCommand
  | ["--"] => .error .noCommand
  | "--" :: name :: _ =>
    if name = "render" || name = "help" then .error (.unexpectedArgument name)
    else .error (.unknownCommand name)
  | "render" :: args =>
    match readRequest env args with
    | .ok r => .ok (.render r)
    | .error .help => .ok .help
    | .error (.fault f) => .error f
  | ["help"] => .ok .help
  | "help" :: name :: _ =>
    if name = "render" || name = "help" then .ok .help else .error (.unknownCommand name)
  | name :: _ =>
    match name.toList with
    | '-' :: letter :: rest => leadingOption (letter :: rest)
    | _ => .error (.unknownCommand name)

end Inlay.CommandLine
