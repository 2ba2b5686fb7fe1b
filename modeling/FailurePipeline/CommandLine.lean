import FailurePipeline.Text.Utf8

/-!
# The command line

Two options take a value: `--config` (`-c`), which is required, and `--input-id`.  A value follows its option
as the next argument, or is attached to it.  An option is settled only when the next option begins or the
arguments end, so an unknown argument is reported before what is wrong with the option in front of it.
-/

namespace FailurePipeline

namespace CommandLine

structure Arguments where
  /-- The path of the configuration file, which need not be text. -/
  config : Bytes
  inputId : String
  deriving Repr, DecidableEq, Inhabited

inductive Problem where
  | help
  | version
  | unknownArgument
  | invalidValue
  | repeatedOption
  | tooManyValues
  | invalidUtf8
  | missingOption
  deriving Repr, DecidableEq, Inhabited

def helpText : String :=
  "Failure-handling pipeline for log ingestion\n\n" ++
  "Usage: snowdrift [OPTIONS] --config <CONFIG>\n\n" ++
  "Options:\n" ++
  "  -c, --config <CONFIG>      Path to the YAML configuration file\n" ++
  "      --input-id <INPUT_ID>  Identifier attached to failures produced by the stdin input [default: stdin]\n" ++
  "  -h, --help                 Print help\n" ++
  "  -V, --version              Print version\n"

def versionText : String := "snowdrift-core 0.1.0\n"

/-- The text that is asked for, where a problem is a wish for one. -/
def Problem.text? : Problem → Option String
  | .help => some helpText
  | .version => some versionText
  | _ => none

inductive ValueOption where
  | config
  | inputId
  deriving Repr, DecidableEq, Inhabited

/-- What an option's name stands for. -/
inductive Flag where
  | takes (option : ValueOption)
  | shows (wish : Problem)
  deriving Repr, DecidableEq, Inhabited

def longFlag? (name : Bytes) : Option Flag :=
  if name = Utf8.encode "config" then some (.takes .config)
  else if name = Utf8.encode "input-id" then some (.takes .inputId)
  else if name = Utf8.encode "help" then some (.shows .help)
  else if name = Utf8.encode "version" then some (.shows .version)
  else none

def shortFlag? (letter : UInt8) : Option Flag :=
  if letter = 0x63 then some (.takes .config)
  else if letter = 0x68 then some (.shows .help)
  else if letter = 0x56 then some (.shows .version)
  else none

/-- An option whose value may still come. -/
structure Pending where
  option : ValueOption
  value : Option Bytes
  deriving Repr, DecidableEq, Inhabited

structure Progress where
  config : Option Bytes := none
  inputId : Option String := none
  pending : Option Pending := none
  deriving Repr, DecidableEq, Inhabited

/-- Takes the value of an option. -/
def settle (p : Progress) (option : ValueOption) (value : Option Bytes) : Except Problem Progress :=
  match value with
  | none => .error .invalidValue
  | some value =>
    match option with
    | .config =>
      if p.config.isSome then .error .repeatedOption
      else if value.isEmpty then .error .invalidValue
      else .ok { p with config := some value, pending := none }
    | .inputId =>
      if p.inputId.isSome then .error .repeatedOption
      else
        match Utf8.decode? value with
        | some text => .ok { p with inputId := some text, pending := none }
        | none => .error .invalidUtf8

/-- Settles the option that is pending. -/
def settlePending (p : Progress) : Except Problem Progress :=
  match p.pending with
  | some pending => settle p pending.option pending.value
  | none => .ok p

/-- An option begins, with its value attached or to come. -/
def begin (p : Progress) (option : ValueOption) (attached : Option Bytes) : Except Problem Progress := do
  let p ← settlePending p
  match attached with
  | some value => settle p option (some value)
  | none => .ok { p with pending := some ⟨option, none⟩ }

def wish (p : Progress) (w : Problem) : Except Problem Progress := do
  let _ ← settlePending p
  .error w

/-- An argument after `--`: a name, and after an equals sign its value. -/
def long (p : Progress) (s : Bytes) : Except Problem Progress :=
  let name := s.takeWhile (· != 0x3D)
  let value := match s.dropWhile (· != 0x3D) with
    | [] => none
    | _ :: v => some v
  match longFlag? name with
  | some (.takes option) => begin p option value
  | some (.shows w) => if value.isSome then .error .tooManyValues else wish p w
  | none => .error .unknownArgument

/-- An argument after `-`: letters, of which one that takes a value takes all that follows it. -/
def short (p : Progress) : Bytes → Except Problem Progress
  | [] => .ok p
  | letter :: rest =>
    match shortFlag? letter with
    | some (.takes option) =>
      begin p option
        (match rest with
        | [] => none
        | 0x3D :: v => some v
        | v => some v)
    | some (.shows w) => wish p w
    | none => .error .unknownArgument

/-- An argument that is no option: the value that is awaited, or unknown. -/
def plain (p : Progress) (s : Bytes) : Except Problem Progress :=
  match p.pending with
  | some ⟨option, none⟩ => .ok { p with pending := some ⟨option, some s⟩ }
  | _ => .error .unknownArgument

/-- Goes through the arguments.  After a lone `--` there may be none. -/
def progress (p : Progress) : List Bytes → Except Problem Progress
  | [] => .ok p
  | arg :: rest => do
    match arg with
    | [0x2D, 0x2D] => if rest.isEmpty then .ok p else .error .unknownArgument
    | 0x2D :: 0x2D :: s =>
      let p ← long p s
      progress p rest
    | 0x2D :: c :: s =>
      let p ← short p (c :: s)
      progress p rest
    | s =>
      let p ← plain p s
      progress p rest

/-- Reads the arguments that follow the program's name. -/
def parse (args : List Bytes) : Except Problem Arguments := do
  let p ← progress {} args
  let p ← settlePending p
  match p.config with
  | some config => .ok ⟨config, p.inputId.getD "stdin"⟩
  | none => .error .missingOption

end CommandLine

end FailurePipeline
