import QasmHighlight.Text.Count

/-!
# Command line

The arguments are read from left to right, and the first one that decides the
matter does: a request for help or for the version, or a misuse.  No flag and no
option may be given twice.
-/

namespace QasmHighlight
namespace Program

open Text

/-- What the program is asked to do. -/
structure Settings where
  stdio : Bool := false
  logFilter : Option String := none
  plainLog : Bool := false
  logFile : Bool := false
  maxBytes : Option Nat := none

inductive Invocation where
  | run (settings : Settings)
  | help
  | version
  | misuse

inductive Flag where
  | stdio
  | plainLog
  | logFile
  | logFilter
  | maxBytes
  | help
  | version
  deriving DecidableEq

def Flag.ofName? (name : String) : Option Flag :=
  [("stdio", stdio), ("no-color", plainLog), ("log-file", logFile), ("log-level", logFilter),
   ("max-document-bytes", maxBytes), ("help", help), ("version", version)].lookup name

def Flag.ofLetter? (letter : Char) : Option Flag :=
  [('h', help), ('V', version)].lookup letter

namespace Settings

/-- Turns a switch on; none if it is on already or is no switch of the settings. -/
def turnOn? (settings : Settings) (flag : Flag) : Option Settings :=
  match flag with
  | .stdio => if settings.stdio then none else some { settings with stdio := true }
  | .plainLog => if settings.plainLog then none else some { settings with plainLog := true }
  | .logFile => if settings.logFile then none else some { settings with logFile := true }
  | _ => none

/-- Gives an option its value; none if it has one already, if the value does not
fit, or if it is no option of the settings. -/
def assign? (settings : Settings) (flag : Flag) (value : String) : Option Settings :=
  match flag with
  | .logFilter =>
    if settings.logFilter.isSome then none else some { settings with logFilter := some value }
  | .maxBytes =>
    if settings.maxBytes.isSome then none
    else (count? value).map fun bytes => { settings with maxBytes := some bytes }
  | _ => none

end Settings

inductive Argument where
  /-- Two dashes alone: only operands follow. -/
  | separator
  /-- A name after two dashes, with the value after an equals sign. -/
  | long (name : String) (value : Option String)
  /-- The first letter after one dash. -/
  | short (letter : Char)
  | operand

/-- What an argument is by its spelling.  One dash alone is an operand. -/
def Argument.ofString (text : String) : Argument :=
  match text.toList with
  | ['-', '-'] => .separator
  | '-' :: '-' :: chars =>
    let name := String.ofList (chars.takeWhile (· ≠ '='))
    match chars.dropWhile (· ≠ '=') with
    | [] => .long name none
    | _ :: value => .long name (some (String.ofList value))
  | '-' :: letter :: _ => .short letter
  | _ => .operand

/-- What the arguments ask for, after those that made `settings`. -/
def readArguments (settings : Settings) : List String → Invocation
  | [] => .run settings
  | argument :: rest =>
    match Argument.ofString argument with
    | .separator => if rest.isEmpty then .run settings else .misuse
    | .operand => .misuse
    | .short letter =>
      match Flag.ofLetter? letter with
      | some .help => .help
      | some .version => .version
      | _ => .misuse
    | .long name attached =>
      match Flag.ofName? name, attached with
      | none, _ => .misuse
      | some .help, none => .help
      | some .version, none => .version
      | some flag, some value =>
        match settings.assign? flag value with
        | some settings => readArguments settings rest
        | none => .misuse
      | some flag, none =>
        match settings.turnOn? flag with
        | some settings => readArguments settings rest
        | none =>
          match rest with
          | [] => .misuse
          | value :: rest =>
            match Argument.ofString value with
            | .operand =>
              match settings.assign? flag value with
              | some settings => readArguments settings rest
              | none => .misuse
            | _ => .misuse

def versionText : String := "qasm-language-server 0.1.0\n"

def helpLines : List String :=
  ["OpenQASM 3.0 language server",
   "",
   "Usage: qasm-language-server [OPTIONS]",
   "",
   "Options:",
   "      --stdio",
   "          Communicate over stdin/stdout (the only transport; accepted for editor compatibility)",
   "      --log-level <LOG_LEVEL>",
   "          Log filter for stderr, e.g. \"debug\" or \"qasm_language_server=trace\" (overrides RUST_LOG)",
   "      --no-color",
   "          Disable colorized log output",
   "      --log-file",
   "          Also write a debug-level session log to the user cache directory",
   "      --max-document-bytes <MAX_DOCUMENT_BYTES>",
   "          Refuse to tokenize documents larger than this many bytes",
   "  -h, --help",
   "          Print help",
   "  -V, --version",
   "          Print version"]

def helpText : String :=
  String.join (helpLines.map fun line => line ++ "\n")

end Program
end QasmHighlight
