import QasmHighlight.Document.Change
import QasmHighlight.Session.Trace
import QasmHighlight.Token.Dump
import QasmHighlight.Token.Tokenize

/-!
# Log events

Everything the server logs is an event.  Its severity, the part of the server
that it is attributed to and its wording follow from what happened.
-/

namespace QasmHighlight
namespace Log

/-- How severe an event is, the most severe first. -/
inductive Level where
  | error
  | warn
  | info
  | debug
  | trace
  deriving DecidableEq, Inhabited

namespace Level

/-- The place of a level, the most severe at one. -/
def rank : Level → Nat
  | error => 1
  | warn => 2
  | info => 3
  | debug => 4
  | trace => 5

def name : Level → String
  | error => "ERROR"
  | warn => "WARN"
  | info => "INFO"
  | debug => "DEBUG"
  | trace => "TRACE"

def all : List Level := [error, warn, info, debug, trace]

end Level

/-- The part of the server that an event is attributed to. -/
inductive Origin where
  | program
  | handlers
  | state
  | documents
  | lexer
  deriving DecidableEq

/-- The path of a part of the server, which filters select by. -/
def Origin.path : Origin → String
  | .program => "qasm_language_server"
  | .handlers => "qasm_language_server::lsp::backend::handlers"
  | .state => "qasm_language_server::lsp::backend::state"
  | .documents => "qasm_language_server::lsp::document_store"
  | .lexer => "qasm_language_server::lexer"

inductive Event where
  | starting (stdio : Bool) (maxBytes : Nat)
  | stopped
  | handshakeReceived
  | limitsInForce (limits : Limits)
  | acknowledged
  | shutdownReceived
  | traceSet (trace : TraceLevel)
  | opening (uri : String) (version : Int) (bytes : Nat)
  | changing (uri : String) (version : Int) (changes : Nat)
  | changeUnopened (uri : String)
  | spliced (splice : Splice)
  | changed (uri : String) (bytes : Nat)
  | closed (uri : String)
  | closeUnopened (uri : String)
  | tokensRequested (uri : String)
  | tokensUnopened (uri : String)
  | diagnosed (diagnostic : Diagnostic)
  | tokenized (bytes tokens encoded diagnostics : Nat)
  | tokensFound (tokens : List Token)
  | refused (uri : String) (refusal : Refusal)

def limitsText (limits : Limits) : String :=
  "TokenizerLimits \x7b max_input_bytes: " ++ toString limits.maxBytes ++ ", max_tokens: " ++
    toString limits.maxTokens ++ " \x7d"

namespace Event

def level : Event → Level
  | refused .. => .error
  | changeUnopened _ | closeUnopened _ => .warn
  | starting .. | stopped | handshakeReceived | limitsInForce _ | acknowledged
  | shutdownReceived | traceSet _ | opening .. | changing .. | closed _ => .info
  | changed .. | tokensRequested _ | tokensUnopened _ | diagnosed _ | tokenized .. => .debug
  | spliced _ | tokensFound _ => .trace

def origin : Event → Origin
  | starting .. | stopped => .program
  | traceSet _ | tokenized .. | tokensFound _ => .state
  | spliced _ => .documents
  | diagnosed _ => .lexer
  | _ => .handlers

def message : Event → String
  | starting stdio maxBytes =>
    s!"Starting qasm-language-server 0.1.0 (stdio={stdio}, max document bytes={maxBytes})"
  | stopped => "Server stopped"
  | handshakeReceived => "Received initialize"
  | limitsInForce limits => "Tokenizer limits: " ++ limitsText limits
  | acknowledged => "Initialized"
  | shutdownReceived => "Received shutdown request"
  | traceSet trace => "Trace set to " ++ trace.title
  | opening uri version bytes => s!"Opening document: URI={uri}, version={version}, {bytes} bytes"
  | changing uri version changes =>
    s!"Changing document: URI={uri}, version={version}, {changes} change(s)"
  | changeUnopened uri => s!"didChange for unopened document {uri}; starting from empty text"
  | spliced splice =>
    s!"Splicing chars {splice.start}..{splice.stop} with {splice.bytes} bytes"
  | changed uri bytes => s!"Document {uri} is now {bytes} bytes"
  | closed uri => s!"Closed document: {uri}"
  | closeUnopened uri => s!"Failed to find document with URI={uri}"
  | tokensRequested uri => s!"Semantic tokens request for: {uri}"
  | tokensUnopened uri => s!"No document stored for {uri}; returning no tokens"
  | diagnosed diagnostic => "Lexer diagnostic: " ++ diagnostic.message
  | tokenized bytes tokens encoded diagnostics =>
    s!"Tokenized {bytes} bytes into {tokens} tokens ({encoded} encoded, {diagnostics} diagnostics)"
  | tokensFound tokens => "Tokens: " ++ dump tokens
  | refused uri refusal => s!"Tokenization of {uri} failed: {refusal.message}"

end Event
end Log
end QasmHighlight
