import QasmHighlight.Document.Store
import QasmHighlight.Log.Event
import QasmHighlight.Wire.Encoding

/-!
# Sessions

A session serves one editor.  Its state is the texts of the open documents and
the trace level; the limits of the tokenizer stay as they were set at the start.
Handling an operation gives the next state, a result, the events to log and
the notices to send to the editor.
-/

namespace QasmHighlight

structure Session where
  limits : Limits := {}
  documents : Store := {}
  trace : TraceLevel := .off

inductive Operation where
  /-- The editor introduces itself and may set a trace level. -/
  | handshake (trace : Option TraceLevel)
  /-- The editor has taken note of the answer to its introduction. -/
  | acknowledge
  | shutdown
  | setTrace (trace : TraceLevel)
  | openDocument (uri : String) (version : Int) (text : String)
  | changeDocument (uri : String) (version : Int) (changes : List Change)
  | closeDocument (uri : String)
  /-- The tokens of a document in their wire form. -/
  | tokens (uri : String)
  | text (uri : String)
  | clear
  | settings
  | describe

inductive Result where
  | nothing
  | introduction
  | tokens (data : List Quintuple)
  | refused (refusal : Refusal)
  | text (text : Option String)
  | settings (limits : Limits)
  | description (text : String)

/-- A message that the editor shows to its user. -/
structure Notice where
  message : String

/-- All that comes of an operation besides the next state. -/
structure Outcome where
  result : Result
  events : List Log.Event := []
  notices : List Notice := []

namespace Session

/-- The tokens of a text in their wire form, and what is logged about them. -/
def highlight (limits : Limits) (text : String) :
    Except Refusal (List Quintuple × List Log.Event) :=
  match tokenize limits text with
  | .error refusal => .error refusal
  | .ok found =>
    let data := encode found.tokens
    .ok (data,
      found.diagnostics.map .diagnosed ++
        [.tokenized text.utf8ByteSize found.tokens.length data.length found.diagnostics.length,
         .tokensFound found.tokens])

def tokensOf (session : Session) (uri : String) : Outcome :=
  match session.documents.get? uri with
  | none => ⟨.tokens [], [.tokensRequested uri, .tokensUnopened uri], []⟩
  | some text =>
    match highlight session.limits text with
    | .error refusal => ⟨.refused refusal, [.tokensRequested uri, .refused uri refusal], []⟩
    | .ok (data, events) => ⟨.tokens data, .tokensRequested uri :: events, []⟩

def description (session : Session) : String :=
  "QasmBackend \x7b documents_count: " ++ toString session.documents.size ++ ", trace: " ++
    session.trace.title ++ ", config: ServerConfig \x7b limits: " ++
    Log.limitsText session.limits ++ " \x7d \x7d"

def handle (session : Session) (operation : Operation) : Session × Outcome :=
  match operation with
  | .handshake trace =>
    ({ session with trace := trace.getD session.trace },
      ⟨.introduction, [.handshakeReceived, .limitsInForce session.limits], []⟩)
  | .acknowledge =>
    (session, ⟨.nothing, [.acknowledged], [⟨"OpenQASM language server initialized"⟩]⟩)
  | .shutdown => ({ session with trace := .off }, ⟨.nothing, [.shutdownReceived], []⟩)
  | .setTrace trace => ({ session with trace := trace }, ⟨.nothing, [.traceSet trace], []⟩)
  | .openDocument uri version text =>
    ({ session with documents := session.documents.put uri text },
      ⟨.nothing, [.opening uri version text.utf8ByteSize], []⟩)
  | .changeDocument uri version changes =>
    let (documents, text, splices) := session.documents.change uri changes
    ({ session with documents := documents },
      ⟨.text (some text),
        .changing uri version changes.length ::
          (if session.documents.contains uri then [] else [.changeUnopened uri]) ++
          splices.map .spliced ++ [.changed uri text.utf8ByteSize], []⟩)
  | .closeDocument uri =>
    ({ session with documents := session.documents.remove uri },
      ⟨.nothing,
        [if session.documents.contains uri then .closed uri else .closeUnopened uri], []⟩)
  | .tokens uri => (session, session.tokensOf uri)
  | .text uri => (session, ⟨.text (session.documents.get? uri), [], []⟩)
  | .clear => ({ session with documents := {} }, ⟨.nothing, [], []⟩)
  | .settings => (session, ⟨.settings session.limits, [], []⟩)
  | .describe => (session, ⟨.description session.description, [], []⟩)

end Session
end QasmHighlight
