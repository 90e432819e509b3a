import QasmHighlight.Json.Basic
import QasmHighlight.Session.Basic

/-!
# Methods

The methods of the protocol, and the session operations that messages stand
for.  Methods that the protocol has and the server does not are told apart from
those that the protocol does not have.
-/

namespace QasmHighlight
namespace Protocol

/-- The methods, as far as the server tells them apart. -/
inductive Method where
  /-- The editor introduces itself. -/
  | handshake
  | shutdown
  /-- The editor ends the connection. -/
  | exit
  /-- A request that a session carries out. -/
  | request (operation? : Json → Option Operation)
  /-- A notification that a session takes note of. -/
  | notification (operation? : Json → Option Operation)
  /-- A request of the protocol that the server does not have. -/
  | unsupportedRequest
  /-- A notification of the protocol that the server does not have. -/
  | unsupportedNotification
  | unknown

/-- Requests of the protocol that the server does not have. -/
def unsupportedRequests : List String :=
  ["textDocument/willSaveWaitUntil", "textDocument/declaration", "textDocument/definition",
   "textDocument/typeDefinition", "textDocument/implementation", "textDocument/references",
   "textDocument/prepareCallHierarchy", "callHierarchy/incomingCalls",
   "callHierarchy/outgoingCalls", "textDocument/prepareTypeHierarchy",
   "typeHierarchy/supertypes", "typeHierarchy/subtypes", "textDocument/documentHighlight",
   "textDocument/documentLink", "documentLink/resolve", "textDocument/hover",
   "textDocument/codeLens", "codeLens/resolve", "textDocument/foldingRange",
   "textDocument/selectionRange", "textDocument/documentSymbol",
   "textDocument/semanticTokens/full/delta", "textDocument/semanticTokens/range",
   "textDocument/inlineValue", "textDocument/inlayHint", "inlayHint/resolve",
   "textDocument/moniker", "textDocument/completion", "completionItem/resolve",
   "textDocument/diagnostic", "workspace/diagnostic", "textDocument/signatureHelp",
   "textDocument/codeAction", "codeAction/resolve", "textDocument/documentColor",
   "textDocument/colorPresentation", "textDocument/formatting",
   "textDocument/rangeFormatting", "textDocument/onTypeFormatting", "textDocument/rename",
   "textDocument/prepareRename", "textDocument/linkedEditingRange", "workspace/symbol",
   "workspaceSymbol/resolve", "workspace/willCreateFiles", "workspace/willRenameFiles",
   "workspace/willDeleteFiles", "workspace/executeCommand"]

/-- Notifications of the protocol that the server does not have. -/
def unsupportedNotifications : List String :=
  ["textDocument/willSave", "textDocument/didSave", "workspace/didChangeConfiguration",
   "workspace/didChangeWorkspaceFolders", "workspace/didCreateFiles",
   "workspace/didRenameFiles", "workspace/didDeleteFiles", "workspace/didChangeWatchedFiles",
   "$/cancelRequest"]

/-! ### Parameters -/

def point? (value : Json) : Option Point := do
  return ⟨← (value.member "line").nat?, ← (value.member "character").nat?⟩

def range? (value : Json) : Option Range := do
  return ⟨← point? (value.member "start"), ← point? (value.member "end")⟩

def change? (value : Json) : Option Change := do
  let text ← (value.member "text").string?
  match value.member "range" with
  | .null => return ⟨none, text⟩
  | range => return ⟨some (← range? range), text⟩

def uri? (params : Json) : Option String :=
  ((params.member "textDocument").member "uri").string?

def version? (params : Json) : Option Int :=
  ((params.member "textDocument").member "version").int?

def handshake? (params : Json) : Option Operation :=
  match params.member "trace" with
  | .string name => (TraceLevel.ofName? name).map fun trace => .handshake (some trace)
  | _ => some (.handshake none)

/-- The note that the editor has taken; its parameters say nothing. -/
def acknowledge? : Json → Option Operation
  | .object _ | .array [] => some .acknowledge
  | _ => none

def setTrace? (params : Json) : Option Operation := do
  return .setTrace (← TraceLevel.ofName? (← (params.member "value").string?))

def openDocument? (params : Json) : Option Operation := do
  let text ← ((params.member "textDocument").member "text").string?
  return .openDocument (← uri? params) (← version? params) text

def changeDocument? (params : Json) : Option Operation := do
  let changes ← (← (params.member "contentChanges").items?).mapM change?
  return .changeDocument (← uri? params) (← version? params) changes

def closeDocument? (params : Json) : Option Operation :=
  (uri? params).map .closeDocument

def tokens? (params : Json) : Option Operation :=
  (uri? params).map .tokens

def Method.ofName (name : String) : Method :=
  match name with
  | "initialize" => .handshake
  | "initialized" => .notification acknowledge?
  | "shutdown" => .shutdown
  | "exit" => .exit
  | "$/setTrace" => .notification setTrace?
  | "textDocument/didOpen" => .notification openDocument?
  | "textDocument/didChange" => .notification changeDocument?
  | "textDocument/didClose" => .notification closeDocument?
  | "textDocument/semanticTokens/full" => .request tokens?
  | _ =>
    if unsupportedRequests.contains name then .unsupportedRequest
    else if unsupportedNotifications.contains name then .unsupportedNotification
    else .unknown

end Protocol
end QasmHighlight
