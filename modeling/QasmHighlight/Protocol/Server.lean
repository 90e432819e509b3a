import QasmHighlight.Protocol.Introduction
import QasmHighlight.Protocol.Message
import QasmHighlight.Protocol.Method

/-!
# Connections

A connection to an editor begins with the editor's introduction and ends with
a shutdown request and an exit.  Before the introduction and after the shutdown
no request is carried out and no notification is taken note of.
-/

namespace QasmHighlight
namespace Protocol

inductive Phase where
  | fresh
  | running
  | shutDown
  | exited
  deriving DecidableEq, Inhabited

/-- Why a message is out of place in a phase. -/
def Phase.complaint : Phase → RequestError
  | .fresh => .notReady
  | _ => .invalidRequest

structure Server where
  phase : Phase := .fresh
  session : Session := {}

/-- All that comes of a message besides the next state. -/
structure Reaction where
  response : Option Response := none
  events : List Log.Event := []
  notices : List Notice := []

namespace Server

/-- Answers a request with an error; a notification gets no answer. -/
def reject (message : Message) (error : RequestError) : Reaction :=
  { response := message.id.map fun id => ⟨id, .error error⟩ }

/-- The answer that the result of an operation makes. -/
def content (result : Result) : Except RequestError Json :=
  match result with
  | .introduction => .ok introduction
  | .tokens data => .ok (tokenData data)
  | .refused refusal => .error (.failed refusal.message)
  | _ => .ok .null

/-- Carries out an operation and answers the message it came with. -/
def carryOut (server : Server) (message : Message) (operation : Operation) :
    Server × Reaction :=
  let (session, outcome) := server.session.handle operation
  ({ server with session := session },
    ⟨message.id.map fun id => ⟨id, content outcome.result⟩, outcome.events, outcome.notices⟩)

/-- Carries out the operation that a message stands for, if its parameters fit. -/
def attempt (server : Server) (message : Message) (operation? : Json → Option Operation) :
    Server × Reaction :=
  match message.params with
  | none => (server, reject message .missingParams)
  | some params =>
    match operation? params with
    | some operation => server.carryOut message operation
    | none => (server, reject message .invalidParams)

def introduce (server : Server) (message : Message) : Server × Reaction :=
  match server.phase, message.id with
  | .fresh, none => (server, {})
  | .fresh, some _ =>
    match message.params.map handshake? with
    | none => (server, reject message .missingParams)
    | some none => (server, reject message .invalidParams)
    | some (some operation) => { server with phase := .running }.carryOut message operation
  | _, _ => (server, reject message .invalidRequest)

def shutDown (server : Server) (message : Message) : Server × Reaction :=
  match server.phase, message.id with
  | .running, none => ({ server with phase := .shutDown }, {})
  | .running, some _ =>
    let server := { server with phase := .shutDown }
    match message.params with
    | none => server.carryOut message .shutdown
    | some params => (server, reject message (.unexpectedParams params))
  | phase, _ => (server, reject message phase.complaint)

/-- Takes a message.  After the exit nothing is taken any more. -/
def receive (server : Server) (message : Message) : Server × Reaction :=
  if server.phase = .exited then (server, {})
  else
    match Method.ofName message.method with
    | .handshake => server.introduce message
    | .shutdown => server.shutDown message
    | .exit => ({ server with phase := .exited }, {})
    | .unknown =>
      if "$/".toList.isPrefixOf message.method.toList then (server, {})
      else (server, reject message (.unknownMethod message.method))
    | .request operation? =>
      if server.phase = .running then
        if message.id.isSome then server.attempt message operation? else (server, {})
      else (server, reject message server.phase.complaint)
    | .notification operation? =>
      if server.phase = .running then
        if message.id.isSome then (server, reject message .invalidRequest)
        else server.attempt message operation?
      else (server, reject message server.phase.complaint)
    | .unsupportedRequest =>
      if server.phase = .running then
        if message.params.isSome then (server, reject message .unsupportedMethod)
        else (server, reject message .missingParams)
      else (server, reject message server.phase.complaint)
    | .unsupportedNotification =>
      if server.phase = .running then (server, reject message .invalidRequest)
      else (server, reject message server.phase.complaint)

end Server
end Protocol
end QasmHighlight
