import QasmHighlight.Json.Basic

/-!
# Messages

The editor sends messages with a method and parameters.  A message with an
identifier is a request and is answered; one without is a notification and is
not.  An answer is a result or an error with a code.
-/

namespace QasmHighlight
namespace Protocol

structure Message where
  id : Option Json
  method : String
  params : Option Json

/-- The message that a JSON value denotes; none if it has no method. -/
def Message.ofJson? (value : Json) : Option Message :=
  (value.member "method").string?.map fun method =>
    ⟨value.member? "id", method, value.member? "params"⟩

/-- Why a request is not carried out. -/
inductive RequestError where
  /-- The editor has not introduced itself. -/
  | notReady
  /-- The request does not fit the state of the connection. -/
  | invalidRequest
  /-- The method is not one of the protocol. -/
  | unknownMethod (name : String)
  /-- The method is one of the protocol, but the server does not have it. -/
  | unsupportedMethod
  /-- The method needs parameters and there are none. -/
  | missingParams
  /-- The method has no parameters and there are some. -/
  | unexpectedParams (params : Json)
  /-- The parameters do not fit the method. -/
  | invalidParams
  /-- The request failed. -/
  | failed (message : String)

namespace RequestError

def code : RequestError → Int
  | notReady => -32002
  | invalidRequest => -32600
  | unknownMethod _ | unsupportedMethod => -32601
  | missingParams | unexpectedParams _ | invalidParams => -32602
  | failed _ => -32603

def message : RequestError → String
  | notReady => "Server not initialized"
  | invalidRequest => "Invalid request"
  | unknownMethod _ | unsupportedMethod => "Method not found"
  | missingParams => "Missing params field"
  | unexpectedParams params => "Unexpected params: " ++ params.render
  | invalidParams => "Invalid params"
  | failed message => message

def data : RequestError → List (String × Json)
  | unknownMethod name => [("data", .string name)]
  | _ => []

def toJson (error : RequestError) : Json :=
  .object ([("code", .number error.code), ("message", .string error.message)] ++ error.data)

end RequestError

structure Response where
  id : Json
  content : Except RequestError Json

def Response.toJson (response : Response) : Json :=
  let content :=
    match response.content with
    | .ok result => ("result", result)
    | .error error => ("error", error.toJson)
  .object [("jsonrpc", .string "2.0"), content, ("id", response.id)]

end Protocol
end QasmHighlight
