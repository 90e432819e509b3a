import QasmHighlight.Json.Basic
import QasmHighlight.Session.Basic

/-!
# What the editor is told

The JSON forms of the legend, of the answer to the editor's introduction, of
token data and of notices.
-/

namespace QasmHighlight
namespace Protocol

/-- The names of the token classes in legend order, and no modifiers. -/
def legend : Json :=
  .object
    [("tokenTypes", .array (TokenClass.legend.map fun c => .string c.name)),
     ("tokenModifiers", .array [])]

/-- What the server can do: it takes whole texts of documents and gives the
tokens of whole documents. -/
def capabilities : Json :=
  .object
    [("textDocumentSync", .nat 1),
     ("semanticTokensProvider",
      .object [("legend", legend), ("range", .bool false), ("full", .bool true)])]

def introduction : Json :=
  .object
    [("capabilities", capabilities),
     ("serverInfo", .object [("name", .string "qasm"), ("version", .string "0.1.0")])]

def tokenData (data : List Quintuple) : Json :=
  .object [("data", .array ((flatten data).map .nat))]

def noticeMethod : String := "window/logMessage"

/-- The parameters of a notice; type three is plain information. -/
def noticeParams (notice : Notice) : Json :=
  .object [("type", .nat 3), ("message", .string notice.message)]

end Protocol
end QasmHighlight
