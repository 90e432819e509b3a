import QasmHighlight.Json.Basic
import QasmHighlight.Protocol.Introduction
import QasmHighlight.Text.Count

/-!
# Frames

On the connection a message is a block of header lines, an empty line and a JSON
text.  One of the header lines gives the length of the text in bytes.
-/

namespace QasmHighlight
namespace Protocol

open Text

def frame (value : Json) : String :=
  let body := value.render
  s!"Content-Length: {body.utf8ByteSize}\r\n\r\n" ++ body

/-- A header line without the line break and the blanks around it. -/
def headerText (line : String) : String :=
  line.trimAscii.toString

/-- The length that a header line gives, if it gives one. -/
def contentLength? (line : String) : Option Nat :=
  match (headerText line).splitOn ":" with
  | [name, value] =>
    if headerText name = "Content-Length" then count? (headerText value) else none
  | _ => none

def noticeJson (notice : Notice) : Json :=
  .object
    [("jsonrpc", .string "2.0"), ("method", .string noticeMethod),
     ("params", noticeParams notice)]

end Protocol
end QasmHighlight
