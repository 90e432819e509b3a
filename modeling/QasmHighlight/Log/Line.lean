import QasmHighlight.Log.Event

/-!
# Log lines

A line of the log has the time, the level in five columns, the part of the
server and the message, in which no control is left that could steer a terminal.
On a terminal the time and the part are dim and the level has a colour.
-/

namespace QasmHighlight
namespace Log

def Level.colour : Level → String
  | .error => "31"
  | .warn => "33"
  | .info => "32"
  | .debug => "34"
  | .trace => "35"

/-- The name of a level, right-aligned in five columns. -/
def Level.column (level : Level) : String :=
  String.ofList (List.replicate (5 - level.name.length) ' ') ++ level.name

def styled (code text : String) : String :=
  "\x1b[" ++ code ++ "m" ++ text ++ "\x1b[0m"

def dim (text : String) : String :=
  styled "2" text

/-- A character of a message as a line shows it.  A control that could steer the
terminal is named by its code; line breaks, tabs and all else stand for
themselves. -/
def shown (c : Char) : String :=
  match c with
  | '\x07' => "\\x07"
  | '\x08' => "\\x08"
  | '\x0c' => "\\x0c"
  | '\x1b' => "\\x1b"
  | '\x7f' => "\\x7f"
  | _ =>
    if 0x80 ≤ c.toNat && c.toNat ≤ 0x9f then
      "\\u\x7b" ++ String.ofList (Nat.toDigits 16 c.toNat) ++ "\x7d"
    else
      c.toString

def Event.shownMessage (event : Event) : String :=
  event.message.foldl (fun out c => out ++ shown c) ""

def Event.line (event : Event) (coloured : Bool) (time : String) : String :=
  let path := event.origin.path
  if coloured then
    dim time ++ " " ++ styled event.level.colour event.level.column ++ " " ++ dim path ++
      dim ":" ++ " " ++ event.shownMessage
  else
    time ++ " " ++ event.level.column ++ " " ++ path ++ ": " ++ event.shownMessage

end Log
end QasmHighlight
