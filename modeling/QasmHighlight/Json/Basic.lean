/-!
# JSON values

The values that travel between editor and server, and their compact text: no
blanks, members in the order in which they are given, and characters beyond ASCII
as they are.
-/

namespace QasmHighlight

/-- A JSON value.  A number that is not written as an integer keeps its text. -/
inductive Json where
  | null
  | bool (value : Bool)
  | number (value : Int)
  | decimal (text : String)
  | string (value : String)
  | array (items : List Json)
  | object (members : List (String × Json))
  deriving Inhabited

namespace Json

def nat (n : Nat) : Json := .number n

/-- The value of an object's member; null if there is none. -/
def member (value : Json) (key : String) : Json :=
  match value with
  | .object members => (members.lookup key).getD .null
  | _ => .null

def member? (value : Json) (key : String) : Option Json :=
  match value with
  | .object members => members.lookup key
  | _ => none

def string? : Json → Option String
  | .string value => some value
  | _ => none

def int? : Json → Option Int
  | .number value => some value
  | _ => none

def nat? : Json → Option Nat
  | .number (.ofNat value) => some value
  | _ => none

def items? : Json → Option (List Json)
  | .array items => some items
  | _ => none

/-- The last four hexadecimal digits of a number. -/
def hexQuad (n : Nat) : String :=
  String.ofList [(n / 4096 % 16).digitChar, (n / 256 % 16).digitChar, (n / 16 % 16).digitChar,
    (n % 16).digitChar]

def escapedChar (c : Char) : String :=
  match c with
  | '"' => "\\\""
  | '\\' => "\\\\"
  | '\x08' => "\\b"
  | '\t' => "\\t"
  | '\n' => "\\n"
  | '\x0c' => "\\f"
  | '\r' => "\\r"
  | _ => if c.toNat < 0x20 then "\\u" ++ hexQuad c.toNat else c.toString

def appendString (out value : String) : String :=
  value.foldl (fun out c => out ++ escapedChar c) (out ++ "\"") ++ "\""

mutual

def append (out : String) : Json → String
  | .null => out ++ "null"
  | .bool value => out ++ (if value then "true" else "false")
  | .number value => out ++ toString value
  | .decimal text => out ++ text
  | .string value => appendString out value
  | .array items => appendItems (out ++ "[") "" items ++ "]"
  | .object members => appendMembers (out ++ "\x7b") "" members ++ "\x7d"

/-- Appends the items of an array to a text, `before` ahead of the first and a
comma ahead of each other. -/
def appendItems (out before : String) : List Json → String
  | [] => out
  | item :: more => appendItems (append (out ++ before) item) "," more

/-- Appends the members of an object to a text, `before` ahead of the first and
a comma ahead of each other. -/
def appendMembers (out before : String) : List (String × Json) → String
  | [] => out
  | (key, value) :: more =>
    appendMembers (append (appendString (out ++ before) key ++ ":") value) "," more

end

def render (value : Json) : String :=
  append "" value

end Json
end QasmHighlight
