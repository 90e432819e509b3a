/-!
# Trace levels

How much an editor asks a server to tell about its work.
-/

namespace QasmHighlight

/-- How much of its work a server tells. -/
inductive TraceLevel where
  | off
  | messages
  | verbose
  deriving DecidableEq, Inhabited

namespace TraceLevel

/-- The name of a level on the wire. -/
def name : TraceLevel → String
  | off => "off"
  | messages => "messages"
  | verbose => "verbose"

/-- The name of a level in a log. -/
def title : TraceLevel → String
  | off => "Off"
  | messages => "Messages"
  | verbose => "Verbose"

/-- The level with a given name on the wire. -/
def ofName? (name : String) : Option TraceLevel :=
  [off, messages, verbose].find? (·.name == name)

end TraceLevel
end QasmHighlight
