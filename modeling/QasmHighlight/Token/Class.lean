/-!
# Token classes

Every token has one of seventeen classes.  Their order is the legend that the
editor receives once per session: a class travels as its place in the legend.
A name or a place that is not in the legend reads as `identifier`.
-/

namespace QasmHighlight

inductive TokenClass where
  | keyword
  | operator
  | identifier
  | number
  | string
  | comment
  | gate
  | measurement
  | register
  | punctuation
  | builtinGate
  | builtinQuantum
  | builtinClassical
  | builtinConstant
  | accessControl
  | external
  | hardwareQubit
  deriving DecidableEq, Inhabited

namespace TokenClass

def legend : List TokenClass :=
  [keyword, operator, identifier, number, string, comment, gate, measurement, register,
   punctuation, builtinGate, builtinQuantum, builtinClassical, builtinConstant, accessControl,
   external, hardwareQubit]

def name : TokenClass → String
  | keyword => "keyword"
  | operator => "operator"
  | identifier => "identifier"
  | number => "number"
  | string => "string"
  | comment => "comment"
  | gate => "gate"
  | measurement => "measurement"
  | register => "register"
  | punctuation => "punctuation"
  | builtinGate => "builtin_gate"
  | builtinQuantum => "builtin_quantum"
  | builtinClassical => "builtin_classical"
  | builtinConstant => "builtin_constant"
  | accessControl => "access_control"
  | external => "extern"
  | hardwareQubit => "hardware_qubit"

/-- The place of a class in the legend. -/
def index (c : TokenClass) : Nat :=
  legend.idxOf c

def ofName (name : String) : TokenClass :=
  (legend.find? (·.name == name)).getD identifier

def ofIndex (index : Nat) : TokenClass :=
  legend[index]?.getD identifier

theorem index_lt (c : TokenClass) : c.index < 17 := by
  cases c <;> decide

@[simp] theorem ofIndex_index (c : TokenClass) : ofIndex c.index = c := by
  cases c <;> rfl

theorem index_ofIndex {n : Nat} (h : n < 17) : (ofIndex n).index = n := by
  revert n
  decide

end TokenClass
end QasmHighlight
