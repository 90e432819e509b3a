import QasmHighlight.Token.Class

/-!
# Vocabulary

Reserved words have a fixed class.  Some of them also change what is expected
of the words after them; the role of a word says how.
-/

namespace QasmHighlight
namespace Vocabulary

def keywords : List String :=
  ["OPENQASM", "include", "qubit", "bit", "int", "uint", "float", "angle", "complex", "bool",
   "let", "gate", "def", "return", "if", "else", "for", "while", "in", "break", "continue",
   "input", "output", "delay", "box", "qreg", "creg", "duration", "stretch", "void", "array",
   "switch", "case", "default", "cal", "defcal", "defcalgrammar", "pragma", "#pragma", "end",
   "ctrl", "negctrl", "inv"]

def builtinGates : List String :=
  ["h", "x", "y", "z", "s", "sdg", "t", "tdg", "sx", "rx", "ry", "rz", "cx", "cy", "cz", "ch",
   "swap", "ccx", "cswap", "crx", "cry", "crz", "cu1", "cu3", "u1", "u2", "u3", "p", "cp", "id",
   "u", "U", "CX", "cu", "phase", "cphase", "gphase"]

def builtinFunctions : List String :=
  ["sin", "cos", "tan", "exp", "ln", "sqrt", "rotl", "rotr", "popcount", "pow", "arcsin",
   "arccos", "arctan", "ceiling", "floor", "log", "mod", "real", "imag", "sizeof"]

def builtinConstants : List String :=
  ["pi", "π", "tau", "τ", "euler", "ℇ", "true", "false"]

def groups : List (TokenClass × List String) :=
  [(.keyword, keywords),
   (.builtinGate, builtinGates),
   (.builtinClassical, builtinFunctions),
   (.builtinConstant, builtinConstants),
   (.measurement, ["measure"]),
   (.builtinQuantum, ["reset", "barrier"]),
   (.accessControl, ["const", "mutable", "readonly"]),
   (.external, ["extern"])]

/-- The class of a reserved word; none for any other word. -/
def reservedClass? (word : String) : Option TokenClass :=
  (groups.find? (·.2.contains word)).map (·.1)

/-- How a reserved word bears on the words after it. -/
inductive Role where
  /-- The next word is the name of a new gate. -/
  | namesGate
  /-- A condition in parentheses follows, and a statement after it. -/
  | opensCondition
  /-- At the head of a statement, the name of a register follows. -/
  | declaresRegister
  /-- A statement follows at once. -/
  | startsStatement
  /-- Stands before a declaration and leaves the head of the statement open. -/
  | modifiesDeclaration
  | plain
  deriving DecidableEq

def role (word : String) : Role :=
  if word = "gate" then .namesGate
  else if word ∈ ["if", "while", "switch"] then .opensCondition
  else if word ∈ ["qubit", "bit", "qreg", "creg"] then .declaresRegister
  else if word = "else" then .startsStatement
  else if word ∈ ["const", "input", "output", "readonly", "mutable"] then .modifiesDeclaration
  else .plain

end Vocabulary
end QasmHighlight
