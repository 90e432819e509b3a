import QasmHighlight.Lexeme.Basic
import QasmHighlight.Token.Vocabulary
import Std.Data.HashSet

/-!
# Context of a lexeme

What a name stands for depends on the lexemes before it: the gates defined so
far, the registers declared in the blocks that are open, and where in its
statement the name stands.  The context keeps these and is updated lexeme by
lexeme.  The only fact about later lexemes that it takes is whether the
lexeme would head a gate call.
-/

namespace QasmHighlight

abbrev Names := Std.HashSet String

/-- The registers declared in the open blocks.  There is always a block: the
document itself. -/
structure Scopes where
  innermost : Names := ∅
  enclosing : List Names := []

namespace Scopes

def enter (scopes : Scopes) : Scopes :=
  ⟨∅, scopes.innermost :: scopes.enclosing⟩

/-- Closes the innermost block; the document itself stays open. -/
def leave (scopes : Scopes) : Scopes :=
  match scopes.enclosing with
  | [] => scopes
  | outer :: more => ⟨outer, more⟩

def declare (scopes : Scopes) (name : String) : Scopes :=
  { scopes with innermost := scopes.innermost.insert name }

def contains (scopes : Scopes) (name : String) : Bool :=
  scopes.innermost.contains name || scopes.enclosing.any (·.contains name)

end Scopes

/-- What an open parenthesis encloses. -/
inductive Paren where
  /-- A condition; a statement follows it. -/
  | condition
  | other
  deriving DecidableEq

/-- What the lexemes read so far say about the next one. -/
structure Context where
  gates : Names := ∅
  scopes : Scopes := {}
  /-- The open parentheses, the innermost first. -/
  parens : List Paren := []
  bracketDepth : Nat := 0
  /-- The next lexeme is at the head of a statement. -/
  atHead : Bool := true
  /-- A register is being declared; its name is expected at this bracket depth. -/
  declaring : Option Nat := none
  /-- The next word names a new gate. -/
  namingGate : Bool := false
  /-- The next open parenthesis encloses a condition. -/
  awaitsCondition : Bool := false

namespace Context

/-- The context after an operator.  At the head of a statement an `@` begins an
annotation; anywhere else it follows a gate modifier and the gate comes next. -/
def operator (context : Context) (text : String) : Context :=
  { context with
    declaring := if text = "=" then none else context.declaring
    atHead := text = "@" && !context.atHead }

def punctuation (context : Context) (mark : Punctuation) : Context :=
  match mark with
  | .semicolon => { context with atHead := true, declaring := none }
  | .openBrace =>
    { context with scopes := context.scopes.enter, atHead := true, declaring := none }
  | .closeBrace => { context with scopes := context.scopes.leave, atHead := true }
  | .openParen =>
    { context with
      parens := (if context.awaitsCondition then .condition else .other) :: context.parens
      awaitsCondition := false
      atHead := false }
  | .closeParen =>
    { context with
      parens := context.parens.tail
      atHead := context.parens.head? = some .condition }
  | .openBracket => { context with bracketDepth := context.bracketDepth + 1, atHead := false }
  | .closeBracket => { context with bracketDepth := context.bracketDepth - 1, atHead := false }
  | .comma | .colon | .dot => { context with atHead := false }

def reserved (context : Context) (role : Vocabulary.Role) : Context :=
  { context with
    namingGate := role = .namesGate
    awaitsCondition := context.awaitsCondition || role = .opensCondition
    declaring :=
      if role = .declaresRegister ∧ context.atHead then some context.bracketDepth
      else context.declaring
    atHead :=
      match role with
      | .startsStatement => true
      | .modifiesDeclaration => context.atHead
      | _ => false }

/-- The class of a name and the context after it.  `headsCall` tells whether the
name would head a gate call. -/
def name (context : Context) (text : String) (headsCall : Bool) : TokenClass × Context :=
  let after := { context with namingGate := false, atHead := false }
  if context.namingGate then
    (.gate, { after with gates := context.gates.insert text })
  else if context.declaring = some context.bracketDepth then
    (.identifier, { after with declaring := none, scopes := context.scopes.declare text })
  else if context.gates.contains text || (context.atHead && headsCall) then
    (.gate, after)
  else if context.scopes.contains text then
    (.register, after)
  else
    (.identifier, after)

def word (context : Context) (text : String) (headsCall : Bool) : TokenClass × Context :=
  match Vocabulary.reservedClass? text with
  | some reservedClass => (reservedClass, context.reserved (Vocabulary.role text))
  | none => context.name text headsCall

/-- The class of a lexeme and the context after it.  The line break that cuts a
string short ends the statement too. -/
def step (context : Context) (lexeme : Lexeme) (headsCall : Bool) : TokenClass × Context :=
  match lexeme.kind with
  | .comment => (.comment, context)
  | .string => (.string, { context with atHead := false })
  | .unterminatedString => (.string, { context with atHead := true, declaring := none })
  | .number => (.number, { context with atHead := false })
  | .hardwareQubit => (.hardwareQubit, { context with atHead := false })
  | .operator => (.operator, context.operator lexeme.text)
  | .punctuation mark => (.punctuation, context.punctuation mark)
  | .word => context.word lexeme.text headsCall

end Context
end QasmHighlight
