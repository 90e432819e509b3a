import QasmHighlight.Lexeme.Basic
import QasmHighlight.Token.Vocabulary

/-!
# Gate calls

A name heads a gate call when an operand follows it, at once or after a list of
parameters in parentheses.  Comments do not count.  Parentheses pair within a
statement only: no pair reaches over a semicolon or a brace.

The question is answered twice.  `headsCall` looks through the lexemes that
follow, which may take as long as the text is; `Lookahead` prepares two tables
in one pass each and answers from them at once.
-/

namespace QasmHighlight

/-- A lexeme that a gate can be applied to: a hardware qubit or any word that is
not a keyword. -/
def Lexeme.isOperand (lexeme : Lexeme) : Bool :=
  match lexeme.kind with
  | .hardwareQubit => true
  | .word => Vocabulary.reservedClass? lexeme.text != some .keyword
  | _ => false

/-- What follows the parenthesis that closes one opened before, with `depth`
more opened since. -/
def afterPartner? (depth : Nat) : List Lexeme → Option (List Lexeme)
  | [] => none
  | lexeme :: rest =>
    match lexeme.kind with
    | .punctuation .openParen => afterPartner? (depth + 1) rest
    | .punctuation .closeParen =>
      match depth with
      | 0 => some rest
      | outer + 1 => afterPartner? outer rest
    | .punctuation .semicolon => none
    | .punctuation .openBrace => none
    | .punctuation .closeBrace => none
    | _ => afterPartner? depth rest

/-- Whether the first lexeme that is no comment is an operand. -/
def operandFollows (rest : List Lexeme) : Bool :=
  (rest.find? (!·.isComment)).any Lexeme.isOperand

/-- Whether a name before `rest` heads a gate call. -/
def headsCall (rest : List Lexeme) : Bool :=
  match rest.dropWhile Lexeme.isComment with
  | [] => false
  | next :: more =>
    next.isOperand ||
      (next.kind == .punctuation .openParen && (afterPartner? 0 more).any operandFollows)

/-- For each lexeme, the place of the next one that is no comment. -/
def nextSignificant (lexemes : List Lexeme) : List (Option Nat) :=
  (lexemes.zipIdx.foldr
    (fun x found =>
      (found.2 :: found.1, if x.1.isComment then found.2 else some x.2))
    ([], none)).1

/-- The parentheses paired so far, and the places of those still open in the
statement, the innermost first. -/
structure Pairing where
  partners : Array (Option Nat)
  unclosed : List Nat

def Pairing.step (pairing : Pairing) (lexeme : Lexeme) (place : Nat) : Pairing :=
  match lexeme.kind with
  | .punctuation .openParen => { pairing with unclosed := place :: pairing.unclosed }
  | .punctuation .closeParen =>
    match pairing.unclosed with
    | [] => pairing
    | start :: outer => ⟨pairing.partners.setIfInBounds start (some place), outer⟩
  | .punctuation .semicolon => { pairing with unclosed := [] }
  | .punctuation .openBrace => { pairing with unclosed := [] }
  | .punctuation .closeBrace => { pairing with unclosed := [] }
  | _ => pairing

/-- For each open parenthesis, the place of the one that closes it. -/
def matchingClose (lexemes : List Lexeme) : Array (Option Nat) :=
  (lexemes.zipIdx.foldl (fun (pairing : Pairing) x => pairing.step x.1 x.2)
    ⟨Array.replicate lexemes.length none, []⟩).partners

/-- The tables that answer questions about the lexemes ahead. -/
structure Lookahead where
  lexemes : Array Lexeme
  next : Array (Option Nat)
  close : Array (Option Nat)

namespace Lookahead

def ofLexemes (lexemes : List Lexeme) : Lookahead :=
  ⟨lexemes.toArray, (nextSignificant lexemes).toArray, matchingClose lexemes⟩

def isOperandAt (ahead : Lookahead) (place : Nat) : Bool :=
  ahead.lexemes[place]?.any Lexeme.isOperand

def nextAt? (ahead : Lookahead) (place : Nat) : Option Nat :=
  ahead.next[place]?.join

/-- The place of the parenthesis that closes the one at a place. -/
def closeAt? (ahead : Lookahead) (place : Nat) : Option Nat :=
  ahead.close[place]?.join

/-- Whether a name at a place heads a gate call. -/
def headsCallAt (ahead : Lookahead) (place : Nat) : Bool :=
  match ahead.nextAt? place with
  | none => false
  | some next =>
    ahead.isOperandAt next ||
      ((ahead.closeAt? next).bind ahead.nextAt?).any ahead.isOperandAt

end Lookahead
end QasmHighlight
