import QasmHighlight.Token.Basic
import QasmHighlight.Token.Context
import QasmHighlight.Token.Lookahead

/-!
# Classification

Lexemes are classified from left to right, each in the context that the ones
before it leave.  `classesFrom` looks ahead through the lexemes that follow;
`classify` does the same work with prepared tables, so that the time it takes
grows with the number of lexemes only.
-/

namespace QasmHighlight

/-- The classes of lexemes read in a context. -/
def classesFrom (context : Context) : List Lexeme → List TokenClass
  | [] => []
  | lexeme :: rest =>
    let found := context.step lexeme (headsCall rest)
    found.1 :: classesFrom found.2 rest

/-- The context that lexemes leave when `following` come after them. -/
def contextAfter (context : Context) (following : List Lexeme) : List Lexeme → Context
  | [] => context
  | lexeme :: rest =>
    contextAfter (context.step lexeme (headsCall (rest ++ following))).2 following rest

/-- The tokens found so far and the context they leave. -/
structure Classified where
  tokens : Array Token := #[]
  context : Context := {}

def Classified.step (found : Classified) (ahead : Lookahead) (lexeme : Lexeme) (place : Nat) :
    Classified :=
  let next := found.context.step lexeme (ahead.headsCallAt place)
  ⟨found.tokens.push (lexeme.toToken next.1), next.2⟩

def classify (lexemes : List Lexeme) : List Token :=
  let ahead := Lookahead.ofLexemes lexemes
  (lexemes.zipIdx.foldl (fun (found : Classified) x => found.step ahead x.1 x.2) {}).tokens.toList

end QasmHighlight
