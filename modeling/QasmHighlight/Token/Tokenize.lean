import QasmHighlight.Lexeme.Scan
import QasmHighlight.Token.Classify

/-!
# Tokenization

A source text is scanned and its lexemes are classified.  Only two things make
the tokenizer refuse a text: too many bytes, which is checked first, and too
many tokens.
-/

namespace QasmHighlight

/-- The largest text that is tokenized. -/
structure Limits where
  maxBytes : Nat := 33554432
  maxTokens : Nat := 4194304
  deriving DecidableEq

inductive Refusal where
  | tooLarge (bytes limit : Nat)
  | tooManyTokens (limit : Nat)
  deriving DecidableEq

def Refusal.message : Refusal → String
  | .tooLarge bytes limit =>
    s!"document is {bytes} bytes, above the {limit} byte tokenizer limit"
  | .tooManyTokens limit => s!"document produced more than {limit} tokens"

/-- The tokens of a text and what is wrong with it, both in source order. -/
structure Tokenized where
  tokens : List Token
  diagnostics : List Diagnostic
  deriving DecidableEq

/-- The tokens and diagnostics of a text within the limits. -/
def tokenize (limits : Limits) (source : String) : Except Refusal Tokenized :=
  if limits.maxBytes < source.utf8ByteSize then
    .error (.tooLarge source.utf8ByteSize limits.maxBytes)
  else
    match scanWithin limits.maxTokens source.toList with
    | none => .error (.tooManyTokens limits.maxTokens)
    | some found => .ok ⟨classify found.lexemes, found.diagnostics⟩

end QasmHighlight
