import QasmHighlight.Text.Alphabetic
import QasmHighlight.Text.Blank
import QasmHighlight.Text.Cursor
import QasmHighlight.Text.Numeric
import QasmHighlight.Text.Quoted
import QasmHighlight.Token.Tokenize
import QasmHighlight.Json.Reader
import QasmHighlight.Wire.Encoding
import QasmHighlight.Document.Store
import QasmHighlight.Session.Basic
import QasmHighlight.Protocol.Introduction
import QasmHighlight.Log.Filter
import QasmHighlight.Log.Line
import QasmHighlight.Program.Run
import QasmHighlight.Main
import QasmHighlight.Proofs.Lexeme.Layout
import QasmHighlight.Proofs.Document.Lookup
import QasmHighlight.Proofs.Wire.Fidelity
import QasmHighlight.Proofs.Lexeme.LineJoin
import QasmHighlight.Proofs.Lexeme.LineEnding
import QasmHighlight.Proofs.Token.Lookahead
import QasmHighlight.Proofs.Token.Context
import QasmHighlight.Proofs.Lexeme.Blanking
import QasmHighlight.Proofs.Token.Stability
import QasmHighlight.Proofs.Lexeme.Overwriting
import QasmHighlight.Proofs.Token.Transparency
import QasmHighlight.Proofs.Wire.Arrangement
import QasmHighlight.Proofs.Wire.Canonical
import QasmHighlight.Proofs.Session.Independence
import QasmHighlight.Proofs.Session.TokenRequest
import QasmHighlight.Proofs.Token.CutString
import QasmHighlight.Proofs.Document.Batches
import QasmHighlight.Proofs.Token.Declaration
import QasmHighlight.Proofs.Token.Renaming
import QasmHighlight.Proofs.Document.LineEdit
import QasmHighlight.Proofs.Token.Limits
import QasmHighlight.Proofs.Wire.CheckedPipeline
import QasmHighlight.Proofs.Wire.Rearrangement
import QasmHighlight.Proofs.Lexeme.StringLiteral
import QasmHighlight.Proofs.Lexeme.BlockComment
import QasmHighlight.Proofs.Lexeme.NumeralGrammar
import QasmHighlight.Proofs.Lexeme.LongestMatch
import QasmHighlight.Proofs.Lexeme.DiagnosticOrder
import QasmHighlight.Proofs.Document.CursorPoint
import QasmHighlight.Proofs.Token.LookaheadTables
import QasmHighlight.Proofs.Text.CursorUse
import QasmHighlight.Proofs.Token.ParenStack
import QasmHighlight.Proofs.Wire.PushOrder
