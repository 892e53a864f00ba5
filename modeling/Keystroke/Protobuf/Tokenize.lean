import Keystroke.Protobuf.Lexeme
import Keystroke.Token.Classifier

/-!
# Tokens of a Protobuf text

Lexemes become tokens when their places are filled in. The places are 32-bit numbers, so a text that
is too long has no tokens.
-/

namespace Keystroke.Protobuf

structure Position where
  offset : Nat
  line : Nat
  /-- The offset at which the line starts. -/
  lineStart : Nat
deriving DecidableEq

namespace Position

def start : Position := ⟨0, 1, 0⟩

def advance (position : Position) (text : Text) : Except Fault Position :=
  let offset := position.offset + text.byteSize
  let newlines := text.count '\n'
  if newlines = 0 then
    .ok { position with offset }
  else if Word.bound ≤ newlines then
    .error .sourceTooLong
  else do
    let line ← Word.add position.line newlines
    -- The new line starts after the last newline of the piece.
    let lineStart ← Word.add position.offset (text.byteSize - text.lastLine.byteSize)
    .ok { offset, line, lineStart }

def token (position : Position) (kind : Kind) (text : Text) : Except Fault (Token Kind) := do
  let span ← Span.ofRange position.offset (position.offset + text.byteSize)
  let column ← Word.sub span.start position.lineStart
  .ok { kind, span, line := position.line, column }

end Position

/-- The tokens of some lexemes from a place on, and the end mark. -/
def place (position : Position) : List Lexeme → Except Fault (List (Token Kind))
  | [] => do
    let sentinel ← position.token .eof []
    .ok [sentinel]
  | lexeme :: rest => do
    let token ← position.token lexeme.kind lexeme.text
    let next ← position.advance lexeme.text
    let tokens ← place next rest
    .ok (token :: tokens)

def tokenize (text : Text) : Except Fault (TokenList Kind) := do
  let tokens ← place .start (lexemes text)
  .ok tokens.toArray

end Keystroke.Protobuf
