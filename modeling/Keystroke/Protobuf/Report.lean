import Keystroke.Diagnostic
import Keystroke.Protobuf.Tokenize

/-! Lexical errors: one diagnostic for each character that starts no token. -/

namespace Keystroke.Protobuf

def unknownText (text : Text) : String :=
  "token recognition error at: '" ++ String.ofList (text.escape ['\'', '"']) ++ "'"

def reportErrors (report : Report) (placed : List (Lexeme × Token Kind)) : Except Fault Report :=
  (placed.filter (·.1.kind == .error)).foldlM
    (fun report (lexeme, token) => report.addAt (unknownText lexeme.text) token) report

def tokenizeReporting (text : Text) (report : Report) :
    Except Fault (TokenList Kind × Report) := do
  let tokens ← tokenize text
  let report ← reportErrors report ((lexemes text).zip tokens.toList)
  .ok (tokens, report)

end Keystroke.Protobuf
