import Keystroke.Document.Lines
import Keystroke.Stroke.Basic

/-!
# Line breaks

Enter types a newline. Between braces it makes room for a line of its own, and in a block comment it
goes on with the comment.
-/

namespace Keystroke.Stroke

variable {κ : Type}

def enter (document : Document κ) (offset : Nat) : Except Fault (Stroke κ) :=
  start document offset '\n'

def isBetweenBraces (stroke : Stroke κ) : Bool :=
  stroke.before.getLast? == some '\x7b' && stroke.after.head? == some '\x7d'

def commentLine : Text := ['\n', ' ', '*', ' ']

def commentEnd : Text := commentLine ++ ['\n', ' ', '*', '/']

/-- Chooses what Enter inserts. In a block comment this is not what the braces ask for, and a new
line of the comment comes before its end. -/
def layOut (stroke : Stroke κ) : Except Fault (Stroke κ) := do
  let line ← stroke.document.lineAt stroke.offset
  let closes ← stroke.document.closesComment stroke.offset
  let continues ← stroke.document.continuesComment stroke.offset
  if continues then
    .ok { stroke with
      insertion := commentLine, caret := stroke.offset + commentLine.byteSize }
  else if closes then
    .ok { stroke with
      insertion := commentEnd, caret := stroke.offset + commentLine.byteSize }
  else if stroke.isBetweenBraces then
    .ok { stroke with
      insertion := '\n' :: '\n' :: line.indentation, caret := stroke.offset + 1 }
  else .ok stroke

end Keystroke.Stroke
