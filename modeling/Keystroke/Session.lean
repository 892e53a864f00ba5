import Keystroke.Document.Brackets
import Keystroke.Indent.Reindentation
import Keystroke.Stroke.LineBreak
import Keystroke.Stroke.Pairing

/-!
# Editing sessions

A text with a caret, and the keys that change them. The text is always read as Protobuf, anew for
each key.
-/

namespace Keystroke

structure Session where
  text : Text
  caret : Nat
deriving DecidableEq

inductive Key where
  | type (c : Char)
  | enter
  | reindent (style : IndentStyle)
  /-- Go to the partner of the bracket beside the caret. -/
  | jump
  | backspace
  | move (offset : Nat)
deriving DecidableEq

namespace Session

def ofStroke {κ : Type} (stroke : Stroke κ) : Session := ⟨stroke.result, stroke.caret⟩

def indentLine (text : Text) (column : Nat) (line : Line) : Text :=
  (text.splice? line.start (line.start + line.indentation.byteSize)
    (List.replicate column ' ')).getD text

/-- Carries out a reindentation. The line below comes first, so that the offsets of the line itself
still hold. -/
def indent (session : Session) (change : Reindentation) : Session :=
  let text := (change.closing?.map (indentLine session.text change.column)).getD session.text
  ⟨indentLine text change.column change.line, change.line.start + change.column⟩

/-- Takes away the character before the caret, if the caret is in the text and not at its start. -/
def backspace (session : Session) : Session :=
  match session.text.splitAt? session.caret with
  | none => session
  | some (before, after) =>
    match before.getLast? with
    | none => session
    | some c => ⟨before.dropLast ++ after, session.caret - c.utf8Size⟩

def press (session : Session) (key : Key) : Except Fault Session := do
  let document ← Document.protobuf session.text
  match key with
  | .type c =>
    let stroke ← Stroke.start document session.caret c
    .ok (ofStroke stroke.pair.2)
  | .enter =>
    let stroke ← Stroke.enter document session.caret
    let stroke ← stroke.layOut
    .ok (ofStroke stroke)
  | .reindent style =>
    let change? ← document.reindent session.caret style
    .ok ((change?.map session.indent).getD session)
  | .jump =>
    let pair? ← document.matchingBracket session.caret
    .ok { session with caret := (pair?.map (·.partner.start)).getD session.caret }
  | .backspace => .ok session.backspace
  | .move offset => .ok { session with caret := offset }

end Session

end Keystroke
