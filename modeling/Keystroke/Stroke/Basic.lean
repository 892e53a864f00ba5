import Keystroke.Document.Owner

/-!
# Keystrokes

A character that is being typed at a caret. It starts as an insertion of the character itself; the
modules beside this one decide what is inserted instead.
-/

namespace Keystroke

structure Stroke (κ : Type) where
  document : Document κ
  /-- Where the character is typed. -/
  offset : Nat
  typed : Char
  /-- The text before the caret. -/
  before : Text
  /-- The text after the caret. -/
  after : Text
  insertion : Text
  /-- Where the caret goes. -/
  caret : Nat

namespace Stroke

variable {κ : Type}

def start (document : Document κ) (offset : Nat) (typed : Char) : Except Fault (Stroke κ) := do
  let (before, after) ← document.cut offset
  .ok {
    document, offset, typed, before, after
    insertion := [typed]
    caret := offset + typed.utf8Size }

def result (stroke : Stroke κ) : Text := stroke.before ++ stroke.insertion ++ stroke.after

def isInCode (stroke : Stroke κ) : Bool := stroke.document.isInCode stroke.offset

def isAhead (stroke : Stroke κ) : Bool := stroke.after.head? == some stroke.typed

def isEscaped (stroke : Stroke κ) : Bool := stroke.before.getLast? == some '\\'

end Stroke

end Keystroke
