import Keystroke.Stroke.Basic

/-!
# Brackets and quotes

An opening bracket brings its closing one, a closing bracket that stands there already is typed
over, and quotes do both.
-/

namespace Keystroke

inductive KeyClass where
  | opening (closing : Char)
  | closing
  | quote
  | plain
deriving DecidableEq

def KeyClass.of : Char → KeyClass
  | '(' => .opening ')'
  | '\x7b' => .opening '\x7d'
  | '[' => .opening ']'
  | ')' | '\x7d' | ']' => .closing
  | '"' | '\'' => .quote
  | _ => .plain

namespace Stroke

variable {κ : Type}

def waitsAhead (stroke : Stroke κ) : Bool :=
  stroke.after.find? (· != ' ') == some stroke.typed

def bring (stroke : Stroke κ) (c : Char) : Stroke κ :=
  { stroke with insertion := stroke.insertion ++ [c] }

/-- Inserts nothing: the caret moves over the character that is there. -/
def typeOver (stroke : Stroke κ) : Stroke κ := { stroke with insertion := [] }

def pairOpening (stroke : Stroke κ) (closing : Char) : Stroke κ :=
  if stroke.isInCode then stroke.bring closing else stroke

def pairClosing (stroke : Stroke κ) : Stroke κ :=
  if stroke.isAhead && stroke.isInCode then stroke.typeOver else stroke

/-- A quote in code brings a second one, unless one waits ahead. In a string, a quote that is there
already is typed over. After a backslash it is an ordinary character. -/
def pairQuote (stroke : Stroke κ) : Stroke κ :=
  if stroke.isEscaped then stroke
  else if stroke.document.isInString stroke.offset then
    -- A quote that is there already is taken for the end of the string.
    if stroke.isAhead then stroke.typeOver else stroke
  else if stroke.document.isInComment stroke.offset || stroke.waitsAhead then stroke
  else stroke.bring stroke.typed

/-- Pairs the typed character, and says whether it is one that pairs. -/
def pair (stroke : Stroke κ) : Bool × Stroke κ :=
  match KeyClass.of stroke.typed with
  | .opening closing => (true, stroke.pairOpening closing)
  | .closing => (true, stroke.pairClosing)
  | .quote => (true, stroke.pairQuote)
  | .plain => (false, stroke)

/-! ## For a caller that knows the class -/

def asOpening (stroke : Stroke κ) : Except Fault (Stroke κ) :=
  match KeyClass.of stroke.typed with
  | .opening closing => .ok (stroke.pairOpening closing)
  | _ => .error (.notOpening stroke.typed)

def asClosing (stroke : Stroke κ) : Except Fault (Stroke κ) :=
  match KeyClass.of stroke.typed with
  | .closing => .ok stroke.pairClosing
  | _ => .error (.notClosing stroke.typed)

def asQuote (stroke : Stroke κ) : Except Fault (Stroke κ) :=
  match KeyClass.of stroke.typed with
  | .quote => .ok stroke.pairQuote
  | _ => .error (.notQuote stroke.typed)

end Stroke

end Keystroke
