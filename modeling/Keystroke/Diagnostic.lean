import Keystroke.Token.Basic

/-!
# Diagnostics

Messages for the user, each with the line and the column it is about, both counted from 1.
-/

namespace Keystroke

@[ext] structure Diagnostic where
  message : String
  line : Nat
  column : Nat
  message_ne : message ≠ ""
  line_pos : 0 < line
  column_pos : 0 < column

instance : DecidableEq Diagnostic := fun _ _ => decidable_of_iff _ Diagnostic.ext_iff.symm

namespace Diagnostic

def ofFields (message : String) (line column : Nat) : Except Fault Diagnostic :=
  if hmessage : message = "" then .error .emptyMessage
  else if hline : line = 0 then .error .zeroErrorLine
  else if hcolumn : column = 0 then .error .zeroErrorColumn
  else .ok ⟨message, line, column, hmessage, Nat.pos_of_ne_zero hline, Nat.pos_of_ne_zero hcolumn⟩

def render (diagnostic : Diagnostic) : String :=
  let message := diagnostic.message
  let line := diagnostic.line
  let column := diagnostic.column
  s!"error at line {line} and column {column} : {message}"

end Diagnostic

structure Report where
  diagnostics : Array Diagnostic

namespace Report

def empty : Report := ⟨#[]⟩

def size (report : Report) : Nat := report.diagnostics.size

/-- Adds a diagnostic at a column counted from 0. -/
def add (report : Report) (message : String) (line column : Nat) : Except Fault Report := do
  let diagnostic ← Diagnostic.ofFields message line (Word.succSaturating column)
  .ok ⟨report.diagnostics.push diagnostic⟩

def addAt {κ : Type} (report : Report) (message : String) (token : Token κ) :
    Except Fault Report :=
  report.add message token.line token.column

end Report

end Keystroke
