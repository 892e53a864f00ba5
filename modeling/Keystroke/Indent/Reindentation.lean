import Keystroke.Document.Lines
import Keystroke.Indent.Style

/-!
# Reindentation

A line is indented after the line above it: one step further after an opening brace, one column
further after the start of a block comment, one column less after its end.
-/

namespace Keystroke

/-- The column to which a line is to be indented, and with it perhaps the line below. -/
structure Reindentation where
  line : Line
  column : Nat
  /-- The last line of a block comment of which `line` is the one before. -/
  closing? : Option Line
deriving DecidableEq

/-- The width of an indentation: a tab counts as a full step. -/
def indentWidth (style : IndentStyle) (indentation : Text) : Except Fault Nat :=
  indentation.foldlM (fun width c => Word.add width (if c = '\t' then style.width else 1)) 0

def columnBelow (style : IndentStyle) (above : Line) : Except Fault Nat := do
  let width ← indentWidth style above.indentation
  if above.endsWithOpenBrace then Word.add width style.width
  else if above.hasCommentStart then Word.add width 1
  else if above.hasCommentEnd then .ok (width - 1)
  else .ok width

/-- How to indent the line at an offset. The first line stays as it is. -/
def Document.reindent {κ : Type} (document : Document κ) (offset : Nat) (style : IndentStyle) :
    Except Fault (Option Reindentation) := do
  let line ← document.lineAt offset
  if line.number = 1 then .ok none
  else
    let above ← document.lineAt (line.start - 1)
    let column ← columnBelow style above
    -- Enter in a new block comment leaves three lines: the last is aligned with the second.
    if above.hasCommentStart && line.isCommentInterior && line.stop < document.size then
      let below ← document.lineAt (line.stop + 1)
      .ok (some { line, column, closing? := if below.hasCommentEnd then some below else none })
    else
      .ok (some { line, column, closing? := none })

end Keystroke
