import Keystroke.Document.Owner
import Keystroke.Line

/-!
# Lines of a document

The line at an offset, all lines, and what the line up to the caret says about a block comment that
Enter is typed in.
-/

namespace Keystroke.Document

variable {κ : Type}

/-- The line at an offset. The offset of a newline belongs to the line that it ends. -/
def lineAt (document : Document κ) (offset : Nat) : Except Fault Line := do
  let (before, after) ← document.cut offset
  let head := before.lastLine
  let tail := after.firstLine
  Line.ofFields (before.count '\n' + 1) (offset - head.byteSize) (offset + tail.byteSize)
    (head ++ tail)

def numberLines (number start : Nat) : List Text → Except Fault (List Line)
  | [] => .ok []
  | text :: rest => do
    let line ← Line.ofFields number start (start + text.byteSize) text
    let others ← numberLines (number + 1) (line.stop + 1) rest
    .ok (line :: others)

def lines (document : Document κ) : Except Fault (List Line) :=
  numberLines 1 0 document.text.lines

/-- Whether Enter at an offset should also close a block comment: its first mark stands on the line,
and its end is missing. -/
def closesComment (document : Document κ) (offset : Nat) : Except Fault Bool :=
  if offset = 0 then .ok false
  else do
    let (before, _) ← document.cut offset
    let token ← document.tokenAt offset .before
    .ok (document.isUnclosedBlockComment token && before.lastLine.includes ['/', '*'])

/-- Whether Enter at an offset should also start a new line of a block comment: the line has a star
already. In a comment without an end, the line of its first mark does not count. -/
def continuesComment (document : Document κ) (offset : Nat) : Except Fault Bool := do
  let (before, _) ← document.cut offset
  let token ← document.tokenAt offset .after
  let head := before.lastLine
  .ok (document.classifier.isBlockComment token.kind && head.contains '*' &&
    !(document.isUnclosedBlockComment token && head.includes ['/', '*']))

end Keystroke.Document
