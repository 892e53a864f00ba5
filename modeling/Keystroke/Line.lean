import Keystroke.Fault
import Keystroke.Text.Blank

/-!
# Lines

A line of a text: its number, counted from 1, the offsets between which it lies, and its text
without the newline that ends it.
-/

namespace Keystroke

@[ext] structure Line where
  number : Nat
  start : Nat
  stop : Nat
  text : Text
  number_pos : 0 < number
  first_iff : number = 1 ↔ start = 0
  start_le_stop : start ≤ stop
  newline_not_mem : '\n' ∉ text

instance : DecidableEq Line := fun _ _ => decidable_of_iff _ Line.ext_iff.symm

namespace Line

def ofFields (number start stop : Nat) (text : Text) : Except Fault Line :=
  if hnumber : number = 0 then .error .zeroLineNumber
  else if hfirst : number = 1 ↔ start = 0 then
    if hstop : start ≤ stop then
      if htext : '\n' ∈ text then .error .newlineInLine
      else .ok ⟨number, start, stop, text, Nat.pos_of_ne_zero hnumber, hfirst, hstop, htext⟩
    else .error (.lineEndBeforeStart start stop)
  else .error (.misplacedLineStart number start)

theorem ofFields_eq_ok_iff {number start stop : Nat} {text : Text} {line : Line} :
    ofFields number start stop text = .ok line ↔
      line.number = number ∧ line.start = start ∧ line.stop = stop ∧ line.text = text := by
  have hpos := line.number_pos
  have hfirst := line.first_iff
  have hstop := line.start_le_stop
  have htext := line.newline_not_mem
  constructor
  · unfold ofFields
    intro h
    split at h
    · cases h
    · split at h
      · split at h
        · split at h
          · cases h
          · cases h
            exact ⟨rfl, rfl, rfl, rfl⟩
        · cases h
      · cases h
  · rintro ⟨rfl, rfl, rfl, rfl⟩
    rw [ofFields, dif_neg (Nat.ne_of_gt hpos), dif_pos hfirst, dif_pos hstop, dif_neg htext]

def indentation (line : Line) : Text := line.text.indentation

def endsWithOpenBrace (line : Line) : Bool := line.text.lastVisible? == some '\x7b'

def hasCommentStart (line : Line) : Bool := line.text.includes ['/', '*']

def hasCommentEnd (line : Line) : Bool := line.text.includes ['*', '/']

/-- Whether the line looks like one between the first and the last of a block comment. -/
def isCommentInterior (line : Line) : Bool :=
  line.text.contains '*' && !line.hasCommentStart && !line.hasCommentEnd

def render (line : Line) : String :=
  let number := line.number
  let start := line.start
  let stop := line.stop
  let text := String.ofList line.text
  "Line\x7bnumber=" ++ s!"{number}, startOffset={start}, endOffset={stop}, text='{text}'" ++ "\x7d"

end Line

end Keystroke
