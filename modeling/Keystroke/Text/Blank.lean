import Keystroke.Text.CharClass

/-! White space, and the indentation of a line. -/
namespace Keystroke.Text

/-- The characters with the Unicode property White_Space. -/
def blanks : CharClass := ⟨[
  (0x9, 0xd), (0x20, 0x20), (0x85, 0x85), (0xa0, 0xa0), (0x1680, 0x1680), (0x2000, 0x200a),
  (0x2028, 0x2029), (0x202f, 0x202f), (0x205f, 0x205f), (0x3000, 0x3000)]⟩

def isBlank (c : Char) : Bool := blanks.has c

def indentation (text : Text) : Text := text.takeWhile isBlank

def lastVisible? (text : Text) : Option Char := text.reverse.find? (!isBlank ·)

/-- A text is its indentation followed by the rest. -/
theorem indentation_append (text : Text) :
    text.indentation ++ text.dropWhile isBlank = text :=
  List.takeWhile_append_dropWhile

end Keystroke.Text
