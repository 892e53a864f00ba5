import Keystroke.Word

/-! The width of an indentation step, and how it is read from a settings file. -/

namespace Keystroke

/-- A value in a settings file, as far as indentation cares. -/
inductive Setting where
  | integer (value : Int)
  | list (items : List Setting)
  | record (fields : List (String × Setting))
  /-- Any other value. -/
  | other
deriving Inhabited

@[ext] structure IndentStyle where
  width : Nat
  width_lt : width < Word.bound

instance : DecidableEq IndentStyle := fun _ _ => decidable_of_iff _ IndentStyle.ext_iff.symm

namespace IndentStyle

def standard : IndentStyle := ⟨4, by decide⟩

/-- A width is a 32-bit number. -/
def ofWidth? : Setting → Option IndentStyle
  | .integer (.ofNat width) => if h : width < Word.bound then some ⟨width, h⟩ else none
  | _ => none

/-- The style that a setting stands for: a record, where the width may be left out and other fields
do not matter, or a list of at most the width. -/
def ofSetting? : Setting → Option IndentStyle
  | .record fields =>
    match fields.lookup "indent_width" with
    | some width => ofWidth? width
    | none => some standard
  | .list [] => some standard
  | .list [width] => ofWidth? width
  | _ => none

end IndentStyle

end Keystroke
