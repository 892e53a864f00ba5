import Keystroke.Text.Basic

/-! Sets of characters, written as ranges of code points. -/
namespace Keystroke

/-- A set of characters as closed ranges of code points. -/
structure CharClass where
  ranges : List (Nat × Nat)

def CharClass.has (cls : CharClass) (c : Char) : Bool :=
  cls.ranges.any fun (lo, hi) => lo ≤ c.toNat && c.toNat ≤ hi

end Keystroke
