import Keystroke.Fault

/-! Arithmetic on 32-bit numbers that stops instead of wrapping around. -/

namespace Keystroke.Word

/-- The number of 32-bit numbers. -/
abbrev bound : Nat := 4294967296

def add (a b : Nat) : Except Fault Nat :=
  if a + b < bound then .ok (a + b) else .error .addOverflow

def sub (a b : Nat) : Except Fault Nat :=
  if b ≤ a then .ok (a - b) else .error .subtractOverflow

/-- The next number, or the last one again. -/
def succSaturating (a : Nat) : Nat := min (a + 1) (bound - 1)

theorem add_eq_ok_iff {a b c : Nat} : add a b = .ok c ↔ c = a + b ∧ c < bound := by
  unfold add
  split
  · simp only [Except.ok.injEq]
    omega
  · simp only [reduceCtorEq, false_iff]
    omega

theorem sub_eq_ok_iff {a b c : Nat} : sub a b = .ok c ↔ c + b = a := by
  unfold sub
  split
  · simp only [Except.ok.injEq]
    omega
  · simp only [reduceCtorEq, false_iff]
    omega

end Keystroke.Word
