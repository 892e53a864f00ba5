import Keystroke.Pattern.Basic

/-!
# The longest match

A list of rules, each a pattern with the kind of what it matches, is tried on the start of a text.
The longest start that any rule matches counts, and of the rules that match it the first.
-/

namespace Keystroke

structure Rule (κ : Type) where
  kind : κ
  pattern : Pattern

namespace Rule

variable {κ : Type}

/-- The kind of the first rule that matches the empty text. -/
def accepted? (rules : List (Rule κ)) : Option κ :=
  (rules.find? (·.pattern.nullable)).map (·.kind)

/-- The rules for what may follow `c`, without those that are over. -/
def advance (c : Char) (rules : List (Rule κ)) : List (Rule κ) :=
  (rules.map fun rule => ⟨rule.kind, rule.pattern.derivative c⟩).filter (!·.pattern.isNever)

/-- The longest start of a text that some rule matches: the first such rule's kind, and the number
of characters. -/
def longest? : List (Rule κ) → Text → Option (κ × Nat)
  | [], _ => none
  | rules, [] => (accepted? rules).map (·, 0)
  | rules, c :: rest =>
    match longest? (advance c rules) rest with
    | some (kind, n) => some (kind, n + 1)
    -- No rule gets beyond this place with success: what has been read so far is all there is.
    | none => (accepted? rules).map (·, 0)

end Rule

end Keystroke
