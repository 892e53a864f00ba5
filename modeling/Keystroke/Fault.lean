import Keystroke.Text.Escape

/-!
# Faults

Everything that can stop an operation of the library, as causes. `Fault.message` is the only place
that puts a cause into words.
-/

namespace Keystroke

inductive Fault where
  /-- A sum outside the 32-bit numbers. -/
  | addOverflow
  /-- A difference below zero. -/
  | subtractOverflow
  | indexOutOfBounds (size index : Nat)
  | spanStartTooLarge (start : Nat)
  | spanStopTooLarge (stop : Nat)
  | sourceTooLong
  | emptyMessage
  | zeroErrorLine
  | zeroErrorColumn
  | zeroLineNumber
  /-- Line 1, and only line 1, starts at offset 0. -/
  | misplacedLineStart (number start : Nat)
  | lineEndBeforeStart (start stop : Nat)
  | newlineInLine
  | noTokens
  | noEndSentinel
  /-- The token at `index` does not start where the one before it stops. -/
  | tokenGap (index start expected : Nat)
  | sentinelOffset (start size : Nat)
  | offsetOutOfRange (offset size : Nat)
  | insideCharacter (offset : Nat)
  /-- The start of the text has no token before it. -/
  | nothingBefore
  | notOpening (c : Char)
  | notClosing (c : Char)
  | notQuote (c : Char)
deriving DecidableEq

namespace Fault

/-- A number in hexadecimal, with capital digits. -/
def hex (n : Nat) : String := "0x" ++ String.ofList ((Nat.toDigits 16 n).map Char.toUpper)

def message : Fault → String
  | addOverflow => "attempt to add with overflow"
  | subtractOverflow => "attempt to subtract with overflow"
  | indexOutOfBounds size index =>
    s!"index out of bounds: the len is {size} but the index is {index}"
  | spanStartTooLarge start =>
    s!"span start {start} ({hex start}) exceeds u32::MAX (0xFFFFFFFF)"
  | spanStopTooLarge stop =>
    s!"span end {stop} ({hex stop}) exceeds u32::MAX (0xFFFFFFFF)"
  | sourceTooLong => "source file exceeds 4294967295 bytes"
  | emptyMessage => "parsing error message must not be empty"
  | zeroErrorLine => "parsing error line must be 1-based, got 0"
  | zeroErrorColumn => "parsing error column must be 1-based, got 0"
  | zeroLineNumber => "line numbers are 1-based, got 0"
  | misplacedLineStart number start => s!"line {number} cannot start at offset {start}"
  | lineEndBeforeStart start stop => s!"line ends at {stop} before it starts at {start}"
  | newlineInLine => "line text contains a newline"
  | noTokens => "token list is empty"
  | noEndSentinel => "token list does not end with the end-of-input sentinel"
  | tokenGap index start expected =>
    s!"token {index} starts at {start}, expected {expected}"
  | sentinelOffset start size =>
    s!"end-of-input sentinel sits at {start} but the text is {size} bytes long"
  | offsetOutOfRange offset size =>
    s!"offset {offset} is past the end of the text ({size} bytes)"
  | insideCharacter offset => s!"offset {offset} is not on a character boundary"
  | nothingBefore => "backward token lookup needs an offset past 0"
  | notOpening c => Text.quoteChar c ++ " is not an opening character"
  | notClosing c => Text.quoteChar c ++ " is not a closing character"
  | notQuote c => Text.quoteChar c ++ " is not a quote"

/-- A computation in two steps succeeds when both steps do. -/
theorem bind_eq_ok_iff {α β : Type} {first : Except Fault α} {next : α → Except Fault β} {b : β} :
    (first >>= next) = .ok b ↔ ∃ a, first = .ok a ∧ next a = .ok b := by
  cases first with
  | error fault => simp [bind, Except.bind]
  | ok a => simp [bind, Except.bind]

/-- It fails in the first step, or in the second after the first has succeeded. -/
theorem bind_eq_error_iff {α β : Type} {first : Except Fault α} {next : α → Except Fault β}
    {fault : Fault} :
    (first >>= next) = .error fault ↔
      first = .error fault ∨ ∃ a, first = .ok a ∧ next a = .error fault := by
  cases first with
  | error fault => simp [bind, Except.bind]
  | ok a => simp [bind, Except.bind]

/-- The result of a computation that is known not to fail. -/
def valueOf {α : Type} (result : Except Fault α) (h : ∀ fault, result ≠ .error fault) : α :=
  match result, h with
  | .ok a, _ => a
  | .error fault, h => absurd rfl (h fault)

theorem valueOf_eq {α : Type} {result : Except Fault α} {a : α} (hresult : result = .ok a)
    (h : ∀ fault, result ≠ .error fault) : valueOf result h = a := by
  subst hresult
  rfl

end Fault

end Keystroke
