import Keystroke.Span

/-! Tokens and lists of them, over any set of kinds. -/

namespace Keystroke

/-- A token: where it lies in the text, and the line (from 1) and byte column (from 0) at which it
starts. -/
structure Token (κ : Type) where
  kind : κ
  span : Span
  line : Nat
  column : Nat
deriving DecidableEq

namespace Token

variable {κ : Type}

def lastOffset (token : Token κ) : Nat := token.span.last

def render (kindName : κ → String) (token : Token κ) : String :=
  let kind := kindName token.kind
  let span := token.span.render
  let line := token.line
  let column := token.column
  s!"{kind} @ {span} ({line}:{column})"

end Token

abbrev TokenList (κ : Type) := Array (Token κ)

namespace TokenList

variable {κ : Type}

def atIndex (tokens : TokenList κ) (index : Nat) : Except Fault (Token κ) :=
  match tokens[index]? with
  | some token => .ok token
  | none => .error (.indexOutOfBounds tokens.size index)

end TokenList

end Keystroke
