import Keystroke.Document.Owner

/-!
# Matching brackets

The partner of a bracket is where the nesting that it opens, or closes, is over. Brackets inside
strings and comments do not count.
-/

namespace Keystroke

structure BracketPair where
  origin : Span
  partner : Span
deriving DecidableEq

def partner? : Char → Option (Char × Side)
  | '(' => some (')', .after)
  | '[' => some (']', .after)
  | '\x7b' => some ('\x7d', .after)
  | '<' => some ('>', .after)
  | ')' => some ('(', .before)
  | ']' => some ('[', .before)
  | '\x7d' => some ('\x7b', .before)
  | '>' => some ('<', .before)
  | _ => none

/-- The first of some offsets after which as many brackets are closed as were opened. -/
def balance? (cells : Array (Option Char)) (bracket partner : Char) (depth : Nat) :
    List Nat → Except Fault (Option Nat)
  | [] => .ok none
  | offset :: rest =>
    match cells[offset]? with
    | none => .error (.indexOutOfBounds cells.size offset)
    | some cell => do
      let depth ←
        if cell = some bracket then .ok (depth + 1)
        else if cell = some partner then Word.sub depth 1
        else .ok depth
      if depth = 0 then .ok (some offset)
      else balance? cells bracket partner depth rest

namespace Document

variable {κ : Type}

/-- The offsets from `start` on and before `stop`. In a text of a given size one offset past the end
is enough, since a search stops there. -/
def offsets (size start stop : Nat) : List Nat :=
  List.range' start (min (stop - start) (size + 1))

/-- The offsets of all bytes outside strings and comments, from a position on to one side,
`index` being the place of the token there. -/
def visits (document : Document κ) (position index : Nat) (side : Side) : List Nat :=
  let size := document.size
  let isCode token := !document.classifier.isLiteral token.kind
  match side with
  | .after =>
    ((document.tokens.toList.drop index).filter isCode).flatMap fun token =>
      offsets size (max token.span.start position) token.span.stop
  | .before =>
    ((document.tokens.toList.take (index + 1)).reverse.filter isCode).flatMap fun token =>
      (offsets size token.span.start (min token.span.stop (position + 1))).reverse

/-- The pair of the bracket that stands at a position, if there is one outside strings and
comments. -/
def pairAt (document : Document κ) (position : Nat) : Except Fault (Option BracketPair) :=
  let cells := document.text.cells.toArray
  match cells[position]?.join with
  | none => .ok none
  | some bracket =>
    match partner? bracket with
    | none => .ok none
    | some (partner, side) =>
      let index := document.indexAfter position
      -- A bracket inside a string or a comment is plain text.
      if document.classifier.isLiteral (document.tokenAtIndex index).kind then .ok none
      else do
        let found? ← balance? cells bracket partner 0 (document.visits position index side)
        match found? with
        | none => .ok none
        | some found =>
          let origin ← Span.ofRange position (position + 1)
          let partner ← Span.ofRange found (found + 1)
          .ok (some { origin, partner })

/-- The pair of the bracket after the caret or, failing that, of the one before it. -/
def matchingBracket (document : Document κ) (caret : Nat) :
    Except Fault (Option BracketPair) := do
  match ← document.pairAt caret with
  | some pair => .ok (some pair)
  | none => if caret = 0 then .ok none else document.pairAt (caret - 1)

end Document

end Keystroke
