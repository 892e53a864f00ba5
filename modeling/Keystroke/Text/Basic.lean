/-!
Text as a sequence of characters whose positions are byte offsets of its UTF-8 form.

An offset is a place in a text when the text can be cut there: `splitAt?` finds the cut, and
`splitAt?_eq_some_iff` says that it finds every one.
-/
namespace Keystroke

abbrev Text := List Char

namespace Text

/-! ## Size -/

def byteSize : Text → Nat
  | [] => 0
  | c :: rest => c.utf8Size + byteSize rest

@[simp] theorem byteSize_nil : byteSize [] = 0 := rfl

@[simp] theorem byteSize_cons (c : Char) (rest : Text) :
    byteSize (c :: rest) = c.utf8Size + byteSize rest := rfl

@[simp] theorem byteSize_append (before after : Text) :
    byteSize (before ++ after) = byteSize before + byteSize after := by
  induction before with
  | nil => simp
  | cons c rest ih => simp [ih, Nat.add_assoc]

/-! ## Cuts -/

/-- Cuts a text at a byte offset. There is no cut inside a character or past the end. -/
def splitAt? : Text → Nat → Option (Text × Text)
  | text, 0 => some ([], text)
  | [], _ + 1 => none
  | c :: rest, n + 1 =>
    if c.utf8Size ≤ n + 1 then
      (splitAt? rest (n + 1 - c.utf8Size)).map fun (before, after) => (c :: before, after)
    else none

/-- A cut at `n` is a division of the text whose first part takes `n` bytes. -/
theorem splitAt?_eq_some_iff {text before after : Text} {n : Nat} :
    text.splitAt? n = some (before, after) ↔ text = before ++ after ∧ before.byteSize = n := by
  induction text generalizing n before after with
  | nil =>
    cases n with
    | zero => cases before <;> cases after <;> simp [splitAt?]
    | succ n => cases before <;> simp [splitAt?]
  | cons c rest ih =>
    have hpos := c.utf8Size_pos
    cases n with
    | zero =>
      cases before with
      | nil => simp [splitAt?, eq_comm]
      | cons d tail =>
        have hd := d.utf8Size_pos
        simp [splitAt?]
        omega
    | succ n =>
      cases before with
      | nil =>
        simp only [splitAt?, byteSize_nil]
        split <;> simp [Option.map_eq_some_iff]
      | cons d tail =>
        simp only [splitAt?]
        split
        next hfits =>
          simp only [Option.map_eq_some_iff, Prod.exists, Prod.mk.injEq, List.cons.injEq, ih,
            byteSize_cons, List.cons_append]
          constructor
          · rintro ⟨a, b, ⟨rfl, ha⟩, ⟨rfl, rfl⟩, rfl⟩
            exact ⟨⟨rfl, rfl⟩, by omega⟩
          · rintro ⟨⟨rfl, rfl⟩, hn⟩
            exact ⟨tail, after, ⟨rfl, by omega⟩, ⟨rfl, rfl⟩, rfl⟩
        next hwide =>
          simp only [List.cons_append, List.cons.injEq, byteSize_cons]
          constructor
          · intro h
            cases h
          · rintro ⟨⟨rfl, _⟩, hn⟩
            omega

/-- The part from one offset to another, if both are places in the text, in this order. -/
def slice? (text : Text) (start stop : Nat) : Option Text := do
  let (_, rest) ← text.splitAt? start
  if start ≤ stop then
    let (part, _) ← rest.splitAt? (stop - start)
    some part
  else none

def splice? (text : Text) (start stop : Nat) (new : Text) : Option Text := do
  let (before, rest) ← text.splitAt? start
  if start ≤ stop then
    let (_, after) ← rest.splitAt? (stop - start)
    some (before ++ new ++ after)
  else none

/-- What stands at each byte: a character at its first byte, nothing at its other ones. -/
def cells : Text → List (Option Char)
  | [] => []
  | c :: rest => some c :: (List.replicate (c.utf8Size - 1) none ++ cells rest)

@[simp] theorem length_cells (text : Text) : text.cells.length = text.byteSize := by
  induction text with
  | nil => rfl
  | cons c rest ih =>
    have hpos := c.utf8Size_pos
    simp [cells, ih]
    omega

/-! ## Contents -/

def includes : Text → Text → Bool
  | [], part => part.isEmpty
  | c :: rest, part => part.isPrefixOf (c :: rest) || includes rest part

theorem includes_iff {text part : Text} : text.includes part ↔ part <:+: text := by
  induction text with
  | nil => simp [includes]
  | cons c rest ih => simp [includes, ih, List.infix_cons_iff]

/-- The last line of a text: all that follows its last newline. -/
def lastLine (text : Text) : Text :=
  (text.reverse.takeWhile (· ≠ '\n')).reverse

/-- The first line of a text: all that precedes its first newline. -/
def firstLine (text : Text) : Text :=
  text.takeWhile (· ≠ '\n')

/-- The lines of a text, without the newlines between them. There is always at least one. -/
def lines : Text → List Text
  | [] => [[]]
  | c :: rest =>
    if c = '\n' then [] :: lines rest
    else match lines rest with
      | [] => [[c]]
      | line :: others => (c :: line) :: others

end Text

end Keystroke
