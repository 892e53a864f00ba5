import Keystroke.Protobuf.Rules

/-!
# Lexemes

A text is cut into lexemes from left to right: each is the longest match of the lexical rules, or a
single character that no rule matches. `flatten_lexemes` says that nothing is lost.
-/

namespace Keystroke.Protobuf

structure Lexeme where
  kind : Kind
  text : Text
deriving DecidableEq

/-- The kind of the lexeme at the start of a text, and how many characters it has after its first. -/
def nextExtent (text : Text) : Kind × Nat :=
  match Rule.longest? rules text with
  | some (kind, n + 1) => (kind, n)
  | _ => (.error, 0)

def lexemes : Text → List Lexeme
  | [] => []
  | c :: rest =>
    let (kind, more) := nextExtent (c :: rest)
    ⟨kind, c :: rest.take more⟩ :: lexemes (rest.drop more)
termination_by text => text.length
decreasing_by
  simp only [List.length_cons, List.length_drop]
  omega

theorem lexemes_nil : lexemes [] = [] := by
  rw [lexemes]

theorem lexemes_cons (c : Char) (rest : Text) :
    lexemes (c :: rest) =
      ⟨(nextExtent (c :: rest)).1, c :: rest.take (nextExtent (c :: rest)).2⟩ ::
        lexemes (rest.drop (nextExtent (c :: rest)).2) := by
  rw [lexemes]

/-- The lexemes of a text, put together again, are the text. -/
theorem flatten_lexemes (text : Text) : ((lexemes text).map (·.text)).flatten = text := by
  fun_induction lexemes text with
  | case1 => rfl
  | case2 c rest kind more h ih => simp [ih]

end Keystroke.Protobuf
