import Keystroke.Text.Basic

/-!
# Patterns

Regular expressions over characters. `Pattern.Matches` says which texts a pattern describes;
`Pattern.derivative` is the pattern of what may follow a given first character, so that a text is
matched by taking derivatives along it (`nullable_iff`, `derivative_iff`).
-/

namespace Keystroke

inductive Pattern where
  | never
  | empty
  | one (accepts : Char → Bool)
  | seq (first second : Pattern)
  | alt (left right : Pattern)
  | star (body : Pattern)

namespace Pattern

/-! ## What a pattern describes -/

inductive Matches : Pattern → Text → Prop where
  | empty : Matches empty []
  | one {accepts : Char → Bool} {c : Char} (h : accepts c) : Matches (one accepts) [c]
  | seq {p q : Pattern} {s t : Text} (hp : Matches p s) (hq : Matches q t) :
      Matches (seq p q) (s ++ t)
  | left {p q : Pattern} {s : Text} (h : Matches p s) : Matches (alt p q) s
  | right {p q : Pattern} {s : Text} (h : Matches q s) : Matches (alt p q) s
  | done {p : Pattern} : Matches (star p) []
  | more {p : Pattern} {s t : Text} (hp : Matches p s) (hrest : Matches (star p) t) :
      Matches (star p) (s ++ t)

theorem not_matches_never {s : Text} : ¬ Matches never s := by
  intro h
  cases h

theorem matches_empty_iff {s : Text} : Matches empty s ↔ s = [] :=
  ⟨fun h => by cases h; rfl, fun h => h ▸ .empty⟩

theorem matches_one_iff {accepts : Char → Bool} {s : Text} :
    Matches (one accepts) s ↔ ∃ c, accepts c ∧ s = [c] :=
  ⟨fun h => by cases h with | one h => exact ⟨_, h, rfl⟩, fun ⟨_, h, hs⟩ => hs ▸ .one h⟩

theorem matches_seq_iff {p q : Pattern} {s : Text} :
    Matches (seq p q) s ↔ ∃ a b, s = a ++ b ∧ Matches p a ∧ Matches q b :=
  ⟨fun h => by cases h with | seq hp hq => exact ⟨_, _, rfl, hp, hq⟩,
   fun ⟨_, _, hs, hp, hq⟩ => hs ▸ .seq hp hq⟩

theorem matches_alt_iff {p q : Pattern} {s : Text} :
    Matches (alt p q) s ↔ Matches p s ∨ Matches q s :=
  ⟨fun h => by cases h with | left h => exact .inl h | right h => exact .inr h,
   fun h => h.elim .left .right⟩

/-- A repetition that starts with `c` has a first round that does. -/
theorem matches_star_cons_iff {p : Pattern} {c : Char} {s : Text} :
    Matches (star p) (c :: s) ↔
      ∃ a b, s = a ++ b ∧ Matches p (c :: a) ∧ Matches (star p) b := by
  constructor
  · intro h
    generalize hr : star p = r at h
    generalize ht : c :: s = t at h
    induction h with
    | empty | one | seq | left | right => cases hr
    | done => cases ht
    | @more q a b hp hrest _ ih =>
      cases hr
      cases a with
      | nil => exact ih rfl ht
      | cons d a =>
        cases ht
        exact ⟨a, b, rfl, hp, hrest⟩
  · rintro ⟨a, b, rfl, hp, hrest⟩
    exact .more hp hrest

/-! ## Matching by derivatives -/

def nullable : Pattern → Bool
  | never => false
  | empty => true
  | one _ => false
  | seq p q => p.nullable && q.nullable
  | alt p q => p.nullable || q.nullable
  | star _ => true

/-- `seq`, without the parts that add nothing. -/
def andThen : Pattern → Pattern → Pattern
  | never, _ => never
  | empty, q => q
  | p, q => seq p q

/-- `alt`, without the branches that add nothing. -/
def orElse : Pattern → Pattern → Pattern
  | never, q => q
  | p, never => p
  | p, q => alt p q

/-- The pattern of what may follow `c`. -/
def derivative (c : Char) : Pattern → Pattern
  | never => never
  | empty => never
  | one accepts => if accepts c then empty else never
  | seq p q =>
    if p.nullable then ((p.derivative c).andThen q).orElse (q.derivative c)
    else (p.derivative c).andThen q
  | alt p q => (p.derivative c).orElse (q.derivative c)
  | star p => (p.derivative c).andThen (star p)

def isNever : Pattern → Bool
  | never => true
  | _ => false

theorem nullable_iff {p : Pattern} : p.nullable ↔ Matches p [] := by
  induction p with
  | never => simp [nullable, not_matches_never]
  | empty => simp [nullable, matches_empty_iff]
  | one accepts => simp [nullable, matches_one_iff]
  | seq p q ihp ihq =>
    simp only [nullable, Bool.and_eq_true, ihp, ihq, matches_seq_iff]
    constructor
    · intro ⟨hp, hq⟩
      exact ⟨[], [], rfl, hp, hq⟩
    · intro ⟨a, b, hs, hp, hq⟩
      obtain ⟨rfl, rfl⟩ := List.append_eq_nil_iff.mp hs.symm
      exact ⟨hp, hq⟩
  | alt p q ihp ihq => simp [nullable, matches_alt_iff, ihp, ihq]
  | star p _ => simp [nullable, Matches.done]

theorem andThen_iff {p q : Pattern} {s : Text} :
    Matches (p.andThen q) s ↔ Matches (seq p q) s := by
  unfold andThen
  split
  · simp [matches_seq_iff, not_matches_never]
  · rw [matches_seq_iff]
    constructor
    · intro h
      exact ⟨[], s, rfl, .empty, h⟩
    · rintro ⟨a, b, rfl, ha, hb⟩
      rw [matches_empty_iff.mp ha]
      exact hb
  · rfl

theorem orElse_iff {p q : Pattern} {s : Text} :
    Matches (p.orElse q) s ↔ Matches (alt p q) s := by
  unfold orElse
  split
  · simp [matches_alt_iff, not_matches_never]
  · simp [matches_alt_iff, not_matches_never]
  · rfl

/-- The derivative describes exactly what may follow `c`. -/
theorem derivative_iff {p : Pattern} {c : Char} {s : Text} :
    Matches (p.derivative c) s ↔ Matches p (c :: s) := by
  induction p generalizing s with
  | never => simp [derivative, not_matches_never]
  | empty => simp [derivative, not_matches_never, matches_empty_iff]
  | one accepts =>
    unfold derivative
    split
    next h =>
      rw [matches_empty_iff, matches_one_iff]
      constructor
      · rintro rfl
        exact ⟨c, h, rfl⟩
      · rintro ⟨d, _, hs⟩
        cases hs
        rfl
    next h =>
      refine iff_of_false not_matches_never fun hone => ?_
      obtain ⟨d, hd, hs⟩ := matches_one_iff.mp hone
      cases hs
      exact h hd
  | seq p q ihp ihq =>
    have hfirst : Matches (seq (p.derivative c) q) s ↔
        ∃ a b, s = a ++ b ∧ Matches p (c :: a) ∧ Matches q b := by
      simp only [matches_seq_iff, ihp]
    have hcons : Matches (seq p q) (c :: s) ↔
        (∃ a b, s = a ++ b ∧ Matches p (c :: a) ∧ Matches q b) ∨
          (Matches p [] ∧ Matches q (c :: s)) := by
      rw [matches_seq_iff]
      constructor
      · intro ⟨a, b, hs, hp, hq⟩
        cases a with
        | nil =>
          cases hs
          exact .inr ⟨hp, hq⟩
        | cons d a =>
          cases hs
          exact .inl ⟨a, b, rfl, hp, hq⟩
      · rintro (⟨a, b, rfl, hp, hq⟩ | ⟨hp, hq⟩)
        · exact ⟨c :: a, b, rfl, hp, hq⟩
        · exact ⟨[], c :: s, rfl, hp, hq⟩
    unfold derivative
    split
    next hnull =>
      rw [orElse_iff, matches_alt_iff, andThen_iff, hfirst, ihq, hcons]
      simp [nullable_iff.mp hnull]
    next hnull =>
      have hne : ¬ Matches p [] := fun h => hnull (nullable_iff.mpr h)
      rw [andThen_iff, hfirst, hcons]
      simp [hne]
  | alt p q ihp ihq => simp [derivative, orElse_iff, matches_alt_iff, ihp, ihq]
  | star p ih => simp [derivative, andThen_iff, matches_seq_iff, matches_star_cons_iff, ih]

/-! ## Common patterns -/

def char (c : Char) : Pattern := one (· == c)

def word : Text → Pattern
  | [] => empty
  | c :: rest => seq (char c) (word rest)

def plus (p : Pattern) : Pattern := seq p (star p)

def optional (p : Pattern) : Pattern := alt p empty

def anyOf (chars : Text) : Pattern := one fun c => chars.contains c

def noneOf (chars : Text) : Pattern := one fun c => !chars.contains c

theorem word_iff {text s : Text} : Matches (word text) s ↔ s = text := by
  induction text generalizing s with
  | nil => exact matches_empty_iff
  | cons c rest ih =>
    simp only [word, char, matches_seq_iff, matches_one_iff, ih, beq_iff_eq]
    constructor
    · rintro ⟨_, _, rfl, ⟨_, rfl, rfl⟩, rfl⟩
      rfl
    · rintro rfl
      exact ⟨[c], rest, rfl, ⟨c, rfl, rfl⟩, rfl⟩

end Pattern

end Keystroke
