import Keystroke.Protobuf.Lexeme

/-!
# What the longest match is

`Rule.Picks` is the declarative reading of a list of rules: the kind of the first rule that
describes a whole text. `longest?_eq_some_iff` and `longest?_eq_none_iff` say that the search by
derivatives finds the longest start of a text that has such a kind, and finds one if there is one.
-/

namespace Keystroke.Rule

variable {κ : Type}

/-- The first of some rules that describes `s` has the given kind. -/
def Picks : List (Rule κ) → Text → κ → Prop
  | [], _, _ => False
  | rule :: rest, s, kind =>
    (rule.pattern.Matches s ∧ rule.kind = kind) ∨
      (¬ rule.pattern.Matches s ∧ Picks rest s kind)

def Covers (rules : List (Rule κ)) (s : Text) : Prop :=
  ∃ rule ∈ rules, rule.pattern.Matches s

/-! ## Rules and kinds -/

theorem Picks.covered {rules : List (Rule κ)} {s : Text} {kind : κ} (h : Picks rules s kind) :
    ∃ rule ∈ rules, rule.pattern.Matches s ∧ rule.kind = kind := by
  induction rules with
  | nil => exact h.elim
  | cons rule rest ih =>
      rcases h with hhere | ⟨_, hrest⟩
      · exact ⟨rule, List.mem_cons_self, hhere⟩
      · obtain ⟨other, hmem, hother⟩ := ih hrest
        exact ⟨other, List.mem_cons_of_mem rule hmem, hother⟩

theorem Covers.picks {rules : List (Rule κ)} {s : Text} (h : Covers rules s) :
    ∃ kind, Picks rules s kind := by
  induction rules with
  | nil =>
      obtain ⟨rule, hmem, _⟩ := h
      exact absurd hmem List.not_mem_nil
  | cons rule rest ih =>
      by_cases hrule : rule.pattern.Matches s
      · exact ⟨rule.kind, .inl ⟨hrule, rfl⟩⟩
      · obtain ⟨other, hmem, hother⟩ := h
        have hrest : other ∈ rest := by
          rcases List.mem_cons.mp hmem with rfl | hrest
          · exact absurd hother hrule
          · exact hrest
        obtain ⟨kind, hkind⟩ := ih ⟨other, hrest, hother⟩
        exact ⟨kind, .inr ⟨hrule, hkind⟩⟩

theorem covers_iff_picks {rules : List (Rule κ)} {s : Text} :
    Covers rules s ↔ ∃ kind, Picks rules s kind := by
  refine ⟨Covers.picks, fun ⟨kind, hkind⟩ => ?_⟩
  obtain ⟨rule, hmem, hmatches, _⟩ := hkind.covered
  exact ⟨rule, hmem, hmatches⟩

theorem Picks.unique {rules : List (Rule κ)} {s : Text} {kind kind' : κ}
    (h : Picks rules s kind) (h' : Picks rules s kind') : kind = kind' := by
  induction rules with
  | nil => exact h.elim
  | cons rule rest ih =>
      rcases h with ⟨hm, hk⟩ | ⟨hm, hrest⟩ <;> rcases h' with ⟨hm', hk'⟩ | ⟨hm', hrest'⟩
      · exact hk.symm.trans hk'
      · exact absurd hm hm'
      · exact absurd hm' hm
      · exact ih hrest hrest'

/-! ## One step of the search -/

theorem accepted?_eq_some_iff {rules : List (Rule κ)} {kind : κ} :
    accepted? rules = some kind ↔ Picks rules [] kind := by
  induction rules with
  | nil => simp [accepted?, Picks]
  | cons rule rest ih =>
      by_cases hnull : rule.pattern.nullable
      · have hmatches := Pattern.nullable_iff.mp hnull
        simp [accepted?, Picks, hnull, hmatches]
      · have hmatches : ¬ rule.pattern.Matches [] := fun h => hnull (Pattern.nullable_iff.mpr h)
        rw [Picks, ← ih]
        simp [accepted?, hnull, hmatches]

theorem accepted?_eq_none_iff {rules : List (Rule κ)} :
    accepted? rules = none ↔ ¬ Covers rules [] := by
  rw [covers_iff_picks, Option.eq_none_iff_forall_ne_some]
  simp only [ne_eq, accepted?_eq_some_iff, not_exists]

private theorem not_matches_of_isNever {p : Pattern} (h : p.isNever) (s : Text) :
    ¬ p.Matches s := by
  cases p with
  | never => exact Pattern.not_matches_never
  | empty | one | seq | alt | star => cases h

/-- Going on with the rules for what may follow `c` is reading `c` first. -/
theorem picks_advance_iff {c : Char} {rules : List (Rule κ)} {s : Text} {kind : κ} :
    Picks (advance c rules) s kind ↔ Picks rules (c :: s) kind := by
  induction rules with
  | nil => exact Iff.rfl
  | cons rule rest ih =>
      have hstep : (rule.pattern.derivative c).Matches s ↔ rule.pattern.Matches (c :: s) :=
        Pattern.derivative_iff
      by_cases hnever : (rule.pattern.derivative c).isNever
      · have hnot := not_matches_of_isNever hnever s
        have hadvance : advance c (rule :: rest) = advance c rest := by
          simp [advance, hnever]
        rw [hadvance, Picks, ih, ← hstep]
        simp only [hnot, false_and, not_false_eq_true, true_and, false_or]
      · have hadvance : advance c (rule :: rest) =
            ⟨rule.kind, rule.pattern.derivative c⟩ :: advance c rest := by
          simp [advance, hnever]
        rw [hadvance, Picks, Picks, ih, hstep]

theorem covers_advance_iff {c : Char} {rules : List (Rule κ)} {s : Text} :
    Covers (advance c rules) s ↔ Covers rules (c :: s) := by
  simp only [covers_iff_picks, picks_advance_iff]

def advanceAll (opening : Text) (rules : List (Rule κ)) : List (Rule κ) :=
  opening.foldl (fun rules c => advance c rules) rules

theorem picks_advanceAll_iff {opening : Text} {rules : List (Rule κ)} {s : Text} {kind : κ} :
    Picks (advanceAll opening rules) s kind ↔ Picks rules (opening ++ s) kind := by
  induction opening generalizing rules with
  | nil => exact Iff.rfl
  | cons c opening ih =>
      rw [List.cons_append, ← picks_advance_iff, ← ih]
      rfl

/-! ## The whole search -/

/-- The start of `n` characters is the longest that some rule describes, and the first such rule has
the given kind. -/
structure Longest (rules : List (Rule κ)) (text : Text) (kind : κ) (n : Nat) : Prop where
  le : n ≤ text.length
  picks : Picks rules (text.take n) kind
  maximal : ∀ m, n < m → m ≤ text.length → ¬ Covers rules (text.take m)

theorem longest?_nil (rules : List (Rule κ)) :
    longest? rules [] = (accepted? rules).map (·, 0) := by
  cases rules <;> rfl

theorem longest?_cons (rules : List (Rule κ)) (c : Char) (text : Text) :
    longest? rules (c :: text) =
      match longest? (advance c rules) text with
      | some (kind, n) => some (kind, n + 1)
      | none => (accepted? rules).map (·, 0) := by
  cases rules with
  | nil => cases text <;> rfl
  | cons rule rest => rfl

theorem longest?_eq_none_iff {rules : List (Rule κ)} {text : Text} :
    longest? rules text = none ↔ ∀ m ≤ text.length, ¬ Covers rules (text.take m) := by
  induction text generalizing rules with
  | nil => simp [longest?_nil, accepted?_eq_none_iff]
  | cons c text ih =>
      have hsplit : longest? rules (c :: text) = none ↔
          longest? (advance c rules) text = none ∧ accepted? rules = none := by
        rw [longest?_cons]
        cases longest? (advance c rules) text <;> simp
      rw [hsplit, ih, accepted?_eq_none_iff]
      refine ⟨fun ⟨hlater, hnow⟩ m hm => ?_, fun h => ⟨fun m hm => ?_, h 0 (Nat.zero_le _)⟩⟩
      · cases m with
        | zero => exact hnow
        | succ m => exact fun hc => hlater m (by simpa using hm) (covers_advance_iff.mpr hc)
      · exact fun hc => h (m + 1) (by simpa using hm) (covers_advance_iff.mp hc)

theorem longest_of_longest? {rules : List (Rule κ)} {text : Text} {kind : κ} {n : Nat}
    (h : longest? rules text = some (kind, n)) : Longest rules text kind n := by
  induction text generalizing rules n with
  | nil =>
      simp only [longest?_nil, Option.map_eq_some_iff, Prod.mk.injEq] at h
      obtain ⟨kind', haccepted, rfl, rfl⟩ := h
      exact ⟨Nat.le_refl 0, accepted?_eq_some_iff.mp haccepted,
        fun m hpos hle => absurd hle (Nat.not_le_of_lt hpos)⟩
  | cons c text ih =>
      rw [longest?_cons] at h
      cases hlater : longest? (advance c rules) text with
      | some found =>
          obtain ⟨kind', m⟩ := found
          simp only [hlater, Option.some.injEq, Prod.mk.injEq] at h
          obtain ⟨rfl, rfl⟩ := h
          have hrest := ih hlater
          refine ⟨Nat.succ_le_succ hrest.le, picks_advance_iff.mp hrest.picks, ?_⟩
          intro k hlt hle hc
          cases k with
          | zero => exact absurd hlt (Nat.not_lt_zero _)
          | succ k =>
              exact hrest.maximal k (Nat.lt_of_succ_lt_succ hlt) (Nat.le_of_succ_le_succ hle)
                (covers_advance_iff.mpr hc)
      | none =>
          simp only [hlater, Option.map_eq_some_iff, Prod.mk.injEq] at h
          obtain ⟨kind', haccepted, rfl, rfl⟩ := h
          refine ⟨Nat.zero_le _, accepted?_eq_some_iff.mp haccepted, ?_⟩
          intro k hlt hle hc
          cases k with
          | zero => exact absurd hlt (Nat.lt_irrefl 0)
          | succ k =>
              exact longest?_eq_none_iff.mp hlater k (Nat.le_of_succ_le_succ hle)
                (covers_advance_iff.mpr hc)

theorem Longest.unique {rules : List (Rule κ)} {text : Text} {kind kind' : κ} {n n' : Nat}
    (h : Longest rules text kind n) (h' : Longest rules text kind' n') : kind = kind' ∧ n = n' := by
  have hle : n ≤ n' := Nat.le_of_not_lt fun hlt =>
    h'.maximal n hlt h.le (covers_iff_picks.mpr ⟨kind, h.picks⟩)
  have hge : n' ≤ n := Nat.le_of_not_lt fun hlt =>
    h.maximal n' hlt h'.le (covers_iff_picks.mpr ⟨kind', h'.picks⟩)
  have hn : n = n' := Nat.le_antisymm hle hge
  subst hn
  exact ⟨h.picks.unique h'.picks, rfl⟩

theorem longest?_eq_some_iff {rules : List (Rule κ)} {text : Text} {kind : κ} {n : Nat} :
    longest? rules text = some (kind, n) ↔ Longest rules text kind n := by
  refine ⟨longest_of_longest?, fun h => ?_⟩
  cases hfound : longest? rules text with
  | none =>
      exact absurd (covers_iff_picks.mpr ⟨kind, h.picks⟩)
        (longest?_eq_none_iff.mp hfound n h.le)
  | some found =>
      obtain ⟨hkind, hn⟩ := (longest_of_longest? hfound).unique h
      rw [← hkind, ← hn]

end Keystroke.Rule
