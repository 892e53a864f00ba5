import Mathlib
import Keystroke.Proofs.Placement

/-!
# Lexemes of a part of a text

The first lexeme of a text depends on what follows it only through the texts that some rule
describes (`First.exchange`). So the lexemes before a cut stay what they are, wherever a text is cut
(`lexemes_cut`), and the lexemes of the text before a caret are known up to the one that the caret
is in (`Holds.lexemes_before`).
-/

namespace Keystroke.Protobuf

/-! ## The first lexeme -/

theorem First.isPrefix {text : Text} {lexeme : Lexeme} (h : First text lexeme) :
    lexeme.text <+: text := by
  cases h with
  | found hlongest => exact List.take_prefix _ _
  | unknown htext hnone =>
      rw [htext]
      exact List.prefix_append [_] _

/-- No rule describes more than the first lexeme. -/
theorem First.not_covers_append {lexeme : Lexeme} {more rest : Text}
    (h : First (lexeme.text ++ (more ++ rest)) lexeme) (hne : more ≠ []) :
    ¬ Rule.Covers rules (lexeme.text ++ more) := by
  have hmaximal : ∀ {text : Text} {lexeme : Lexeme}, First text lexeme →
      ∀ m, lexeme.text.length < m → m ≤ text.length → ¬ Rule.Covers rules (text.take m) := by
    intro text lexeme hfirst m hlt hle
    cases hfirst with
    | unknown htext hnone => exact hnone m hle
    | @found kind n hlongest =>
        rw [List.length_take, Nat.min_eq_left hlongest.le] at hlt
        exact hlongest.maximal m hlt hle
  have hpos := List.length_pos_iff.mpr hne
  have htake : (lexeme.text ++ (more ++ rest)).take (lexeme.text ++ more).length =
      lexeme.text ++ more := by
    rw [← List.append_assoc, List.take_left]
  rw [← htake]
  refine hmaximal h _ ?_ ?_
  · rw [List.length_append]
    omega
  · simp only [List.length_append]
    omega

theorem First.unique {text : Text} {lexeme other : Lexeme} (h : First text lexeme)
    (hother : First text other) : lexeme = other := by
  cases h with
  | @found kind n hlongest =>
      cases hother with
      | found hlongest' =>
          obtain ⟨rfl, rfl⟩ := hlongest.unique hlongest'
          rfl
      | unknown _ hnone =>
          exact absurd (Rule.covers_iff_picks.mpr ⟨kind, hlongest.picks⟩) (hnone n hlongest.le)
  | unknown htext hnone =>
      cases hother with
      | @found kind n hlongest =>
          exact absurd (Rule.covers_iff_picks.mpr ⟨kind, hlongest.picks⟩) (hnone n hlongest.le)
      | unknown htext' _ =>
          rw [htext, List.cons.injEq] at htext'
          rw [htext'.1]

/-- A lexeme stays the first one when what follows it is exchanged, as long as no rule describes
more of the new text than of the old one. -/
theorem First.exchange {text text' : Text} {lexeme : Lexeme} (h : First text lexeme)
    (hstart : lexeme.text <+: text')
    (hcovers : ∀ s, s <+: text' → Rule.Covers rules s → s <+: text) : First text' lexeme := by
  have hold : ∀ m ≤ text'.length, Rule.Covers rules (text'.take m) →
      m ≤ text.length ∧ Rule.Covers rules (text.take m) := by
    intro m hm hcovered
    have hlength : (text'.take m).length = m := by
      rw [List.length_take]
      omega
    have hprefix := hcovers _ (List.take_prefix m text') hcovered
    have htake := List.prefix_iff_eq_take.mp hprefix
    rw [hlength] at htake
    have hle := hprefix.length_le
    rw [htake] at hcovered
    exact ⟨by omega, hcovered⟩
  cases h with
  | @found kind n hlongest =>
      have hn : (text.take n).length = n := by
        rw [List.length_take]
        have hle := hlongest.le
        omega
      have htake : text.take n = text'.take n := by
        have htake := List.prefix_iff_eq_take.mp hstart
        simp only [hn] at htake
        exact htake
      have hlength := hstart.length_le
      simp only [hn] at hlength
      rw [htake]
      refine .found ⟨hlength, ?_, fun m hlt hle hcovered => ?_⟩
      · rw [← htake]
        exact hlongest.picks
      · obtain ⟨hle', hcovered'⟩ := hold m hle hcovered
        exact hlongest.maximal m hlt hle' hcovered'
  | @unknown c rest htext hnone =>
      obtain ⟨rest', rfl⟩ := hstart
      refine .unknown rfl fun m hle hcovered => ?_
      obtain ⟨hle', hcovered'⟩ := hold m hle hcovered
      exact hnone m hle' hcovered'

/-- A text that some rule describes as a whole is its own first lexeme. -/
theorem first_of_picks {s : Text} {kind : Kind} (h : Rule.Picks rules s kind) :
    First s ⟨kind, s⟩ := by
  have hwhole : Rule.Longest rules s kind s.length := by
    refine ⟨Nat.le_refl _, ?_, fun m hlt hle => absurd hle (Nat.not_le_of_lt hlt)⟩
    rw [List.take_length]
    exact h
  have hfirst := First.found hwhole
  rw [List.take_length] at hfirst
  exact hfirst

/-! ## All lexemes -/

theorem lexemes_eq_cons {text : Text} {lexeme : Lexeme} {back : List Lexeme}
    (h : lexemes text = lexeme :: back) :
    text = lexeme.text ++ joined back ∧ lexemes (joined back) = back := by
  have hsplit : lexemes text = [lexeme] ++ back := h
  obtain ⟨htext, hback⟩ := lexemes_append hsplit
  rw [joined_cons, joined_nil, List.append_nil] at htext
  exact ⟨htext, hback⟩

theorem lexemes_of_first {lexeme : Lexeme} {after : Text}
    (h : First (lexeme.text ++ after) lexeme) :
    lexemes (lexeme.text ++ after) = lexeme :: lexemes after := by
  cases hlexemes : lexemes (lexeme.text ++ after) with
  | nil =>
      have htext := joined_lexemes (lexeme.text ++ after)
      rw [hlexemes, joined_nil] at htext
      exact absurd (List.append_eq_nil_iff.mp htext.symm).1 h.ne_nil
  | cons first back =>
      obtain rfl := h.unique (first_of_lexemes_eq_cons hlexemes)
      obtain ⟨htext, hback⟩ := lexemes_eq_cons hlexemes
      rw [List.append_cancel_left_eq] at htext
      rw [htext, hback]

theorem lexemes_of_picks {s : Text} {kind : Kind} (h : Rule.Picks rules s kind) :
    lexemes s = [⟨kind, s⟩] := by
  have hfirst : First (Lexeme.text ⟨kind, s⟩ ++ []) ⟨kind, s⟩ := by
    rw [List.append_nil]
    exact first_of_picks h
  have hlexemes := lexemes_of_first hfirst
  rw [List.append_nil, lexemes_nil] at hlexemes
  exact hlexemes

/-- A lexeme in a text is the first one of what is left when it is reached. -/
theorem first_of_lexemes_eq_append {text : Text} {front back : List Lexeme} {lexeme : Lexeme}
    (h : lexemes text = front ++ lexeme :: back) : First (lexeme.text ++ joined back) lexeme :=
  first_of_lexemes_eq_cons (lexemes_append h).2

/-- A cut leaves the lexemes before it as they are. -/
theorem lexemes_cut {text : Text} {front back : List Lexeme} (h : lexemes text = front ++ back)
    {rest : Text} (hrest : rest <+: joined back) :
    lexemes (joined front ++ rest) = front ++ lexemes rest := by
  induction front generalizing text with
  | nil => rfl
  | cons lexeme front ih =>
      rw [List.cons_append] at h
      obtain ⟨htext, hlater⟩ := lexemes_eq_cons h
      have hfirst := first_of_lexemes_eq_cons h
      rw [htext, joined_append] at hfirst
      -- What is left of the text is a start of it, so that no rule describes anything new.
      have hprefix : joined front ++ rest <+: joined front ++ joined back :=
        (List.prefix_append_right_inj _).mpr hrest
      have hcut : First (lexeme.text ++ (joined front ++ rest)) lexeme := by
        refine hfirst.exchange (List.prefix_append _ _) fun s hs _ => ?_
        exact hs.trans ((List.prefix_append_right_inj _).mpr hprefix)
      rw [joined_cons, List.append_assoc, lexemes_of_first hcut, ih hlater]
      rfl

/-! ## The lexeme at a caret -/

/-- The lexeme that has the last character before a caret. The caret parts it into a head, which is
not empty, and a tail. -/
structure Holds (before after : Text) (front : List Lexeme) (lexeme : Lexeme) (back : List Lexeme)
    (head tail : Text) : Prop where
  lexemes_eq : lexemes (before ++ after) = front ++ lexeme :: back
  before_eq : before = joined front ++ head
  after_eq : after = tail ++ joined back
  text_eq : lexeme.text = head ++ tail
  head_ne_nil : head ≠ []

private theorem exists_split_of_joined {pieces : List Lexeme} {before after : Text}
    (h : joined pieces = before ++ after) (hne : before ≠ []) :
    ∃ front lexeme back head tail, pieces = front ++ lexeme :: back ∧
      before = joined front ++ head ∧ after = tail ++ joined back ∧ lexeme.text = head ++ tail ∧ head ≠ [] := by
  induction pieces generalizing before with
  | nil =>
      rw [joined_nil] at h
      exact absurd (List.append_eq_nil_iff.mp h.symm).1 hne
  | cons lexeme pieces ih =>
      rw [joined_cons] at h
      rcases List.append_eq_append_iff.mp h with ⟨rest, hbefore, hpieces⟩ | ⟨tail, htext, hafter⟩
      · by_cases hrest : rest = []
        · -- The caret stands right after the first piece.
          rw [hrest, List.append_nil] at hbefore
          rw [hrest, List.nil_append] at hpieces
          exact ⟨[], lexeme, pieces, before, [], rfl, rfl, hpieces.symm, by
            rw [hbefore, List.append_nil], hne⟩
        · obtain ⟨front, other, back, head, tail, rfl, hrest, hafter, htext, hhead⟩ :=
            ih hpieces hrest
          refine ⟨lexeme :: front, other, back, head, tail, rfl, ?_, hafter, htext, hhead⟩
          rw [hbefore, hrest, joined_cons, List.append_assoc]
      · exact ⟨[], lexeme, pieces, before, tail, rfl, rfl, hafter, htext, hne⟩

theorem exists_holds {before : Text} (after : Text) (hne : before ≠ []) :
    ∃ front lexeme back head tail, Holds before after front lexeme back head tail := by
  obtain ⟨front, lexeme, back, head, tail, hlexemes, hbefore, hafter, htext, hhead⟩ :=
    exists_split_of_joined (joined_lexemes (before ++ after)) hne
  exact ⟨front, lexeme, back, head, tail, hlexemes, hbefore, hafter, htext, hhead⟩

section Holds

variable {before after head tail : Text} {front back : List Lexeme} {lexeme : Lexeme}

theorem Holds.first (h : Holds before after front lexeme back head tail) :
    First (lexeme.text ++ joined back) lexeme :=
  first_of_lexemes_eq_append h.lexemes_eq

theorem Holds.lexemes_before (h : Holds before after front lexeme back head tail) :
    lexemes before = front ++ lexemes head := by
  rw [h.before_eq]
  refine lexemes_cut h.lexemes_eq ?_
  rw [joined_cons, h.text_eq, List.append_assoc]
  exact List.prefix_append head _

theorem Holds.lexemes_before_of_end (h : Holds before after front lexeme back head []) :
    lexemes before = front ++ [lexeme] := by
  have hsplit : lexemes (before ++ after) = (front ++ [lexeme]) ++ back := by
    rw [h.lexemes_eq, List.append_assoc, List.singleton_append]
  have hbefore : before = joined (front ++ [lexeme]) ++ [] := by
    rw [h.before_eq, joined_append, joined_cons, joined_nil, h.text_eq, List.append_nil,
      List.append_nil, List.append_nil]
  rw [hbefore, lexemes_cut hsplit List.nil_prefix, lexemes_nil, List.append_nil]

end Holds

end Keystroke.Protobuf
