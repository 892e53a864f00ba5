import Mathlib
import Keystroke.Proofs.BlockComments
import Keystroke.Proofs.LexemeSplits
import Keystroke.Proofs.QuotedStrings

/-!
# Strings and comments without their end

A start of a string or of a comment is a string or a comment whose end is missing
(`Opens.picks_of_covers`), and no other lexeme has a quote or a slash among its characters. So what
a cut makes of the lexeme that it goes through is known (`First.lexemes_head`). In the same way, a
character that only strings and comments have inside separates lexemes, unless one of these is open
before it (`lexemes_append_solitary`).
-/

namespace Keystroke

/-! ## Characters that a pattern has no use for -/

namespace Pattern

def avoids (c : Char) : Pattern → Bool
  | never => true
  | empty => true
  | one accepts => !accepts c
  | seq p q => p.avoids c && q.avoids c
  | alt p q => p.avoids c && q.avoids c
  | star p => p.avoids c

theorem not_mem_of_avoids {p : Pattern} {s : Text} {c : Char} (h : p.Matches s)
    (havoids : p.avoids c) : c ∉ s := by
  induction h with
  | empty => exact List.not_mem_nil
  | @one accepts d haccepts =>
      intro hmem
      rw [List.mem_singleton] at hmem
      rw [avoids, hmem, haccepts] at havoids
      cases havoids
  | seq _ _ ihp ihq =>
      rw [avoids, Bool.and_eq_true] at havoids
      exact fun hmem => (List.mem_append.mp hmem).elim (ihp havoids.1) (ihq havoids.2)
  | left _ ih =>
      rw [avoids, Bool.and_eq_true] at havoids
      exact ih havoids.1
  | right _ ih =>
      rw [avoids, Bool.and_eq_true] at havoids
      exact ih havoids.2
  | done => exact List.not_mem_nil
  | more _ _ ihp ihrest =>
      exact fun hmem => (List.mem_append.mp hmem).elim (ihp havoids) (ihrest havoids)

def isSingle : Pattern → Bool
  | one _ => true
  | seq (one _) empty => true
  | _ => false

theorem length_of_isSingle {p : Pattern} {s : Text} (h : p.Matches s) (hsingle : p.isSingle) :
    s.length = 1 := by
  unfold isSingle at hsingle
  split at hsingle
  · obtain ⟨c, _, rfl⟩ := matches_one_iff.mp h
    rfl
  · obtain ⟨a, b, rfl, ha, hb⟩ := matches_seq_iff.mp h
    obtain ⟨c, _, rfl⟩ := matches_one_iff.mp ha
    rw [matches_empty_iff.mp hb]
    rfl
  · cases hsingle

end Pattern

namespace Protobuf

/-! ## How strings and comments begin -/

abbrev isLiteral (kind : Kind) : Bool := Classifier.protobuf.isLiteral kind

abbrev isString (kind : Kind) : Bool := Classifier.protobuf.isString kind

abbrev isComment (kind : Kind) : Bool := Classifier.protobuf.isComment kind

theorem not_isLiteral_iff {kind : Kind} :
    isLiteral kind = false ↔ isString kind = false ∧ isComment kind = false :=
  Bool.or_eq_false_iff

def openKind : Kind → Kind
  | .strLit | .proto3Double | .proto3Single => .unterminatedStrLit
  | kind => kind

theorem isString_eq (kind : Kind) : isString kind = (openKind kind == .unterminatedStrLit) := by
  cases kind <;> rfl

theorem isString_openKind (kind : Kind) : isString (openKind kind) = isString kind := by
  cases kind <;> rfl

theorem isComment_openKind (kind : Kind) : isComment (openKind kind) = isComment kind := by
  cases kind <;> rfl

/-- Characters that are lexemes of their own outside of strings and comments. -/
def solitary : Text := ['"', '\'', '/', '(', '[', '\x7b']

/-- A text begins as a string or a comment does, and has the given kind if nothing ends it. -/
inductive Opens : Text → Kind → Prop where
  | string {quote : Char} {s : Text} (h : IsQuote quote) : Opens (quote :: s) .unterminatedStrLit
  | lineComment {s : Text} : Opens ('/' :: '/' :: s) .lineComment
  | blockComment {s : Text} : Opens ('/' :: '*' :: s) .blockComment

theorem Opens.exists_head {s : Text} {kind : Kind} (h : Opens s kind) :
    ∃ c ∈ solitary, s.head? = some c := by
  cases h with
  | string hquote => rcases hquote with rfl | rfl <;> exact ⟨_, by decide, rfl⟩
  | lineComment => exact ⟨'/', by decide, rfl⟩
  | blockComment => exact ⟨'/', by decide, rfl⟩

/-- A start of such a text begins in the same way, unless it is only half of an opening mark. -/
theorem Opens.of_append {s more : Text} {kind : Kind} (h : Opens (s ++ more) kind) (hne : s ≠ []) :
    Opens s kind ∨ (s = ['/'] ∧ more.head? ∈ [some '/', some '*'] ∧ isString kind = false) := by
  generalize htext : s ++ more = text at h
  cases s with
  | nil => exact absurd rfl hne
  | cons c s =>
      cases h with
      | string hquote =>
          cases htext
          exact .inl (.string hquote)
      | lineComment =>
          cases s with
          | nil =>
              cases htext
              exact .inr ⟨rfl, by simp, rfl⟩
          | cons d s =>
              cases htext
              exact .inl .lineComment
      | blockComment =>
          cases s with
          | nil =>
              cases htext
              exact .inr ⟨rfl, by simp, rfl⟩
          | cons d s =>
              cases htext
              exact .inl .blockComment

theorem opens_of_spelling? {kind : Kind} {word : String} (h : kind.spelling? = some word)
    (hliteral : isLiteral kind) : Opens word.toList (openKind kind) := by
  cases kind with
  | proto3Double =>
      cases h
      exact .string (.inl rfl)
  | proto3Single =>
      cases h
      exact .string (.inr rfl)
  | strLit | unterminatedStrLit | lineComment | blockComment => cases h
  | _ => cases hliteral

theorem opens_of_matches_quotes {p q : Pattern} {s : Text}
    (h : (Pattern.alt (.seq (.char '"') p) (.seq (.char '\'') q)).Matches s) :
    Opens s .unterminatedStrLit := by
  cases s with
  | nil =>
      have hnull := Pattern.nullable_iff.mpr h
      cases hnull
  | cons c s =>
      rw [Pattern.matches_alt_iff, matches_char_seq_iff, matches_char_seq_iff] at h
      rcases h with ⟨hc, _⟩ | ⟨hc, _⟩
      · exact .string (.inl hc)
      · exact .string (.inr hc)

theorem exists_of_matches_word_seq {opening s : Text} {p : Pattern}
    (h : (Pattern.seq (.word opening) p).Matches s) : ∃ rest, s = opening ++ rest := by
  obtain ⟨a, b, rfl, ha, _⟩ := Pattern.matches_seq_iff.mp h
  exact ⟨b, by rw [Pattern.word_iff.mp ha]⟩

theorem opens_of_matches {rule : Rule Kind} (hmem : rule ∈ rules) (hliteral : isLiteral rule.kind)
    {s : Text} (h : rule.pattern.Matches s) : Opens s (openKind rule.kind) := by
  rcases List.mem_append.mp hmem with hfixed | hother
  · obtain ⟨word, hword, hpattern⟩ := mem_fixedRules_iff.mp hfixed
    rw [hpattern, Pattern.word_iff] at h
    rw [h]
    exact opens_of_spelling? hword hliteral
  · simp only [List.mem_cons, List.not_mem_nil, or_false] at hother
    rcases hother with rfl | rfl | rfl | rfl | rfl | rfl | rfl | rfl | rfl | rfl
    · cases hliteral
    · cases hliteral
    · cases hliteral
    · cases hliteral
    · cases hliteral
    · cases hliteral
    · rcases Pattern.matches_alt_iff.mp h with h | h
      · obtain ⟨rest, rfl⟩ := exists_of_matches_word_seq h
        exact .blockComment
      · obtain ⟨rest, rfl⟩ := exists_of_matches_word_seq h
        exact .blockComment
    · obtain ⟨rest, rfl⟩ := exists_of_matches_word_seq h
      exact .lineComment
    · exact opens_of_matches_quotes h
    · exact opens_of_matches_quotes h

theorem First.picks {text : Text} {lexeme : Lexeme} (h : First text lexeme)
    (hliteral : isLiteral lexeme.kind) : Rule.Picks rules lexeme.text lexeme.kind := by
  cases h with
  | found hlongest => exact hlongest.picks
  | unknown _ _ => cases hliteral

theorem First.opens {text : Text} {lexeme : Lexeme} (h : First text lexeme)
    (hliteral : isLiteral lexeme.kind) : Opens lexeme.text (openKind lexeme.kind) := by
  obtain ⟨rule, hmem, hmatches, hrule⟩ := (h.picks hliteral).covered
  rw [← hrule] at hliteral ⊢
  exact opens_of_matches hmem hliteral hmatches

/-! ## Strings -/

/-- A start of a string, closed or not, is an open string. -/
theorem quotedOpen_of_append {quote : Char} (hquote : IsQuote quote) {s more : Text}
    (h : Quoted quote (s ++ more)) (hne : more ≠ []) :
    QuotedOpen quote s ∧ ¬ QuotedClosed quote s := by
  cases s with
  | nil => exact ⟨quotedOpen_nil quote, not_quotedClosed_nil quote⟩
  | cons c s =>
      rw [List.cons_append, quoted_cons_iff] at h
      rw [quotedOpen_cons_iff, quotedClosed_cons_iff]
      rcases h with ⟨hc, h⟩ | ⟨hc, d, rest, hs, hd, h⟩ | ⟨_, hnil⟩ | ⟨_, hnil⟩
      · obtain ⟨hopen, hclosed⟩ := quotedOpen_of_append hquote h hne
        simp only [List.mem_cons, not_or] at hc
        simp [hc, hopen, hclosed]
      · -- The backslash takes a character with it, unless the cut is between the two.
        have hslash := hquote.ne_backslash.symm
        cases s with
        | nil => simp [hc, hslash]
        | cons e s =>
            rw [List.cons_append, List.cons.injEq] at hs
            obtain ⟨rfl, rfl⟩ := hs
            obtain ⟨hopen, hclosed⟩ := quotedOpen_of_append hquote h hne
            simp [hc, hd, hopen, hclosed]
      · exact absurd (List.append_eq_nil_iff.mp hnil).2 hne
      · exact absurd (List.append_eq_nil_iff.mp hnil).2 hne
termination_by s.length

/-- An open string goes on with any character but a line break. -/
theorem quoted_concat {quote c : Char} (hc : isBreak c = false) {s : Text}
    (h : QuotedOpen quote s) : Quoted quote (s ++ [c]) := by
  cases s with
  | nil =>
      rw [List.nil_append, quoted_cons_iff]
      have hnil := quoted_nil quote
      simp only [isBreak, Bool.or_eq_false_iff, beq_eq_false_iff_ne] at hc
      simp only [List.mem_cons, List.not_mem_nil, or_false, hnil, and_true]
      tauto
  | cons d s =>
      rw [List.cons_append, quoted_cons_iff]
      rcases quotedOpen_cons_iff.mp h with ⟨hd, h⟩ | ⟨hd, e, rest, rfl, he, h⟩ | ⟨hd, rfl⟩
      · exact .inl ⟨hd, quoted_concat hc h⟩
      · exact .inr (.inl ⟨hd, e, rest ++ [c], rfl, he, quoted_concat hc h⟩)
      · exact .inr (.inl ⟨hd, c, [], rfl, hc, quoted_nil quote⟩)
termination_by s.length

theorem picks_unterminated_iff {quote : Char} (hquote : IsQuote quote) {s : Text} :
    Rule.Picks rules (quote :: s) .unterminatedStrLit ↔
      QuotedOpen quote s ∧ ¬ QuotedClosed quote s := by
  obtain ⟨kind, hrules⟩ := advanceAll_quote hquote
  have hkind : kind ≠ .unterminatedStrLit := by
    rintro rfl
    rcases hquote with rfl | rfl
    · cases hrules
    · cases hrules
  have hclosed := @matches_quotes_iff quote hquote s fun q => .seq (stringItems q) (.char q)
  have hopen := @matches_quotes_iff quote hquote s fun q =>
    .seq (stringItems q) (.optional (.char '\\'))
  have hversion : s = ['p', 'r', 'o', 't', 'o', '3', quote] → QuotedClosed quote s := by
    intro hs
    rw [hs]
    exact quotedClosed_version hquote
  rw [show quote :: s = [quote] ++ s from rfl, ← Rule.picks_advanceAll_iff, hrules]
  simp only [Rule.Picks, Pattern.derivative_iff, Pattern.word_iff, closedString, openString,
    hclosed, hopen, List.cons.injEq, true_and, hkind, reduceCtorEq, and_false, and_true, or_false,
    false_or]
  -- A version literal is closed, so that its rule is not the one that is picked.
  constructor
  · rintro ⟨_, hclosed, hopen⟩
    exact ⟨hopen, hclosed⟩
  · rintro ⟨hopen, hclosed⟩
    exact ⟨fun hs => hclosed (hversion hs), hclosed, hopen⟩

/-! ## Comments -/

theorem picks_lineComment_iff {s : Text} {kind : Kind} :
    Rule.Picks rules ('/' :: '/' :: s) kind ↔
      kind = .lineComment ∧ ∀ c ∈ s, isBreak c = false := by
  have hrules : Rule.advanceAll ['/', '/'] rules =
      [⟨.lineComment, (lineComment.derivative '/').derivative '/'⟩] := rfl
  have hinside : lineComment.Matches ('/' :: '/' :: s) ↔ ∀ c ∈ s, isBreak c = false := by
    refine Pattern.matches_word_seq_iff.trans (Pattern.matches_star_one_iff.trans ?_)
    simp [isBreak, and_comm]
  rw [show '/' :: '/' :: s = ['/', '/'] ++ s from rfl, ← Rule.picks_advanceAll_iff, hrules]
  simp only [Rule.Picks, Pattern.derivative_iff, hinside, and_false, or_false]
  rw [and_comm, eq_comm]

theorem covers_lineComment_iff {s : Text} :
    Rule.Covers rules ('/' :: '/' :: s) ↔ ∀ c ∈ s, isBreak c = false := by
  rw [Rule.covers_iff_picks]
  simp only [picks_lineComment_iff, exists_eq_left]

/-- A start of a block comment, closed or not, is without an end mark. -/
theorem noEnd_of_covers_append {s more : Text}
    (h : Rule.Covers rules ('/' :: '*' :: (s ++ more))) (hne : more ≠ []) : NoEnd s := by
  rcases covers_comment_iff.mp h with hopen | ⟨body, hbody, hend⟩
  · exact fun hs => hopen (hs.trans (List.prefix_append s more).isInfix)
  · have hlength := congrArg List.length hbody
    have hpos := List.length_pos_iff.mpr hne
    simp only [List.length_append, List.length_cons, List.length_nil] at hlength
    have hstart : s <+: body ++ ['*', '/'] := ⟨more, hbody⟩
    have hstar : body ++ ['*'] <+: body ++ ['*', '/'] := ⟨['/'], by simp⟩
    have hinside : s <+: body ++ ['*'] := by
      refine List.prefix_of_prefix_length_le hstart hstar ?_
      rw [List.length_append, List.length_singleton]
      omega
    exact fun hs => hend (hs.trans hinside.isInfix)

/-! ## Open lexemes -/

def IsOpenComment (lexeme : Lexeme) : Prop :=
  lexeme.kind = .lineComment ∨
    (lexeme.kind = .blockComment ∧ ∃ inside, lexeme.text = '/' :: '*' :: inside ∧ NoEnd inside)

theorem IsOpenComment.isComment {lexeme : Lexeme} (h : IsOpenComment lexeme) :
    isComment lexeme.kind := by
  rcases h with hkind | ⟨hkind, _⟩ <;> rw [hkind] <;> rfl

/-- A string or a comment that what is typed after it becomes part of. -/
def IsOpen (lexeme : Lexeme) : Prop := lexeme.kind = .unterminatedStrLit ∨ IsOpenComment lexeme

/-- A start of a string or of a comment is an open one. -/
theorem Opens.picks_of_covers {s more : Text} {kind : Kind} (h : Opens s kind)
    (hcovers : Rule.Covers rules (s ++ more)) (hne : more ≠ []) :
    Rule.Picks rules s kind ∧ IsOpen ⟨kind, s⟩ := by
  cases h with
  | string hquote =>
      have hquoted := (covers_quoted_iff hquote).mp hcovers
      have hopen := quotedOpen_of_append hquote hquoted hne
      exact ⟨(picks_unterminated_iff hquote).mpr hopen, .inl rfl⟩
  | lineComment =>
      have hline := covers_lineComment_iff.mp hcovers
      have hstart := fun c hc => hline c (List.mem_append_left more hc)
      exact ⟨picks_lineComment_iff.mpr ⟨rfl, hstart⟩, .inr (.inl rfl)⟩
  | blockComment =>
      have hend := noEnd_of_covers_append hcovers hne
      exact ⟨picks_comment_iff.mpr ⟨rfl, .inl hend⟩, .inr (.inr ⟨rfl, _, rfl, hend⟩)⟩

-- Computed over all rules: only those of literals have a solitary character beside others.
private theorem rules_plain : (rules.all fun rule => isLiteral rule.kind ||
    rule.pattern.isSingle || solitary.all fun c => rule.pattern.avoids c) = true := by
  decide

theorem not_mem_of_matches {rule : Rule Kind} (hmem : rule ∈ rules)
    (hplain : isLiteral rule.kind = false) {s : Text} (h : rule.pattern.Matches s)
    (hlength : s.length ≠ 1) {c : Char} (hc : c ∈ solitary) : c ∉ s := by
  have hrule := List.all_eq_true.mp rules_plain rule hmem
  rw [hplain, Bool.false_or, Bool.or_eq_true, List.all_eq_true] at hrule
  rcases hrule with hsingle | havoids
  · exact absurd (Pattern.length_of_isSingle h hsingle) hlength
  · exact Pattern.not_mem_of_avoids h (havoids c hc)

theorem First.not_mem_of_plain {text : Text} {lexeme : Lexeme} (h : First text lexeme)
    (hplain : isLiteral lexeme.kind = false) (hlength : lexeme.text.length ≠ 1) {c : Char}
    (hc : c ∈ solitary) : c ∉ lexeme.text := by
  cases h with
  | unknown htext hnone => exact absurd rfl hlength
  | found hlongest =>
      obtain ⟨rule, hmem, hmatches, rfl⟩ := hlongest.picks.covered
      exact not_mem_of_matches hmem hplain hmatches hlength hc

theorem not_isLiteral_of_not_mem {text : Text} (h : ∀ c ∈ solitary, c ∉ text) :
    ∀ lexeme ∈ lexemes text, isLiteral lexeme.kind = false := by
  intro lexeme hmem
  by_contra hliteral
  rw [Bool.not_eq_false] at hliteral
  obtain ⟨front, back, hlexemes⟩ := List.append_of_mem hmem
  have hopens := (first_of_lexemes_eq_append hlexemes).opens hliteral
  obtain ⟨c, hc, hhead⟩ := hopens.exists_head
  apply h c hc
  rw [(lexemes_append hlexemes).1, joined_cons]
  simp [List.mem_of_mem_head? hhead]

/-- What a cut makes of the lexeme that it goes through: a string or a comment stays one, and no
other one becomes one. -/
theorem First.lexemes_head {text head tail : Text} {lexeme : Lexeme} (h : First text lexeme)
    (htext : lexeme.text = head ++ tail) (hhead : head ≠ []) (htail : tail ≠ []) :
    (lexemes head = [⟨openKind lexeme.kind, head⟩] ∧ isLiteral lexeme.kind ∧
        IsOpen ⟨openKind lexeme.kind, head⟩) ∨
      ((∀ piece ∈ lexemes head, isLiteral piece.kind = false) ∧ isString lexeme.kind = false ∧
        (isComment lexeme.kind → head = ['/'])) := by
  cases hliteral : isLiteral lexeme.kind with
  | true =>
      have hopens := h.opens hliteral
      have hcovers := Rule.covers_iff_picks.mpr ⟨_, h.picks hliteral⟩
      rw [htext] at hopens hcovers
      rcases hopens.of_append hhead with hopens | ⟨rfl, _, hstring⟩
      · obtain ⟨hpicks, hopen⟩ := hopens.picks_of_covers hcovers htail
        exact .inl ⟨lexemes_of_picks hpicks, rfl, hopen⟩
      · -- Half of an opening mark is a lexeme that no rule describes.
        have hlexemes : lexemes ['/'] = [⟨.error, ['/']⟩] := by
          rw [lexemes_cons, show nextExtent ['/'] = (.error, 0) by decide, List.drop_zero,
            lexemes_nil, List.take_zero]
        rw [isString_openKind] at hstring
        refine .inr ⟨fun piece hmem => ?_, hstring, fun _ => rfl⟩
        rw [hlexemes, List.mem_singleton] at hmem
        rw [hmem]
        rfl
  | false =>
      obtain ⟨hstring, hcomment⟩ := not_isLiteral_iff.mp hliteral
      refine .inr ⟨not_isLiteral_of_not_mem fun c hc hmem => ?_, hstring, fun h => ?_⟩
      · have hlength : lexeme.text.length ≠ 1 := by
          have hheadLength := List.length_pos_iff.mpr hhead
          have htailLength := List.length_pos_iff.mpr htail
          rw [htext, List.length_append]
          omega
        apply h.not_mem_of_plain hliteral hlength hc
        rw [htext]
        exact List.mem_append_left tail hmem
      · exact absurd (hcomment.symm.trans h) Bool.false_ne_true

/-- The last lexeme before a caret, made from the one whose head is before the caret. -/
inductive Remains (lexeme : Lexeme) (head : Text) : Text → Lexeme → Prop where
  | whole : Remains lexeme head [] lexeme
  | opened {tail : Text} (htail : tail ≠ []) (hliteral : isLiteral lexeme.kind)
      (hopen : IsOpen ⟨openKind lexeme.kind, head⟩) :
      Remains lexeme head tail ⟨openKind lexeme.kind, head⟩
  | plain {tail : Text} {last : Lexeme} (htail : tail ≠ []) (hlast : isLiteral last.kind = false)
      (hstring : isString lexeme.kind = false) (hcomment : isComment lexeme.kind → head = ['/']) :
      Remains lexeme head tail last

theorem Holds.exists_last {before after head tail : Text} {front back : List Lexeme}
    {lexeme : Lexeme} (h : Holds before after front lexeme back head tail) :
    ∃ others last, lexemes before = others ++ [last] ∧ Remains lexeme head tail last := by
  by_cases htail : tail = []
  · subst htail
    exact ⟨front, lexeme, h.lexemes_before_of_end, .whole⟩
  · have hbefore := h.lexemes_before
    rcases h.first.lexemes_head h.text_eq h.head_ne_nil htail with
      ⟨hhead, hliteral, hopen⟩ | ⟨hplain, hstring, hcomment⟩
    · rw [hhead] at hbefore
      exact ⟨front, _, hbefore, .opened htail hliteral hopen⟩
    · rcases List.eq_nil_or_concat (lexemes head) with hnil | ⟨pieces, last, hpieces⟩
      · have hempty := joined_lexemes head
        rw [hnil, joined_nil] at hempty
        exact absurd hempty.symm h.head_ne_nil
      · have hlast : last ∈ lexemes head := by simp [hpieces]
        rw [hpieces, List.concat_eq_append, ← List.append_assoc] at hbefore
        exact ⟨front ++ pieces, last, hbefore, .plain htail (hplain last hlast) hstring hcomment⟩

/-! ## What follows an open lexeme -/

/-- Only a line break, or the end of the text, keeps a string or a line comment from going on. -/
theorem First.isBreak_of_open {lexeme : Lexeme} {c : Char} {rest : Text}
    (h : First (lexeme.text ++ c :: rest) lexeme)
    (hkind : lexeme.kind = .unterminatedStrLit ∨ lexeme.kind = .lineComment) :
    isBreak c = true := by
  have hlonger : ¬ Rule.Covers rules (lexeme.text ++ [c]) :=
    First.not_covers_append h (List.cons_ne_nil c [])
  have hliteral : isLiteral lexeme.kind := by
    rcases hkind with hkind | hkind <;> rw [hkind] <;> rfl
  have hopens := h.opens hliteral
  have hpicks := h.picks hliteral
  obtain ⟨kind, text⟩ := lexeme
  -- Any other character would make the lexeme longer.
  by_contra hbreak
  rw [Bool.not_eq_true] at hbreak
  apply hlonger
  rcases hkind with rfl | rfl
  · cases hopens with
    | string hquote =>
        obtain ⟨hopen, _⟩ := (picks_unterminated_iff hquote).mp hpicks
        exact (covers_quoted_iff hquote).mpr (quoted_concat hbreak hopen)
  · cases hopens with
    | lineComment =>
        obtain ⟨_, hline⟩ := picks_lineComment_iff.mp hpicks
        refine covers_lineComment_iff.mpr fun d hd => ?_
        rcases List.mem_append.mp hd with hd | hd
        · exact hline d hd
        · rw [List.mem_singleton.mp hd]
          exact hbreak

theorem First.not_isLiteral_of_isBreak {c : Char} {rest : Text} {lexeme : Lexeme}
    (h : First (c :: rest) lexeme) (hc : isBreak c = true) : isLiteral lexeme.kind = false := by
  by_contra hliteral
  rw [Bool.not_eq_false] at hliteral
  obtain ⟨d, hd, hhead⟩ := (h.opens hliteral).exists_head
  have hstart := h.isPrefix
  obtain ⟨more, htext⟩ := List.head?_eq_some_iff.mp hhead
  rw [htext, List.cons_prefix_cons] at hstart
  rw [← hstart.1] at hc
  have hnone : ∀ d ∈ solitary, isBreak d = false := by simp [solitary, isBreak]
  rw [hnone d hd] at hc
  cases hc

theorem not_isLiteral_of_follows {text : Text} {front back : List Lexeme} {lexeme next : Lexeme}
    (h : lexemes text = front ++ lexeme :: next :: back)
    (hkind : lexeme.kind = .unterminatedStrLit ∨ lexeme.kind = .lineComment) :
    isLiteral next.kind = false := by
  have hfirst := first_of_lexemes_eq_append h
  have hsplit : lexemes text = (front ++ [lexeme]) ++ next :: back := by
    rw [h, List.append_assoc, List.singleton_append]
  have hnext := first_of_lexemes_eq_append hsplit
  rw [joined_cons] at hfirst
  cases htext : next.text with
  | nil => exact absurd htext hnext.ne_nil
  | cons c more =>
      rw [htext, List.cons_append] at hfirst hnext
      exact hnext.not_isLiteral_of_isBreak (hfirst.isBreak_of_open hkind)

/-- An open block comment reaches the end of the text. -/
theorem First.eq_nil_of_noEnd {lexeme : Lexeme} {inside rest : Text}
    (h : First (lexeme.text ++ rest) lexeme) (htext : lexeme.text = '/' :: '*' :: inside)
    (hend : NoEnd inside) : rest = [] := by
  rw [htext, List.cons_append, List.cons_append] at h
  rcases (first_blockComment h).2 with ⟨body, tail, _, _, hclosed⟩ | ⟨_, hwhole⟩
  · rw [htext] at hclosed
    simp only [List.cons.injEq, true_and] at hclosed
    exact absurd (hclosed ▸ (List.suffix_append body _).isInfix) hend
  · rw [htext] at hwhole
    simpa using hwhole

/-! ## Separators -/

/-- Only strings and comments have a solitary character beside others. -/
theorem exists_opens_of_covers {s : Text} {c : Char} (hc : c ∈ solitary) (hmem : c ∈ s)
    (hlength : s.length ≠ 1) (h : Rule.Covers rules s) : ∃ kind, Opens s kind := by
  obtain ⟨rule, hrule, hmatches⟩ := h
  cases hliteral : isLiteral rule.kind with
  | true => exact ⟨_, opens_of_matches hrule hliteral hmatches⟩
  | false => exact absurd hmem (not_mem_of_matches hrule hliteral hmatches hlength hc)

/-- Only an open string or comment goes on beyond a solitary character. -/
theorem exists_picks_of_covers_append {s more : Text} {c : Char} (hc : c ∈ solitary)
    (hslash : c ≠ '/') (hne : s ≠ []) (h : Rule.Covers rules (s ++ c :: more)) :
    ∃ kind, Rule.Picks rules s kind ∧ IsOpen ⟨kind, s⟩ := by
  have hlength : (s ++ c :: more).length ≠ 1 := by
    have hpos := List.length_pos_iff.mpr hne
    rw [List.length_append, List.length_cons]
    omega
  have hmem : c ∈ s ++ c :: more := List.mem_append_right s List.mem_cons_self
  obtain ⟨kind, hopens⟩ := exists_opens_of_covers hc hmem hlength h
  rcases hopens.of_append hne with hopens | ⟨_, hmark, _⟩
  · exact ⟨kind, hopens.picks_of_covers h (List.cons_ne_nil c more)⟩
  · have hstar : c ≠ '*' := by
      rintro rfl
      exact absurd hc (by decide)
    simp [hslash, hstar] at hmark

private theorem prefix_cases {s before rest : Text} {c : Char} (h : s <+: before ++ c :: rest) :
    s <+: before ∨ ∃ more, s = before ++ c :: more := by
  rcases List.prefix_or_prefix_of_prefix h (List.prefix_append before (c :: rest)) with
    hs | ⟨more, rfl⟩
  · exact .inl hs
  · rw [List.prefix_append_right_inj] at h
    cases more with
    | nil => exact .inl (by rw [List.append_nil])
    | cons d more =>
        rw [List.cons_prefix_cons] at h
        exact .inr ⟨more, by rw [h.1]⟩

/-- A text whose last lexeme is not open keeps its lexemes when a solitary character follows. -/
theorem lexemes_append_solitary {before rest : Text} {c : Char} (hc : c ∈ solitary)
    (hslash : c ≠ '/') (hclosed : ∀ last ∈ (lexemes before).getLast?, ¬ IsOpen last) :
    lexemes (before ++ c :: rest) = lexemes before ++ lexemes (c :: rest) := by
  -- Lexeme by lexeme, what follows is exchanged. The last lexeme of the rest is that of the text.
  generalize hpieces : lexemes before = pieces at hclosed ⊢
  induction pieces generalizing before with
  | nil =>
      have hbefore := joined_lexemes before
      rw [hpieces, joined_nil] at hbefore
      rw [← hbefore]
      rfl
  | cons lexeme pieces ih =>
      have hfirst := first_of_lexemes_eq_cons hpieces
      obtain ⟨hbefore, hlater⟩ := lexemes_eq_cons hpieces
      have hne : before ≠ [] := by
        intro hnil
        rw [hnil, lexemes_nil] at hpieces
        cases hpieces
      have hlonger : First (before ++ c :: rest) lexeme := by
        have hstart := hfirst.isPrefix.trans (List.prefix_append before (c :: rest))
        refine hfirst.exchange hstart fun s hs hcovers => ?_
        rcases prefix_cases hs with hs | ⟨more, rfl⟩
        · exact hs
        · -- A rule that goes on beyond the text makes one open lexeme of all of it.
          obtain ⟨kind, hpicks, hopen⟩ := exists_picks_of_covers_append hc hslash hne hcovers
          rw [lexemes_of_picks hpicks, List.cons.injEq] at hpieces
          rw [← hpieces.1, ← hpieces.2] at hclosed
          exact absurd hopen (hclosed _ rfl)
      have hrest := ih hlater fun last hlast => hclosed last (List.mem_getLast?_cons hlast)
      rw [hbefore, List.append_assoc] at hlonger ⊢
      rw [lexemes_of_first hlonger, hrest, List.cons_append]

/-- A text after which no rule goes on is a lexeme, whatever follows. -/
theorem lexemes_of_advanceAll {s : Text} {kind : Kind}
    (h : Rule.advanceAll s rules = [⟨kind, .empty⟩]) (after : Text) :
    lexemes (s ++ after) = ⟨kind, s⟩ :: lexemes after := by
  have hpicks : ∀ more other, Rule.Picks rules (s ++ more) other ↔ more = [] ∧ kind = other := by
    intro more other
    rw [← Rule.picks_advanceAll_iff, h, Rule.Picks, Rule.Picks, Pattern.matches_empty_iff,
      and_false, or_false]
  have hwhole : Rule.Picks rules s kind := by
    rw [← List.append_nil s]
    exact (hpicks [] kind).mpr ⟨rfl, rfl⟩
  have hfirst : First (Lexeme.text ⟨kind, s⟩ ++ after) ⟨kind, s⟩ := by
    refine (first_of_picks hwhole).exchange (List.prefix_append s after) fun t ht hcovers => ?_
    rcases List.prefix_or_prefix_of_prefix ht (List.prefix_append s after) with hs | ⟨more, rfl⟩
    · exact hs
    · obtain ⟨other, hother⟩ := Rule.covers_iff_picks.mp hcovers
      rw [((hpicks more other).mp hother).1, List.append_nil]
  exact lexemes_of_first hfirst

end Protobuf

end Keystroke
