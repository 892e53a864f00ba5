import Mathlib
import Keystroke.Proofs.OpenLexemes
import Keystroke.Proofs.TokenPartition

/-!
# Maximal munch

Every token that is neither a string nor a block comment is the longest text at its place that the
regular expression of some kind describes, and it has that kind; where there is no such text, it is
one character. A reserved word is never an identifier. A block comment ends after its first end mark.
-/

namespace Keystroke.Protobuf

/-! ## What a token has to be -/

/-- The words that would be identifiers if they had no kind of their own. -/
def reservedWords : List (Kind × String) :=
  wordLiterals ++ [(.boolLit, "true"), (.boolLit, "false"), (.floatLit, "inf"), (.floatLit, "nan")]

def openings : List Text := [['"'], ['\''], ['/', '*']]

/-- A text has the given kind, and nothing longer at the start of `rest` has any kind. -/
structure IsMunch (rest lexeme : Text) (kind : Kind) : Prop where
  mem : lexeme ∈ ruleLanguage kind
  longest : ∀ other s, s <+: rest → s ∈ ruleLanguage other → s.length ≤ lexeme.length
  reserved : ∀ entry ∈ reservedWords, lexeme = entry.2.toList → kind = entry.1

structure IsUnknown (rest lexeme : Text) : Prop where
  single : lexeme.length = 1
  unmatched : ∀ kind s, s <+: rest → s ≠ [] → s ∉ ruleLanguage kind

/-- A comment with the given text after its opening mark ends after the first end mark or, if there
is none, with the text. -/
def EndsComment (inside lexeme after : Text) : Prop :=
  (∃ body, inside = body ++ ['*', '/'] ++ after ∧ lexeme = ['/', '*'] ++ body ++ ['*', '/'] ∧
      ∀ front back, inside = front ++ ['*', '/'] ++ back → body.length ≤ front.length) ∨
    ((∀ front back, inside ≠ front ++ ['*', '/'] ++ back) ∧ after = [])

/-! ## Kinds and rules -/

theorem exists_rule_of_kind {kind : Kind} (herror : kind ≠ .error) (heof : kind ≠ .eof) :
    ∃ rule ∈ rules, rule.kind = kind := by
  have hall : ∀ kind ∈ Kind.all, kind ≠ .error → kind ≠ .eof → kind ∈ rules.map (·.kind) := by
    decide
  exact List.mem_map.mp (hall kind (Kind.mem_all kind) herror heof)

theorem rule_kind_ne_error : ∀ rule ∈ rules, rule.kind ≠ .error := by
  decide

theorem isLiteral_of_isDelimited {kind : Kind} (h : isDelimited kind) :
    isLiteral kind ∧ openKind kind ≠ .lineComment := by
  cases kind with
  | blockComment | strLit | unterminatedStrLit | proto3Double | proto3Single => exact ⟨rfl, nofun⟩
  | _ => cases h

theorem Opens.exists_opening {s : Text} {kind : Kind} (h : Opens s kind)
    (hkind : kind ≠ .lineComment) : ∃ opening ∈ openings, opening <+: s := by
  cases h with
  | @string quote s hquote =>
      refine ⟨[quote], ?_, List.prefix_append [quote] s⟩
      rcases hquote with rfl | rfl <;> decide
  | lineComment => exact absurd rfl hkind
  | @blockComment s => exact ⟨['/', '*'], by decide, List.prefix_append ['/', '*'] s⟩

/-- What the rules of strings and block comments describe begins as they do. -/
theorem exists_opening_of_matches {rule : Rule Kind} (hmem : rule ∈ rules)
    (hdelimited : isDelimited rule.kind) {s : Text} (h : rule.pattern.Matches s) :
    ∃ opening ∈ openings, opening <+: s := by
  obtain ⟨hliteral, hkind⟩ := isLiteral_of_isDelimited hdelimited
  exact (opens_of_matches hmem hliteral h).exists_opening hkind

theorem mem_openings_of_mem_ruleLanguage {kind : Kind} (hdelimited : isDelimited kind) {s : Text}
    (h : s ∈ ruleLanguage kind) : s ∈ openings := by
  have hall : ∀ word ∈ ["\"", "'", "/*"], word.toList ∈ openings := by decide
  cases kind <;> simp only [isDelimited, Bool.false_eq_true] at hdelimited
  · exact h ▸ hall "/*" (by decide)
  · rcases h with h | h
    · exact h ▸ hall "\"" (by decide)
    · exact h ▸ hall "'" (by decide)
  · rcases h with h | h
    · exact h ▸ hall "\"" (by decide)
    · exact h ▸ hall "'" (by decide)
  · exact h ▸ hall "\"" (by decide)
  · exact h ▸ hall "'" (by decide)

/-! ## Reserved words -/

-- Computed: each word is read to its end, and the first rule that is done then is looked up.
private theorem accepted?_reservedWords : ∀ entry ∈ reservedWords,
    Rule.accepted? (Rule.advanceAll entry.2.toList rules) = some entry.1 := by
  decide

theorem picks_reservedWord {entry : Kind × String} (h : entry ∈ reservedWords) :
    Rule.Picks rules entry.2.toList entry.1 := by
  have haccepted := Rule.accepted?_eq_some_iff.mp (accepted?_reservedWords entry h)
  rw [Rule.picks_advanceAll_iff, List.append_nil] at haccepted
  exact haccepted

/-! ## The first lexeme -/

theorem covers_of_mem_ruleLanguage {rest s : Text} {kind : Kind}
    (hopen : ∀ opening ∈ openings, ¬ opening <+: rest) (hs : s <+: rest)
    (h : s ∈ ruleLanguage kind) : Rule.Covers rules s := by
  have hdelimited : isDelimited kind = false := by
    by_contra hdelimited
    rw [Bool.not_eq_false] at hdelimited
    exact hopen s (mem_openings_of_mem_ruleLanguage hdelimited h) hs
  have hne : kind ≠ .error ∧ kind ≠ .eof := by
    refine ⟨fun heq => ?_, fun heq => ?_⟩ <;> rw [heq] at h <;> exact h
  obtain ⟨rule, hmem, rfl⟩ := exists_rule_of_kind hne.1 hne.2
  exact ⟨rule, hmem, (matches_iff_of_mem_rules hmem hdelimited).mpr h⟩

theorem mem_ruleLanguage_of_picks {rest s : Text} {kind : Kind}
    (hopen : ∀ opening ∈ openings, ¬ opening <+: rest) (hs : s <+: rest)
    (h : Rule.Picks rules s kind) : s ∈ ruleLanguage kind := by
  obtain ⟨rule, hmem, hmatches, rfl⟩ := h.covered
  have hdelimited : isDelimited rule.kind = false := by
    by_contra hdelimited
    rw [Bool.not_eq_false] at hdelimited
    obtain ⟨opening, hopening, hstart⟩ := exists_opening_of_matches hmem hdelimited hmatches
    exact hopen opening hopening (hstart.trans hs)
  exact (matches_iff_of_mem_rules hmem hdelimited).mp hmatches

theorem isMunch_of_longest {rest : Text} {kind : Kind} {n : Nat}
    (h : Rule.Longest rules rest kind n) (hopen : ∀ opening ∈ openings, ¬ opening <+: rest) :
    IsMunch rest (rest.take n) kind := by
  have htaken : rest.take n <+: rest := List.take_prefix n rest
  refine ⟨mem_ruleLanguage_of_picks hopen htaken h.picks, fun other s hs hother => ?_,
    fun entry hentry htext => ?_⟩
  · by_contra hlong
    rw [List.length_take, Nat.min_eq_left h.le, not_le] at hlong
    apply h.maximal s.length hlong hs.length_le
    rw [← List.prefix_iff_eq_take.mp hs]
    exact covers_of_mem_ruleLanguage hopen hs hother
  · have hpicks := picks_reservedWord hentry
    rw [← htext] at hpicks
    exact h.picks.unique hpicks

theorem isUnknown_of_not_covers {c : Char} {rest : Text}
    (h : ∀ m ≤ (c :: rest).length, ¬ Rule.Covers rules ((c :: rest).take m))
    (hopen : ∀ opening ∈ openings, ¬ opening <+: c :: rest) : IsUnknown (c :: rest) [c] := by
  refine ⟨rfl, fun kind s hs _ hkind => ?_⟩
  apply h s.length hs.length_le
  rw [← List.prefix_iff_eq_take.mp hs]
  exact covers_of_mem_ruleLanguage hopen hs hkind

theorem First.munch {rest : Text} {lexeme : Lexeme} (h : First rest lexeme)
    (hopen : ∀ opening ∈ openings, ¬ opening <+: rest) :
    (lexeme.kind ≠ .error → IsMunch rest lexeme.text lexeme.kind) ∧
      (lexeme.kind = .error → IsUnknown rest lexeme.text) := by
  cases h with
  | found hlongest =>
      obtain ⟨rule, hmem, _, hkind⟩ := hlongest.picks.covered
      refine ⟨fun _ => isMunch_of_longest hlongest hopen, fun herror => ?_⟩
      exact absurd (hkind.trans herror) (rule_kind_ne_error rule hmem)
  | unknown htext hnone =>
      subst htext
      exact ⟨fun hne => absurd rfl hne, fun _ => isUnknown_of_not_covers hnone hopen⟩

theorem First.endsComment {inside after : Text} {lexeme : Lexeme}
    (h : First (lexeme.text ++ after) lexeme)
    (hopen : lexeme.text ++ after = ['/', '*'] ++ inside) :
    lexeme.kind = .blockComment ∧ EndsComment inside lexeme.text after := by
  rw [hopen] at h
  obtain ⟨hkind, hend⟩ := first_blockComment h
  refine ⟨hkind, ?_⟩
  rcases hend with ⟨body, tail, rfl, hbody, htext⟩ | ⟨hnone, htext⟩
  · have hafter : after = tail := by
      rw [htext] at hopen
      simpa using hopen
    refine .inl ⟨body, ?_, ?_, fun front back hsplit => ?_⟩
    · simp [hafter]
    · simp [htext]
    · exact length_le_of_noEnd hbody (by simpa using hsplit)
  · refine .inr ⟨fun front back hsplit => hnone ⟨front, back, hsplit.symm⟩, ?_⟩
    rw [htext] at hopen
    simpa using hopen

/-! ## Tokens -/

/-- A token of a text is the longest match at its place, or a character that nothing matches, or a
comment up to its first end mark. -/
def Munched (text : Text) (token : Token Kind) : Prop :=
  ∃ before lexeme after : Text, text = before ++ lexeme ++ after ∧
    token.span.start = before.byteSize ∧ token.span.stop = (before ++ lexeme).byteSize ∧
    ((∀ opening ∈ openings, ¬ opening <+: lexeme ++ after) →
      (token.kind ≠ .error → IsMunch (lexeme ++ after) lexeme token.kind) ∧
        (token.kind = .error → IsUnknown (lexeme ++ after) lexeme)) ∧
    ∀ inside, lexeme ++ after = ['/', '*'] ++ inside →
      token.kind = .blockComment ∧ EndsComment inside lexeme after

theorem munched_of_mem_tokenize {text : Text} {tokens : TokenList Kind} {token : Token Kind}
    (htokens : tokenize text = .ok tokens) (hmem : token ∈ tokens) (hkind : token.kind ≠ .eof) :
    Munched text token := by
  obtain ⟨before, lexeme, after, h⟩ := exists_occurs_of_mem htokens hmem hkind
  refine ⟨before, lexeme.text, after, h.text_eq, h.stands.start, h.stands.stop, ?_, ?_⟩
  · rw [h.stands.kind]
    exact h.first.munch
  · intro inside hinside
    rw [h.stands.kind]
    exact h.first.endsComment hinside

-- An exponent that lacks its digits: the number ends before the letter.
theorem munched_backtracking :
    ∃ tokens token, tokenize ['1', 'e', '+'] = .ok tokens ∧ token ∈ tokens ∧
      token.kind = .intLit ∧ Munched ['1', 'e', '+'] token := by
  have hlexemes : lexemes ['1', 'e', '+'] =
      [⟨.intLit, ['1']⟩, ⟨.ident, ['e']⟩, ⟨.mark .plus, ['+']⟩] := by
    rw [lexemes_cons, show nextExtent ['1', 'e', '+'] = (.intLit, 0) by decide, List.drop_zero,
      lexemes_cons, show nextExtent ['e', '+'] = (.ident, 0) by decide, List.drop_zero,
      lexemes_cons, show nextExtent ['+'] = (.mark .plus, 0) by decide, List.drop_zero,
      lexemes_nil]
    rfl
  have htokens : tokenize ['1', 'e', '+'] = .ok
      #[⟨.intLit, ⟨0, 1, by decide, by decide⟩, 1, 0⟩, ⟨.ident, ⟨1, 2, by decide, by decide⟩, 1, 1⟩,
        ⟨.mark .plus, ⟨2, 3, by decide, by decide⟩, 1, 2⟩,
        ⟨.eof, ⟨3, 3, by decide, by decide⟩, 1, 3⟩] := by
    rw [tokenize, hlexemes]
    rfl
  exact ⟨_, _, htokens, Array.mem_of_getElem? (i := 0) rfl, rfl,
    munched_of_mem_tokenize htokens (Array.mem_of_getElem? (i := 0) rfl) (by decide)⟩

end Keystroke.Protobuf
