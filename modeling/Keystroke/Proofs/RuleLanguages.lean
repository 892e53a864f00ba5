import Mathlib
import Keystroke.Protobuf.Rules

/-!
# The languages of the lexical rules

`Pattern.language` reads a pattern as a set of texts. `ruleLanguage` gives the regular expression of
each kind in the usual notation, with unions, products and stars of languages, and
`matches_iff_of_mem_rules` says that the rules describe just these texts.

Block comments and strings are found by their first characters: `ruleLanguage` has only these, and
what follows them is described elsewhere.
-/

open scoped Computability

namespace Keystroke

namespace Pattern

def language : Pattern → Language Char
  | never => 0
  | empty => 1
  | one accepts => {s | ∃ c, accepts c ∧ s = [c]}
  | seq p q => p.language * q.language
  | alt p q => p.language + q.language
  | star p => p.language∗

theorem matches_star_of_flatten {p : Pattern} (rounds : List Text)
    (h : ∀ s ∈ rounds, p.Matches s) : (star p).Matches rounds.flatten := by
  induction rounds with
  | nil => exact .done
  | cons s rounds ih =>
      rw [List.flatten_cons]
      exact .more (h s List.mem_cons_self) (ih fun t ht => h t (List.mem_cons_of_mem s ht))

theorem mem_language_of_matches {p : Pattern} {s : Text} (h : p.Matches s) : s ∈ p.language := by
  induction h with
  | empty => exact Language.nil_mem_one
  | one h => exact ⟨_, h, rfl⟩
  | seq _ _ ihp ihq => exact Language.append_mem_mul ihp ihq
  | left _ ih => exact .inl ih
  | right _ ih => exact .inr ih
  | done => exact Language.nil_mem_kstar _
  | more _ _ ihp ihrest =>
      obtain ⟨rounds, rfl, hrounds⟩ := Language.mem_kstar.mp ihrest
      rw [← List.flatten_cons]
      refine Language.join_mem_kstar fun t ht => ?_
      rcases List.mem_cons.mp ht with rfl | ht
      · exact ihp
      · exact hrounds t ht

theorem matches_of_mem_language {p : Pattern} {s : Text} (h : s ∈ p.language) : p.Matches s := by
  induction p generalizing s with
  | never => exact absurd h (Language.notMem_zero s)
  | empty => exact matches_empty_iff.mpr h
  | one accepts => exact matches_one_iff.mpr h
  | seq p q ihp ihq =>
      obtain ⟨a, ha, b, hb, rfl⟩ := Language.mem_mul.mp h
      exact .seq (ihp ha) (ihq hb)
  | alt p q ihp ihq =>
      rcases (Language.mem_add _ _ _).mp h with h | h
      · exact .left (ihp h)
      · exact .right (ihq h)
  | star p ih =>
      obtain ⟨rounds, rfl, hrounds⟩ := Language.mem_kstar.mp h
      exact matches_star_of_flatten rounds fun s hs => ih (hrounds s hs)

theorem matches_iff_mem_language {p : Pattern} {s : Text} : p.Matches s ↔ s ∈ p.language :=
  ⟨mem_language_of_matches, matches_of_mem_language⟩

end Pattern

namespace Protobuf

/-! ## Regular expressions -/

def oneChar (accepted : Char → Prop) : Language Char := {s | ∃ c, accepted c ∧ s = [c]}

def range (first last : Char) : Language Char := oneChar fun c => first ≤ c ∧ c ≤ last

def oneOf (chars : List Char) : Language Char := oneChar (· ∈ chars)

def noneOf (chars : List Char) : Language Char := oneChar (· ∉ chars)

def exactly (word : String) : Language Char := {s | s = word.toList}

def many (l : Language Char) : Language Char := l * l∗

def maybe (l : Language Char) : Language Char := l + 1

def digits : Language Char := range '0' '9'

def hexDigits : Language Char := range '0' '9' + range 'A' 'F' + range 'a' 'f'

def letters : Language Char := range 'A' 'Z' + range 'a' 'z' + oneOf ['_']

def exponents : Language Char := oneOf ['e', 'E'] * maybe (oneOf ['+', '-']) * many digits

/-- The texts that the scanner looks for to give them a kind. -/
def literalTexts (kind : Kind) : Language Char :=
  {s | ∃ word, (kind, word) ∈ literals ∧ s = word.toList}

def ruleLanguage : Kind → Language Char
  | .whitespace => many (oneOf [' ', '\t', '\r', '\x0c'])
  | .newline => exactly "\n"
  | .blockComment => exactly "/*"
  | .lineComment => exactly "//" * (noneOf ['\r', '\n'])∗
  | .type word => literalTexts (.type word)
  | .keyword word => literalTexts (.keyword word)
  | .boolLit => exactly "true" + exactly "false"
  | .ident => letters * (letters + digits)∗
  | .intLit =>
    exactly "0" * oneOf ['x', 'X'] * many hexDigits + exactly "0" * digits∗ +
      range '1' '9' * digits∗
  | .floatLit =>
    (many digits * exactly "." * digits∗ + exactly "." * many digits) * maybe exponents +
      many digits * exponents + exactly "inf" + exactly "nan"
  | .strLit | .unterminatedStrLit => exactly "\"" + exactly "'"
  | .proto3Double => exactly "\""
  | .proto3Single => exactly "'"
  | .mark mark => literalTexts (.mark mark)
  | .assign => literalTexts .assign
  | .error | .eof => 0

/-! ## Patterns as regular expressions -/

theorem language_one {accepts : Char → Bool} {accepted : Char → Prop}
    (h : ∀ c, accepts c ↔ accepted c) : (Pattern.one accepts).language = oneChar accepted := by
  ext s
  exact exists_congr fun c => and_congr_left' (h c)

theorem language_anyOf (chars : Text) : (Pattern.anyOf chars).language = oneOf chars :=
  language_one fun c => by simp

theorem language_noneOf (chars : Text) : (Pattern.noneOf chars).language = noneOf chars :=
  language_one fun c => by simp

theorem language_word (word : String) : (Pattern.word word.toList).language = exactly word := by
  ext s
  exact Pattern.matches_iff_mem_language.symm.trans Pattern.word_iff

theorem language_char {c : Char} {word : String} (h : word.toList = [c]) :
    (Pattern.char c).language = exactly word := by
  ext s
  refine Pattern.matches_iff_mem_language.symm.trans (Pattern.matches_one_iff.trans ?_)
  simp only [beq_iff_eq, exists_eq_left]
  exact h ▸ Iff.rfl

theorem language_seq (p q : Pattern) : (p.seq q).language = p.language * q.language := rfl

theorem language_alt (p q : Pattern) : (p.alt q).language = p.language + q.language := rfl

theorem language_star (p : Pattern) : p.star.language = p.language∗ := rfl

theorem language_plus (p : Pattern) : p.plus.language = many p.language := rfl

theorem language_optional (p : Pattern) : p.optional.language = maybe p.language := rfl

/-- A class of characters in two parts. -/
private theorem oneChar_or (left right : Char → Prop) :
    oneChar (fun c => left c ∨ right c) = oneChar left + oneChar right := by
  ext s
  rw [Language.mem_add]
  refine ⟨fun ⟨c, hc, hs⟩ => ?_, fun h => ?_⟩
  · exact hc.elim (fun hc => .inl ⟨c, hc, hs⟩) (fun hc => .inr ⟨c, hc, hs⟩)
  · rcases h with ⟨c, hc, hs⟩ | ⟨c, hc, hs⟩
    · exact ⟨c, .inl hc, hs⟩
    · exact ⟨c, .inr hc, hs⟩

private theorem isDigit_iff (c : Char) : c.isDigit ↔ '0' ≤ c ∧ c ≤ '9' := by
  simp [Char.isDigit, Char.le_def]

private theorem isNameStart_iff (c : Char) :
    isNameStart c ↔ (('A' ≤ c ∧ c ≤ 'Z') ∨ ('a' ≤ c ∧ c ≤ 'z')) ∨ c ∈ ['_'] := by
  simp [isNameStart, Char.isAlpha, Char.isUpper, Char.isLower, Char.le_def]

theorem language_digit : digit.language = digits := language_one isDigit_iff

theorem language_hexDigit : (Pattern.one isHexDigit).language = hexDigits := by
  have hclass : ∀ c, isHexDigit c ↔
      (('0' ≤ c ∧ c ≤ '9') ∨ ('A' ≤ c ∧ c ≤ 'F')) ∨ ('a' ≤ c ∧ c ≤ 'f') := by
    intro c
    simp only [isHexDigit, Bool.or_eq_true, Bool.and_eq_true, decide_eq_true_eq, isDigit_iff]
    tauto
  rw [language_one hclass, oneChar_or, oneChar_or]
  rfl

theorem language_nameStart : (Pattern.one isNameStart).language = letters := by
  rw [language_one isNameStart_iff, oneChar_or, oneChar_or]
  rfl

theorem language_namePart :
    (Pattern.one fun c => isNameStart c || c.isDigit).language = letters + digits := by
  have hclass : ∀ c, (isNameStart c || c.isDigit) ↔ isNameStart c ∨ ('0' ≤ c ∧ c ≤ '9') := by
    intro c
    rw [Bool.or_eq_true, isDigit_iff]
  rw [language_one hclass, oneChar_or, ← language_nameStart]
  rfl

/-- A number that starts with a digit starts with a zero or with another digit. -/
theorem digits_eq : digits = exactly "0" + range '1' '9' := by
  have hclass : ∀ c : Char, ('0' ≤ c ∧ c ≤ '9') ↔ c = '0' ∨ ('1' ≤ c ∧ c ≤ '9') := by
    intro c
    simp only [Char.le_def, Char.ext_iff, UInt32.le_iff_toNat_le, ← UInt32.toNat_inj]
    simp only [UInt32.reduceToNat, Char.reduceVal]
    omega
  have hzero : exactly "0" = oneChar (· = '0') := by
    ext s
    simp only [exactly, oneChar, exists_eq_left]
    exact Iff.rfl
  rw [hzero, range, ← oneChar_or]
  ext s
  exact exists_congr fun c => and_congr_left' (hclass c)

theorem language_exponent : exponent.language = exponents := by
  unfold exponent exponents
  simp only [language_seq, language_anyOf, language_optional, language_plus, language_digit]
  rw [mul_assoc]

theorem language_integer : integer.language = ruleLanguage .intLit := by
  have hmany : many digits = exactly "0" * digits∗ + range '1' '9' * digits∗ := by
    rw [many]
    nth_rewrite 1 [digits_eq]
    rw [add_mul]
  unfold integer
  simp only [language_alt, language_seq, language_anyOf, language_plus, language_hexDigit,
    language_digit, language_char (show "0".toList = ['0'] by decide), ruleLanguage]
  rw [hmany, mul_assoc, add_assoc]

theorem language_decimal : decimal.language =
    (many digits * exactly "." * digits∗ + exactly "." * many digits) * maybe exponents +
      many digits * exponents := by
  unfold decimal
  simp only [language_alt, language_seq, language_star, language_plus, language_optional,
    language_digit, language_exponent, language_char (show ".".toList = ['.'] by decide)]
  rw [mul_assoc (many digits)]

/-! ## The rules -/

/-- The kinds whose rule in `ruleLanguage` has only the first characters of their texts. -/
def isDelimited : Kind → Bool
  | .blockComment | .strLit | .unterminatedStrLit | .proto3Double | .proto3Single => true
  | _ => false

-- Both checks are computed: entry by entry of the scanner's list, and kind by kind.
private theorem spelling?_literals : ∀ entry ∈ literals, entry.1.spelling? = some entry.2 := by
  decide

private theorem literals_spelling? :
    ∀ kind ∈ Kind.all, ∀ word ∈ kind.spelling?, (kind, word) ∈ literals := by
  decide

/-- The scanner's list of fixed texts and the table of spellings agree. -/
theorem mem_literals_iff {kind : Kind} {word : String} :
    (kind, word) ∈ literals ↔ kind.spelling? = some word := by
  constructor
  · intro h
    exact spelling?_literals (kind, word) h
  · intro h
    exact literals_spelling? kind (Kind.mem_all kind) word h

theorem mem_fixedRules_iff {rule : Rule Kind} :
    rule ∈ fixedRules ↔
      ∃ word, rule.kind.spelling? = some word ∧ rule.pattern = .word word.toList := by
  rw [fixedRules, List.mem_map]
  constructor
  · rintro ⟨⟨kind, word⟩, hmem, rfl⟩
    exact ⟨word, mem_literals_iff.mp hmem, rfl⟩
  · rintro ⟨word, hword, hpattern⟩
    refine ⟨(rule.kind, word), mem_literals_iff.mpr hword, ?_⟩
    show Rule.mk rule.kind (.word word.toList) = rule
    rw [← hpattern]

theorem literalTexts_of_spelling? {kind : Kind} {word : String} (h : kind.spelling? = some word) :
    literalTexts kind = exactly word := by
  ext s
  constructor
  · rintro ⟨other, hother, hs⟩
    rw [mem_literals_iff, h, Option.some.injEq] at hother
    rw [hother]
    exact hs
  · intro hs
    exact ⟨word, mem_literals_iff.mpr h, hs⟩

/-- A kind with a fixed text has that text only, or starts with its first character. -/
theorem ruleLanguage_of_spelling? {kind : Kind} {word : String}
    (h : kind.spelling? = some word) (hopen : isDelimited kind = false) :
    ruleLanguage kind = exactly word := by
  rw [← literalTexts_of_spelling? h]
  cases kind with
  | type | keyword | mark | assign => rfl
  | proto3Double | proto3Single => cases hopen
  | _ => cases h

theorem matches_iff_of_mem_rules {rule : Rule Kind} (h : rule ∈ rules)
    (hopen : isDelimited rule.kind = false) {s : Text} :
    rule.pattern.Matches s ↔ s ∈ ruleLanguage rule.kind := by
  rw [Pattern.matches_iff_mem_language]
  suffices hlanguage : rule.pattern.language = ruleLanguage rule.kind by rw [hlanguage]
  rcases List.mem_append.mp h with hfixed | hother
  · obtain ⟨word, hword, hpattern⟩ := mem_fixedRules_iff.mp hfixed
    rw [hpattern, language_word, ruleLanguage_of_spelling? hword hopen]
  · simp only [List.mem_cons, List.not_mem_nil, or_false] at hother
    rcases hother with rfl | rfl | rfl | rfl | rfl | rfl | rfl | rfl | rfl | rfl
    · simp only [language_alt, language_word, ruleLanguage]
    · simp only [language_alt, language_word, language_decimal, ruleLanguage, add_assoc]
    · simp only [name, language_seq, language_star, language_nameStart, language_namePart,
        ruleLanguage]
    · exact language_integer
    · simp only [blankRun, language_plus, language_anyOf, ruleLanguage]
    · exact language_char (by decide)
    · cases hopen
    · simp only [lineComment, language_seq, language_star, language_noneOf, ruleLanguage]
      rw [← language_word]
      rfl
    · cases hopen
    · cases hopen

end Protobuf

end Keystroke
