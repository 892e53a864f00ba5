import Mathlib
import Keystroke.Proofs.CaretContext
import Keystroke.Proofs.DocumentLines
import Keystroke.Proofs.MaximalMunch
import Keystroke.Protobuf.Report

/-!
# Lexical errors

A character is stray if no token but a string or a comment can have it. The report of a text gets
one diagnostic for each stray character outside strings and comments, in the order of the text, and
what it held before stays in front (`tokenizeReporting_adds_strays`).
-/

namespace Keystroke

/-! ## Reports -/

def Diagnostic.fields (diagnostic : Diagnostic) : String × Nat × Nat :=
  (diagnostic.message, diagnostic.line, diagnostic.column)

/-- A column that has a next one is not cut off. -/
theorem Report.exists_add (report : Report) {message : String} {line column : Nat}
    (hmessage : message ≠ "") (hline : 0 < line) (hcolumn : column + 1 < Word.bound) :
    ∃ diagnostic, report.add message line column = .ok ⟨report.diagnostics.push diagnostic⟩ ∧
      diagnostic.fields = (message, line, column + 1) := by
  have hsucc : Word.succSaturating column = column + 1 := by
    rw [Word.succSaturating]
    omega
  refine ⟨⟨message, line, column + 1, hmessage, hline, Nat.succ_pos column⟩, ?_, rfl⟩
  rw [Report.add, hsucc, Diagnostic.ofFields, dif_neg hmessage, dif_neg hline.ne',
    dif_neg (Nat.succ_ne_zero column)]
  rfl

namespace Protobuf

-- The equation that `rw` makes for this definition is slow to get: the strings in it are opened.
theorem unknownText_eq (text : Text) : unknownText text =
    "token recognition error at: '" ++ String.ofList (text.escape ['\'', '"']) ++ "'" :=
  rfl

theorem unknownText_ne_empty (text : Text) : unknownText text ≠ "" := by
  intro hempty
  rw [unknownText_eq, String.append_eq_empty_iff] at hempty
  exact absurd hempty.2 (by decide)

theorem unknownText_singleton (c : Char) : unknownText [c] =
    "token recognition error at: '" ++ String.ofList (Text.escapeChar ['\'', '"'] c) ++ "'" := by
  rw [unknownText_eq, Text.escape, List.flatMap_singleton]

def reportedFields (entry : Lexeme × Token Kind) : String × Nat × Nat :=
  (unknownText entry.1.text, entry.2.line, entry.2.column + 1)

theorem foldlM_addAt {entries : List (Lexeme × Token Kind)}
    (h : ∀ entry ∈ entries, 0 < entry.2.line ∧ entry.2.column + 1 < Word.bound) (report : Report) :
    ∃ added : Array Diagnostic,
      entries.foldlM (fun report (lexeme, token) => report.addAt (unknownText lexeme.text) token)
        report = .ok ⟨report.diagnostics ++ added⟩ ∧
      added.toList.map Diagnostic.fields = entries.map reportedFields := by
  induction entries generalizing report with
  | nil => exact ⟨#[], by rw [Array.append_empty]; rfl, rfl⟩
  | cons entry entries ih =>
      rw [List.forall_mem_cons] at h
      obtain ⟨⟨hline, hcolumn⟩, hrest⟩ := h
      obtain ⟨diagnostic, hadd, hfields⟩ :=
        report.exists_add (unknownText_ne_empty entry.1.text) hline hcolumn
      obtain ⟨added, hfold, hadded⟩ := ih hrest ⟨report.diagnostics.push diagnostic⟩
      refine ⟨#[diagnostic] ++ added, ?_, ?_⟩
      · rw [List.foldlM_cons, ← Array.append_assoc, Array.append_singleton]
        change (report.add (unknownText entry.1.text) entry.2.line entry.2.column >>= _) = _
        rw [hadd]
        exact hfold
      · rw [Array.toList_append, List.map_append, hadded]
        simp only [List.map_cons, List.map_nil, hfields, reportedFields, List.singleton_append]

/-! ## Stray characters -/

/-- The characters of tokens that are neither letters nor digits, and the quotes that strings start
with. A slash is not among them: only comments have it. -/
def marks : Text :=
  ['_', ' ', '\t', '\r', '\n', '\x0c', '"', '\'', '(', ')', '\x7b', '\x7d', '[', ']', '<', '>', ';',
    ',', '.', '-', '+', '=']

def isKnown (c : Char) : Bool := c.isAlpha || c.isDigit || marks.contains c

def isStray (c : Char) : Bool := !isKnown c

-- Computed: the rules are tried on each mark.
private theorem accepted?_marks :
    (marks.all fun c => (Rule.accepted? (Rule.advance c rules)).isSome) = true := by
  decide

theorem covers_of_isKnown {c : Char} (h : isKnown c) : Rule.Covers rules [c] := by
  rw [isKnown, Bool.or_eq_true, Bool.or_eq_true] at h
  rcases h with (halpha | hdigit) | hmark
  · refine ⟨⟨.ident, name⟩, by simp [rules], ?_⟩
    have hstart : isNameStart c := by rw [isNameStart, halpha, Bool.true_or]
    exact .seq (.one hstart) .done
  · refine ⟨⟨.intLit, integer⟩, by simp [rules], ?_⟩
    exact .right (.seq (.one hdigit) .done)
  · rw [← Rule.covers_advance_iff]
    by_contra hnone
    have hsome := List.all_eq_true.mp accepted?_marks c (List.contains_iff_mem.mp hmark)
    rw [Rule.accepted?_eq_none_iff.mpr hnone] at hsome
    cases hsome

section Avoids

variable {c d : Char} {chars : Text}

theorem ne_of_isStray (hc : isStray c) (hd : isStray d = false) : c ≠ d := by
  rintro rfl
  rw [hc] at hd
  cases hd

theorem not_mem_of_isStray (hc : isStray c) (hchars : chars.all (!isStray ·)) : c ∉ chars := by
  intro hmem
  have hplain := List.all_eq_true.mp hchars c hmem
  rw [hc] at hplain
  cases hplain

theorem isStray_iff : isStray c ↔
    c.isAlpha = false ∧ c.isDigit = false ∧ marks.contains c = false := by
  rw [isStray, Bool.not_eq_true', isKnown, Bool.or_eq_false_iff, Bool.or_eq_false_iff, and_assoc]

theorem isNameStart_of_isStray (hc : isStray c) : isNameStart c = false := by
  rw [isNameStart, (isStray_iff.mp hc).1, Bool.false_or, beq_eq_false_iff_ne]
  exact ne_of_isStray hc (by decide)

theorem isHexDigit_of_isStray (hc : isStray c) : isHexDigit c = false := by
  obtain ⟨halpha, hdigit, _⟩ := isStray_iff.mp hc
  rw [← Bool.not_eq_true] at halpha ⊢
  intro hhex
  apply halpha
  simp only [isHexDigit, hdigit, Bool.false_or, Bool.or_eq_true, Bool.and_eq_true,
    decide_eq_true_eq, Char.le_def, UInt32.le_iff_toNat_le] at hhex
  simp only [Char.isAlpha, Char.isUpper, Char.isLower, Bool.or_eq_true, Bool.and_eq_true,
    decide_eq_true_eq, ge_iff_le, UInt32.le_iff_toNat_le]
  -- Without the digits, the letters up to `f` are left.
  change (97 ≤ c.val.toNat ∧ c.val.toNat ≤ 102) ∨ 65 ≤ c.val.toNat ∧ c.val.toNat ≤ 70 at hhex
  change (65 ≤ c.val.toNat ∧ c.val.toNat ≤ 90) ∨ 97 ≤ c.val.toNat ∧ c.val.toNat ≤ 122
  omega

theorem avoids_char (hc : isStray c) (hd : isStray d = false) : (Pattern.char d).avoids c := by
  simp [Pattern.char, Pattern.avoids, ne_of_isStray hc hd]

theorem avoids_anyOf (hc : isStray c) (hchars : chars.all (!isStray ·)) :
    (Pattern.anyOf chars).avoids c := by
  simpa [Pattern.anyOf, Pattern.avoids] using not_mem_of_isStray hc hchars

theorem avoids_word (hc : isStray c) (hchars : chars.all (!isStray ·)) :
    (Pattern.word chars).avoids c := by
  induction chars with
  | nil => rfl
  | cons d rest ih =>
      rw [List.all_cons, Bool.and_eq_true, Bool.not_eq_true'] at hchars
      rw [Pattern.word, Pattern.avoids, avoids_char hc hchars.1, ih hchars.2]
      rfl

end Avoids

-- Computed over all kinds: the fixed texts have no stray character, those of strings apart.
private theorem spelling?_plain : ∀ kind ∈ Kind.all, isLiteral kind = false →
    ∀ word ∈ kind.spelling?, word.toList.all (!isStray ·) = true := by
  decide

theorem avoids_of_isStray {c : Char} (hc : isStray c) {rule : Rule Kind} (hmem : rule ∈ rules)
    (hplain : isLiteral rule.kind = false) : rule.pattern.avoids c := by
  rcases List.mem_append.mp hmem with hfixed | hother
  · obtain ⟨word, hword, hpattern⟩ := mem_fixedRules_iff.mp hfixed
    rw [hpattern]
    exact avoids_word hc (spelling?_plain rule.kind (Kind.mem_all _) hplain word hword)
  · have hname := isNameStart_of_isStray hc
    have hdigit := (isStray_iff.mp hc).2.1
    have hhex := isHexDigit_of_isStray hc
    simp only [List.mem_cons, List.not_mem_nil, or_false] at hother
    rcases hother with rfl | rfl | rfl | rfl | rfl | rfl | rfl | rfl | rfl | rfl
    · simp (disch := decide) only [Pattern.avoids, avoids_word hc, Bool.and_self]
    · simp (disch := decide) only [decimal, exponent, digit, Pattern.plus, Pattern.optional,
        Pattern.avoids, avoids_word hc, avoids_char hc, avoids_anyOf hc, hdigit, Bool.not_false,
        Bool.and_self]
    · simp only [name, Pattern.avoids, hname, hdigit, Bool.or_self, Bool.not_false, Bool.and_self]
    · simp (disch := decide) only [integer, digit, Pattern.plus, Pattern.avoids, avoids_char hc,
        avoids_anyOf hc, hdigit, hhex, Bool.not_false, Bool.and_self]
    · simp (disch := decide) only [blankRun, Pattern.plus, Pattern.avoids, avoids_anyOf hc,
        Bool.and_self]
    · exact avoids_char hc (by decide)
    · cases hplain
    · cases hplain
    · cases hplain
    · cases hplain

theorem First.exists_stray {text : Text} {lexeme : Lexeme} (h : First text lexeme)
    (herror : lexeme.kind = .error) : ∃ c, lexeme.text = [c] ∧ isStray c := by
  cases h with
  | found hlongest =>
      obtain ⟨rule, hmem, _, hkind⟩ := hlongest.picks.covered
      exact absurd (hkind.trans herror) (rule_kind_ne_error rule hmem)
  | @unknown c rest htext hnone =>
      refine ⟨c, rfl, ?_⟩
      by_contra hknown
      rw [isStray, Bool.not_eq_true', Bool.not_eq_false] at hknown
      subst htext
      exact hnone 1 (Nat.succ_le_succ (Nat.zero_le _)) (covers_of_isKnown hknown)

theorem First.not_isStray {text : Text} {lexeme : Lexeme} (h : First text lexeme)
    (herror : lexeme.kind ≠ .error) (hplain : isLiteral lexeme.kind = false) {c : Char}
    (hmem : c ∈ lexeme.text) : isStray c = false := by
  cases h with
  | unknown htext hnone => exact absurd rfl herror
  | found hlongest =>
      obtain ⟨rule, hrule, hmatches, rfl⟩ := hlongest.picks.covered
      by_contra hstray
      rw [Bool.not_eq_false] at hstray
      exact Pattern.not_mem_of_avoids hmatches (avoids_of_isStray hstray hrule hplain) hmem

/-! ## Places in a text -/

/-- The characters of a text, each with all that stands before it. -/
def places (before : Text) : Text → List (Text × Char)
  | [] => []
  | c :: rest => (before, c) :: places (before ++ [c]) rest

theorem places_append (before s t : Text) :
    places before (s ++ t) = places before s ++ places (before ++ s) t := by
  induction s generalizing before with
  | nil => rw [List.append_nil]; rfl
  | cons c s ih =>
      rw [List.cons_append, places, places, ih, List.append_assoc, List.singleton_append,
        List.cons_append]

theorem exists_of_mem_places {before s : Text} {place : Text × Char}
    (h : place ∈ places before s) :
    ∃ front back, s = front ++ place.2 :: back ∧ place.1 = before ++ front := by
  induction s generalizing before with
  | nil => exact absurd h List.not_mem_nil
  | cons c s ih =>
      rcases List.mem_cons.mp h with rfl | hlater
      · exact ⟨[], s, rfl, (List.append_nil before).symm⟩
      · obtain ⟨front, back, rfl, hbefore⟩ := ih hlater
        refine ⟨c :: front, back, rfl, ?_⟩
        rw [hbefore, List.append_assoc, List.singleton_append]

def isOutside (tokens : TokenList Kind) (offset : Nat) : Bool :=
  !tokens.any fun token => isLiteral token.kind && token.span.holdsAfter offset

def isStrayAt (tokens : TokenList Kind) (place : Text × Char) : Bool :=
  isStray place.2 && isOutside tokens place.1.byteSize

def strays (text : Text) (tokens : TokenList Kind) : List (Text × Char) :=
  (places [] text).filter (isStrayAt tokens)

/-- What is to be said about a stray character: its line is one more than the newlines before it,
and its column one more than the bytes between it and the start of the line. -/
def strayFields (place : Text × Char) : String × Nat × Nat :=
  ("token recognition error at: '" ++ String.ofList (Text.escapeChar ['\'', '"'] place.2) ++ "'",
    place.1.count '\n' + 1, place.1.lastLine.byteSize + 1)

/-! ## Tokens -/

theorem Stands.holdsAfter {before : Text} {lexeme : Lexeme} {token : Token Kind}
    (h : Stands before lexeme token) {place : Text × Char}
    (hplace : place ∈ places before lexeme.text) : token.span.holdsAfter place.1.byteSize := by
  obtain ⟨front, back, htext, hbefore⟩ := exists_of_mem_places hplace
  have hpos := place.2.utf8Size_pos
  rw [Span.holdsAfter_iff, h.start, h.stop, htext, hbefore]
  simp only [Text.byteSize_append, Text.byteSize_cons]
  omega

/-- Only the token that holds the byte after an offset decides. -/
theorem isOutside_eq {text : Text} {document : Document Kind}
    (h : Document.protobuf text = .ok document) {token : Token Kind}
    (hmem : token ∈ document.tokens) {offset : Nat} (hholds : token.span.holdsAfter offset) :
    isOutside document.tokens offset = !isLiteral token.kind := by
  have hunique : ∀ other ∈ document.tokens, other.span.holdsAfter offset → other = token := by
    intro other hother hholds'
    have hordered := ordered_of_protobuf h
    obtain ⟨hstart, hstop⟩ := Span.holdsAfter_iff.mp hholds
    obtain ⟨hstart', hstop'⟩ := Span.holdsAfter_iff.mp hholds'
    rw [← hordered.tokenAfter_of_mem hother hstart' hstop',
      hordered.tokenAfter_of_mem hmem hstart hstop]
  rw [isOutside, Bool.not_inj_iff, Bool.eq_iff_iff, Array.any_eq_true']
  simp only [Bool.and_eq_true]
  constructor
  · rintro ⟨other, hother, hliteral, hholds'⟩
    rw [← hunique other hother hholds']
    exact hliteral
  · exact fun hliteral => ⟨token, hmem, hliteral, hholds⟩

theorem First.filter_places {text before : Text} {lexeme : Lexeme} {token : Token Kind}
    {tokens : TokenList Kind} (h : First text lexeme) (hstands : Stands before lexeme token)
    (houtside : ∀ offset, token.span.holdsAfter offset →
      isOutside tokens offset = !isLiteral token.kind) :
    ((places before lexeme.text).filter (isStrayAt tokens)).map strayFields =
      ([(lexeme, token)].filter (·.1.kind == .error)).map reportedFields := by
  rw [hstands.kind] at houtside
  by_cases herror : lexeme.kind = .error
  · obtain ⟨c, htext, hstray⟩ := h.exists_stray herror
    have hplaces : places before lexeme.text = [(before, c)] := by rw [htext]; rfl
    have hat : isStrayAt tokens (before, c) = true := by
      have hholds := hstands.holdsAfter (hplaces ▸ List.mem_singleton_self _)
      rw [isStrayAt, houtside _ hholds, hstray, herror]
      rfl
    have hfields : strayFields (before, c) = reportedFields (lexeme, token) := by
      have hmessage := unknownText_singleton c
      rw [← htext] at hmessage
      refine Prod.ext hmessage.symm (Prod.ext hstands.line.symm ?_)
      exact congrArg (· + 1) hstands.column.symm
    rw [hplaces, List.filter_cons_of_pos hat, List.filter_cons_of_pos (by simp [herror])]
    simp only [List.filter_nil, List.map_cons, List.map_nil, hfields]
  · have hnone : (places before lexeme.text).filter (isStrayAt tokens) = [] := by
      rw [List.filter_eq_nil_iff]
      intro place hplace
      obtain ⟨front, back, htext, _⟩ := exists_of_mem_places hplace
      rw [isStrayAt, houtside _ (hstands.holdsAfter hplace)]
      cases hliteral : isLiteral lexeme.kind with
      | true => simp
      | false => simp [h.not_isStray herror hliteral (c := place.2) (by simp [htext])]
    rw [hnone, List.filter_cons_of_neg (by simp [herror])]
    rfl

/-- The lexemes that are errors are the stray characters, one by one. -/
theorem Placed.filter_places {all : TokenList Kind} {before : Text} {lexemes : List Lexeme}
    {tokens : List (Token Kind)} (h : Placed before lexemes tokens)
    (hlexemes : Protobuf.lexemes (joined lexemes) = lexemes)
    (houtside : ∀ token ∈ tokens, ∀ offset, token.span.holdsAfter offset →
      isOutside all offset = !isLiteral token.kind) :
    ((places before (joined lexemes)).filter (isStrayAt all)).map strayFields =
      ((lexemes.zip tokens).filter (·.1.kind == .error)).map reportedFields := by
  induction h with
  | sentinel _ => rfl
  | @lexeme before lexeme lexemes token tokens hstands _ ih =>
      rw [List.forall_mem_cons] at houtside
      have hfirst := first_of_lexemes_eq_cons hlexemes
      have hback := (lexemes_append (hlexemes.trans (List.singleton_append).symm)).2
      rw [joined_cons, places_append, List.filter_append, List.map_append,
        hfirst.filter_places hstands houtside.1, ih hback houtside.2, ← List.map_append,
        ← List.filter_append]
      rfl

/-- The place of a token can be reported: there is a column after its own. -/
theorem reportable_of_tokenize {text : Text} {tokens : TokenList Kind}
    (h : tokenize text = .ok tokens) (hsize : text.byteSize + 1 < Word.bound) {token : Token Kind}
    (hmem : token ∈ tokens) : 0 < token.line ∧ token.column + 1 < Word.bound := by
  obtain ⟨before, after, lexeme, htext, hstands⟩ := exists_stands_of_mem h hmem
  have hcolumn := Text.byteSize_lastLine_le before
  rw [htext, Text.byteSize_append] at hsize
  rw [hstands.line, hstands.column]
  omega

theorem tokenizeReporting_adds_strays (text : Text) (hsize : text.byteSize < 4294967295)
    (report : Report) :
    ∃ tokens added, tokenize text = .ok tokens ∧
      tokenizeReporting text report = .ok (tokens, ⟨report.diagnostics ++ added⟩) ∧
      added.toList.map Diagnostic.fields = (strays text tokens).map strayFields := by
  have hbound : text.byteSize + 1 < Word.bound := Nat.succ_lt_succ hsize
  obtain ⟨tokens, document, htokens, _, hdocument, _⟩ := exists_document hbound
  obtain ⟨hdocumentTokens, _⟩ := Document.protobuf_eq_ok_iff.mp hdocument
  obtain rfl : document.tokens = tokens := Except.ok.inj (hdocumentTokens.symm.trans htokens)
  have hstrays := (placed_of_tokenize htokens).filter_places
    (congrArg lexemes (joined_lexemes text))
    fun token hmem _ => isOutside_eq hdocument (Array.mem_toList_iff.mp hmem)
  have hreportable : ∀ entry ∈ ((lexemes text).zip document.tokens.toList).filter
      (·.1.kind == .error), 0 < entry.2.line ∧ entry.2.column + 1 < Word.bound := by
    intro entry hentry
    have htoken := (List.of_mem_zip (List.mem_of_mem_filter hentry)).2
    exact reportable_of_tokenize htokens hbound (Array.mem_toList_iff.mp htoken)
  obtain ⟨added, hreport, hadded⟩ := foldlM_addAt hreportable report
  refine ⟨document.tokens, added, htokens, ?_, ?_⟩
  · rw [tokenizeReporting, htokens]
    change (reportErrors report _ >>= _) = _
    rw [reportErrors, hreport]
    rfl
  · rw [hadded, ← hstrays, joined_lexemes, strays]

-- Two stray characters on one line, after one that stands in a string.
theorem tokenizeReporting_adds_strays_slash :
    Text.byteSize ['"', '#', '"', '\n', 'é', '/', 'a'] < 4294967295 ∧
    ∃ tokens added, tokenize ['"', '#', '"', '\n', 'é', '/', 'a'] = .ok tokens ∧
      tokenizeReporting ['"', '#', '"', '\n', 'é', '/', 'a']
          ⟨#[⟨"earlier", 7, 9, by decide, by decide, by decide⟩]⟩ =
        .ok (tokens, ⟨#[⟨"earlier", 7, 9, by decide, by decide, by decide⟩] ++ added⟩) ∧
      added.toList.map Diagnostic.fields =
        [("token recognition error at: 'é'", 2, 1), ("token recognition error at: '/'", 2, 3)] := by
  have hsize : Text.byteSize ['"', '#', '"', '\n', 'é', '/', 'a'] < 4294967295 := by decide
  refine ⟨hsize, ?_⟩
  obtain ⟨tokens, added, htokens, hreport, hadded⟩ := tokenizeReporting_adds_strays
    ['"', '#', '"', '\n', 'é', '/', 'a'] hsize
    ⟨#[⟨"earlier", 7, 9, by decide, by decide, by decide⟩]⟩
  have hvalue : tokenize ['"', '#', '"', '\n', 'é', '/', 'a'] = .ok
      #[⟨.strLit, ⟨0, 3, by decide, by decide⟩, 1, 0⟩,
        ⟨.newline, ⟨3, 4, by decide, by decide⟩, 1, 3⟩,
        ⟨.error, ⟨4, 6, by decide, by decide⟩, 2, 0⟩,
        ⟨.error, ⟨6, 7, by decide, by decide⟩, 2, 2⟩,
        ⟨.ident, ⟨7, 8, by decide, by decide⟩, 2, 3⟩,
        ⟨.eof, ⟨8, 8, by decide, by decide⟩, 2, 4⟩] := by cbv
  refine ⟨tokens, added, htokens, hreport, hadded.trans ?_⟩
  rw [← Except.ok.inj (hvalue.symm.trans htokens)]
  decide +kernel

end Protobuf

end Keystroke
