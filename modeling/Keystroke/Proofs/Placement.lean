import Mathlib
import Keystroke.Proofs.LongestMatch
import Keystroke.Proofs.Text
import Keystroke.Protobuf.Tokenize

/-!
# Lexemes and the places of their tokens

`First` says what the first lexeme of a text has to be, and `lexemes_append` that every lexeme of a
text is the first one of what is left when it is reached. `Placed` says where the tokens of some
lexemes stand: `placed_of_tokenize` that `tokenize` puts them there, `exists_tokenize_iff` for which
texts nothing overflows on the way, and `tokenize_eq_error_iff` what fails for the others.
-/

namespace Keystroke.Protobuf

/-! ## The first lexeme -/

/-- The first lexeme of a text: the longest match of the rules or, where no rule matches, one
character. -/
inductive First (text : Text) : Lexeme → Prop where
  | found {kind : Kind} {n : Nat} (h : Rule.Longest rules text kind n) :
      First text ⟨kind, text.take n⟩
  | unknown {c : Char} {rest : Text} (htext : text = c :: rest)
      (h : ∀ m ≤ text.length, ¬ Rule.Covers rules (text.take m)) : First text ⟨.error, [c]⟩

theorem not_covers_nil : ¬ Rule.Covers rules [] :=
  Rule.accepted?_eq_none_iff.mp (by decide)

theorem first_nextExtent (c : Char) (rest : Text) :
    First (c :: rest)
      ⟨(nextExtent (c :: rest)).1, c :: rest.take (nextExtent (c :: rest)).2⟩ := by
  unfold nextExtent
  cases hfound : Rule.longest? rules (c :: rest) with
  | none => exact .unknown rfl (Rule.longest?_eq_none_iff.mp hfound)
  | some found =>
      obtain ⟨kind, n⟩ := found
      have hlongest := Rule.longest?_eq_some_iff.mp hfound
      cases n with
      | zero =>
          -- No rule describes the empty text.
          exact absurd (Rule.covers_iff_picks.mpr ⟨kind, hlongest.picks⟩) not_covers_nil
      | succ n => exact .found hlongest

theorem First.ne_nil {text : Text} {lexeme : Lexeme} (h : First text lexeme) :
    lexeme.text ≠ [] := by
  cases h with
  | unknown htext hnone => exact List.cons_ne_nil _ _
  | @found kind n hlongest =>
      intro hnil
      have hpicks := hlongest.picks
      rw [show text.take n = [] from hnil] at hpicks
      exact not_covers_nil (Rule.covers_iff_picks.mpr ⟨kind, hpicks⟩)

private theorem rule_kind_ne_eof : ∀ rule ∈ rules, rule.kind ≠ .eof := by
  decide

theorem First.kind_ne_eof {text : Text} {lexeme : Lexeme} (h : First text lexeme) :
    lexeme.kind ≠ .eof := by
  cases h with
  | unknown htext hnone => exact Kind.noConfusion
  | found hlongest =>
      obtain ⟨rule, hmem, _, hkind⟩ := hlongest.picks.covered
      exact fun heof => rule_kind_ne_eof rule hmem (hkind.trans heof)

/-- A start of a text that some rule describes, but no longer one does, is its first lexeme. -/
theorem First.eq_of_longest {s after : Text} {lexeme : Lexeme} (h : First (s ++ after) lexeme)
    (hcovers : Rule.Covers rules s)
    (hmaximal : ∀ more rest, after = more ++ rest → more ≠ [] → ¬ Rule.Covers rules (s ++ more)) :
    lexeme.text = s ∧ Rule.Picks rules s lexeme.kind := by
  have htake : (s ++ after).take s.length = s := List.take_left
  have hlength : s.length ≤ (s ++ after).length := by
    rw [List.length_append]
    omega
  cases h with
  | unknown htext hnone => exact absurd (htake.symm ▸ hcovers) (hnone s.length hlength)
  | @found kind n hlongest =>
      have hge : s.length ≤ n := Nat.le_of_not_lt fun hlt =>
        hlongest.maximal s.length hlt hlength (htake.symm ▸ hcovers)
      have htaken : (s ++ after).take n = s ++ after.take (n - s.length) := by
        rw [List.take_append, List.take_of_length_le hge]
      have hnil : after.take (n - s.length) = [] := by
        by_contra hne
        apply hmaximal _ _ (List.take_append_drop (n - s.length) after).symm hne
        rw [← htaken]
        exact Rule.covers_iff_picks.mpr ⟨kind, hlongest.picks⟩
      rw [hnil, List.append_nil] at htaken
      have hpicks := hlongest.picks
      rw [htaken] at hpicks
      exact ⟨htaken, hpicks⟩

/-! ## All lexemes -/

def joined (lexemes : List Lexeme) : Text := (lexemes.map (·.text)).flatten

@[simp] theorem joined_nil : joined [] = [] := rfl

@[simp] theorem joined_cons (lexeme : Lexeme) (rest : List Lexeme) :
    joined (lexeme :: rest) = lexeme.text ++ joined rest := rfl

@[simp] theorem joined_append (front back : List Lexeme) :
    joined (front ++ back) = joined front ++ joined back := by
  rw [joined, List.map_append, List.flatten_append]
  rfl

@[simp] theorem joined_lexemes (text : Text) : joined (lexemes text) = text :=
  flatten_lexemes text

/-- The lexemes from one of them on are those of the text from there on. -/
theorem lexemes_append {text : Text} {front back : List Lexeme}
    (h : lexemes text = front ++ back) :
    text = joined front ++ joined back ∧ lexemes (joined back) = back := by
  have htext : text = joined front ++ joined back := by
    rw [← joined_append, ← h, joined_lexemes]
  refine ⟨htext, ?_⟩
  induction front generalizing text with
  | nil =>
      rw [joined_nil, List.nil_append] at htext
      rw [← htext]
      exact h
  | cons lexeme front ih =>
      cases text with
      | nil =>
          rw [lexemes_nil] at h
          exact absurd h (by simp)
      | cons c rest =>
          rw [lexemes_cons, List.cons_append, List.cons.injEq] at h
          apply ih h.2
          rw [← joined_append, ← h.2, joined_lexemes]

theorem first_of_lexemes_eq_cons {text : Text} {lexeme : Lexeme} {back : List Lexeme}
    (h : lexemes text = lexeme :: back) : First text lexeme := by
  cases text with
  | nil =>
      rw [lexemes_nil] at h
      exact absurd h (by simp)
  | cons c rest =>
      rw [lexemes_cons, List.cons.injEq] at h
      rw [← h.1]
      exact first_nextExtent c rest

/-! ## Positions -/

/-- A text whose offsets and line numbers are all 32-bit numbers. -/
structure Readable (text : Text) : Prop where
  size_lt : text.byteSize < Word.bound
  lines_lt : text.count '\n' + 1 < Word.bound

theorem Readable.of_sublist {part text : Text} (h : Readable text) (hpart : part.Sublist text) :
    Readable part := by
  have hsize := Text.byteSize_le_of_sublist hpart
  have hlines := hpart.count_le '\n'
  have hsizeLt := h.size_lt
  have hlinesLt := h.lines_lt
  exact ⟨by omega, by omega⟩

theorem Readable.of_byteSize {text : Text} (hsize : text.byteSize + 1 < Word.bound) :
    Readable text := by
  have hlines := Text.count_newline_le_byteSize text
  exact ⟨by omega, by omega⟩

namespace Position

def after (before : Text) : Position :=
  ⟨before.byteSize, before.count '\n' + 1, before.byteSize - before.lastLine.byteSize⟩

theorem start_eq_after : start = after [] := rfl

/-- What follows the last newline does not depend on the text before that newline. -/
theorem after_append (before text : Text) :
    after (before ++ text) =
      ⟨before.byteSize + text.byteSize, before.count '\n' + text.count '\n' + 1,
        if text.count '\n' = 0 then before.byteSize - before.lastLine.byteSize
        else before.byteSize + (text.byteSize - text.lastLine.byteSize)⟩ := by
  unfold after
  rw [Text.byteSize_append, List.count_append]
  congr 1
  have hbefore := Text.byteSize_lastLine_le before
  have htext := Text.byteSize_lastLine_le text
  split
  next hnone =>
    rw [Text.lastLine_append_of_not_mem before (List.count_eq_zero.mp hnone),
      Text.byteSize_append]
    omega
  next hsome =>
    rw [Text.lastLine_append_of_mem before (List.count_pos_iff.mp (Nat.pos_of_ne_zero hsome))]
    omega

theorem advance_eq_ok_iff {position next : Position} {text : Text} :
    position.advance text = .ok next ↔
      next.offset = position.offset + text.byteSize ∧
        ((text.count '\n' = 0 ∧ next.line = position.line ∧
            next.lineStart = position.lineStart) ∨
          (text.count '\n' ≠ 0 ∧ text.count '\n' < Word.bound ∧
            (next.line = position.line + text.count '\n' ∧ next.line < Word.bound) ∧
            (next.lineStart = position.offset + (text.byteSize - text.lastLine.byteSize) ∧
              next.lineStart < Word.bound))) := by
  obtain ⟨offset, line, lineStart⟩ := next
  simp only [advance]
  by_cases hnone : text.count '\n' = 0
  · rw [if_pos hnone]
    simp only [Except.ok.injEq, mk.injEq, hnone, true_and, ne_eq, not_true_eq_false, false_and,
      or_false, eq_comm]
  · rw [if_neg hnone]
    by_cases hlong : Word.bound ≤ text.count '\n'
    · rw [if_pos hlong]
      simp only [reduceCtorEq, false_iff]
      omega
    · rw [if_neg hlong]
      simp only [Fault.bind_eq_ok_iff, Word.add_eq_ok_iff, Except.ok.injEq, mk.injEq]
      refine ⟨fun ⟨l, hl, ls, hls, ho, hline, hstart⟩ => ?_, fun ⟨ho, h⟩ => ?_⟩
      · subst hline hstart
        exact ⟨ho.symm, .inr ⟨hnone, Nat.lt_of_not_le hlong, hl, hls⟩⟩
      · rcases h with ⟨hzero, _⟩ | ⟨_, _, hl, hls⟩
        · exact absurd hzero hnone
        · exact ⟨line, hl, lineStart, hls, ho.symm, rfl, rfl⟩

theorem eq_after_of_advance {before text : Text} {next : Position}
    (h : (after before).advance text = .ok next) : next = after (before ++ text) := by
  obtain ⟨hoffset, hlines⟩ := advance_eq_ok_iff.mp h
  obtain ⟨offset, line, lineStart⟩ := next
  simp only [after] at hoffset hlines
  rw [after_append, mk.injEq]
  refine ⟨hoffset, ?_⟩
  split <;> omega

theorem advance_after {before text : Text} (h : Readable (before ++ text)) :
    (after before).advance text = .ok (after (before ++ text)) := by
  have hsize := h.size_lt
  have hlines := h.lines_lt
  rw [Text.byteSize_append] at hsize
  rw [List.count_append] at hlines
  rw [advance_eq_ok_iff, after_append]
  refine ⟨rfl, ?_⟩
  simp only [after]
  split <;> omega

theorem lines_lt_of_advance {before text : Text} {next : Position}
    (h : (after before).advance text = .ok next) (hbefore : before.count '\n' + 1 < Word.bound) :
    (before ++ text).count '\n' + 1 < Word.bound := by
  obtain ⟨_, hlines⟩ := advance_eq_ok_iff.mp h
  simp only [after] at hlines
  rw [List.count_append]
  omega

end Position

/-! ## Tokens -/

structure Stands (before : Text) (lexeme : Lexeme) (token : Token Kind) : Prop where
  kind : token.kind = lexeme.kind
  start : token.span.start = before.byteSize
  stop : token.span.stop = (before ++ lexeme.text).byteSize
  line : token.line = before.count '\n' + 1
  column : token.column = before.lastLine.byteSize

/-- Tokens stand for lexemes one by one, and an empty last one for the end of the text. -/
inductive Placed : Text → List Lexeme → List (Token Kind) → Prop where
  | sentinel {before : Text} {token : Token Kind} (h : Stands before ⟨.eof, []⟩ token) :
      Placed before [] [token]
  | lexeme {before : Text} {lexeme : Lexeme} {lexemes : List Lexeme} {token : Token Kind}
      {tokens : List (Token Kind)} (h : Stands before lexeme token)
      (rest : Placed (before ++ lexeme.text) lexemes tokens) :
      Placed before (lexeme :: lexemes) (token :: tokens)

theorem token_after_eq_ok_iff {before text : Text} {kind : Kind} {token : Token Kind} :
    (Position.after before).token kind text = .ok token ↔ Stands before ⟨kind, text⟩ token := by
  have hline := Text.byteSize_lastLine_le before
  simp only [Position.token, Fault.bind_eq_ok_iff, Span.ofRange_eq_ok_iff, Word.sub_eq_ok_iff,
    Position.after]
  refine ⟨fun ⟨span, ⟨hstart, hstop⟩, column, hcolumn, htoken⟩ => ?_, fun h => ?_⟩
  · cases htoken
    exact ⟨rfl, hstart, by rw [Text.byteSize_append]; exact hstop, rfl, by simp only; omega⟩
  · have hstop := h.stop
    have hstart := h.start
    have hcolumn := h.column
    have hkind : token.kind = kind := h.kind
    rw [Text.byteSize_append] at hstop
    refine ⟨token.span, ⟨hstart, hstop⟩, token.column, by omega, ?_⟩
    rw [← h.line, ← hkind]

theorem placed_of_place {before : Text} {lexemes : List Lexeme} {tokens : List (Token Kind)}
    (h : place (Position.after before) lexemes = .ok tokens) : Placed before lexemes tokens := by
  induction lexemes generalizing before tokens with
  | nil =>
      simp only [place, Fault.bind_eq_ok_iff, token_after_eq_ok_iff] at h
      obtain ⟨token, htoken, hresult⟩ := h
      cases hresult
      exact .sentinel htoken
  | cons lexeme lexemes ih =>
      simp only [place, Fault.bind_eq_ok_iff, token_after_eq_ok_iff] at h
      obtain ⟨token, htoken, next, hnext, rest, hrest, hresult⟩ := h
      cases hresult
      rw [Position.eq_after_of_advance hnext] at hrest
      exact .lexeme htoken (ih hrest)

theorem exists_token_after {before text : Text} (kind : Kind)
    (hsize : (before ++ text).byteSize < Word.bound) :
    ∃ token, (Position.after before).token kind text = .ok token := by
  have hbefore : before.byteSize < Word.bound := by
    rw [Text.byteSize_append] at hsize
    omega
  exact ⟨⟨kind, ⟨before.byteSize, (before ++ text).byteSize, hbefore, hsize⟩,
    before.count '\n' + 1, before.lastLine.byteSize⟩,
    token_after_eq_ok_iff.mpr ⟨rfl, rfl, rfl, rfl, rfl⟩⟩

theorem exists_place {before : Text} {lexemes : List Lexeme}
    (h : Readable (before ++ joined lexemes)) :
    ∃ tokens, place (Position.after before) lexemes = .ok tokens := by
  induction lexemes generalizing before with
  | nil =>
      rw [joined_nil] at h
      obtain ⟨token, htoken⟩ := exists_token_after .eof h.size_lt
      exact ⟨[token], by rw [place, htoken]; rfl⟩
  | cons lexeme lexemes ih =>
      rw [joined_cons, ← List.append_assoc] at h
      have hhead := h.of_sublist (List.sublist_append_left (before ++ lexeme.text) (joined lexemes))
      obtain ⟨token, htoken⟩ := exists_token_after lexeme.kind hhead.size_lt
      obtain ⟨tokens, htokens⟩ := ih h
      refine ⟨token :: tokens, ?_⟩
      rw [place, htoken, Position.advance_after hhead]
      show (place (Position.after (before ++ lexeme.text)) lexemes >>= fun rest =>
        .ok (token :: rest)) = _
      rw [htokens]
      rfl

theorem readable_of_place {before : Text} {lexemes : List Lexeme} {tokens : List (Token Kind)}
    (h : place (Position.after before) lexemes = .ok tokens)
    (hbefore : before.count '\n' + 1 < Word.bound) : Readable (before ++ joined lexemes) := by
  induction lexemes generalizing before tokens with
  | nil =>
      simp only [place, Fault.bind_eq_ok_iff, token_after_eq_ok_iff] at h
      obtain ⟨token, htoken, _⟩ := h
      -- The end of the text is the stop of its last token.
      have hstop := token.span.stop_lt
      rw [htoken.stop] at hstop
      rw [joined_nil]
      exact ⟨hstop, by rw [List.append_nil]; exact hbefore⟩
  | cons lexeme lexemes ih =>
      simp only [place, Fault.bind_eq_ok_iff] at h
      obtain ⟨token, _, next, hnext, rest, hrest, _⟩ := h
      rw [Position.eq_after_of_advance hnext] at hrest
      rw [joined_cons, ← List.append_assoc]
      exact ih hrest (Position.lines_lt_of_advance hnext hbefore)

theorem placed_of_tokenize {text : Text} {tokens : TokenList Kind}
    (h : tokenize text = .ok tokens) : Placed [] (lexemes text) tokens.toList := by
  simp only [tokenize, Fault.bind_eq_ok_iff, Position.start_eq_after] at h
  obtain ⟨placed, hplaced, hresult⟩ := h
  cases hresult
  exact placed_of_place hplaced

/-- A text has tokens just when its offsets and line numbers fit. -/
theorem exists_tokenize_iff {text : Text} :
    (∃ tokens, tokenize text = .ok tokens) ↔ Readable text := by
  have htext : [] ++ joined (lexemes text) = text := by
    rw [List.nil_append, joined_lexemes]
  constructor
  · rintro ⟨tokens, h⟩
    simp only [tokenize, Fault.bind_eq_ok_iff, Position.start_eq_after] at h
    obtain ⟨placed, hplaced, _⟩ := h
    rw [← htext]
    exact readable_of_place hplaced (by decide)
  · intro h
    rw [← htext] at h
    obtain ⟨tokens, htokens⟩ := exists_place h
    exact ⟨tokens.toArray, by rw [tokenize, Position.start_eq_after, htokens]; rfl⟩

/-! ## Faults -/

/-- The fault of reaching the end of a text that is too large or has too many lines. The offset is
looked at before the line. -/
inductive Overruns (text : Text) : Fault → Prop where
  | size (h : Word.bound ≤ text.byteSize) : Overruns text (.spanStopTooLarge text.byteSize)
  | lines (hsize : text.byteSize < Word.bound) (hlines : Word.bound ≤ text.count '\n' + 1) :
      Overruns text .addOverflow

theorem exists_overruns_of_not_readable {text : Text} (h : ¬ Readable text) :
    ∃ fault, Overruns text fault := by
  by_cases hsize : text.byteSize < Word.bound
  · exact ⟨_, .lines hsize (Nat.le_of_not_lt fun hlines => h ⟨hsize, hlines⟩)⟩
  · exact ⟨_, .size (Nat.le_of_not_lt hsize)⟩

namespace Position

theorem token_after_eq_error {before text : Text} (kind : Kind) (hbefore : Readable before)
    (hsize : Word.bound ≤ (before ++ text).byteSize) :
    (after before).token kind text = .error (.spanStopTooLarge (before ++ text).byteSize) := by
  have hspan : Span.ofRange before.byteSize (before.byteSize + text.byteSize) =
      .error (.spanStopTooLarge (before ++ text).byteSize) := by
    rw [Text.byteSize_append] at hsize ⊢
    rw [Span.ofRange, dif_pos hbefore.size_lt, dif_neg (Nat.not_lt.mpr hsize)]
  rw [token, Fault.bind_eq_error_iff]
  exact .inl hspan

theorem advance_after_eq_error {before text : Text} (hbefore : Readable before)
    (hsize : (before ++ text).byteSize < Word.bound)
    (hlines : Word.bound ≤ (before ++ text).count '\n' + 1) :
    (after before).advance text = .error .addOverflow := by
  have hfits := hbefore.lines_lt
  have hcount := Text.count_newline_le_byteSize text
  rw [Text.byteSize_append] at hsize
  rw [List.count_append] at hlines
  -- The piece is short enough for its own newlines to be counted: it is the sum that is too large.
  have hsome : text.count '\n' ≠ 0 := by omega
  have hshort : ¬ Word.bound ≤ text.count '\n' := by omega
  have hline : Word.add (after before).line (text.count '\n') = .error .addOverflow := by
    have hlong : ¬ (after before).line + text.count '\n' < Word.bound := by
      simp only [after]
      omega
    rw [Word.add, if_neg hlong]
  simp only [advance]
  rw [if_neg hsome, if_neg hshort, Fault.bind_eq_error_iff]
  exact .inl hline

end Position

/-- The first lexeme that cannot be placed decides what fails. -/
theorem place_eq_error {before : Text} {front back : List Lexeme} {lexeme : Lexeme} {fault : Fault}
    (hbefore : Readable (before ++ joined front))
    (h : Overruns (before ++ joined front ++ lexeme.text) fault) :
    place (Position.after before) (front ++ lexeme :: back) = .error fault := by
  induction front generalizing before with
  | nil =>
      rw [joined_nil, List.append_nil] at hbefore h
      rw [List.nil_append, place, Fault.bind_eq_error_iff]
      cases h with
      | size hsize => exact .inl (Position.token_after_eq_error lexeme.kind hbefore hsize)
      | lines hsize hlines =>
          obtain ⟨token, htoken⟩ := exists_token_after lexeme.kind hsize
          refine .inr ⟨token, htoken, ?_⟩
          rw [Fault.bind_eq_error_iff]
          exact .inl (Position.advance_after_eq_error hbefore hsize hlines)
  | cons head front ih =>
      rw [joined_cons, ← List.append_assoc] at hbefore h
      have hhead := hbefore.of_sublist (List.sublist_append_left (before ++ head.text) (joined front))
      obtain ⟨token, htoken⟩ := exists_token_after head.kind hhead.size_lt
      rw [List.cons_append, place, Fault.bind_eq_error_iff]
      refine .inr ⟨token, htoken, ?_⟩
      rw [Fault.bind_eq_error_iff]
      refine .inr ⟨_, Position.advance_after hhead, ?_⟩
      rw [Fault.bind_eq_error_iff]
      exact .inl (ih hbefore h)

/-- Among lexemes that cannot all be placed there is a first one that cannot. -/
theorem exists_overruns {before : Text} {lexemes : List Lexeme} (hbefore : Readable before)
    (h : ¬ Readable (before ++ joined lexemes)) :
    ∃ front lexeme back fault, lexemes = front ++ lexeme :: back ∧
      Readable (before ++ joined front) ∧
      Overruns (before ++ joined front ++ lexeme.text) fault := by
  induction lexemes generalizing before with
  | nil =>
      rw [joined_nil, List.append_nil] at h
      exact absurd hbefore h
  | cons head rest ih =>
      by_cases hhead : Readable (before ++ head.text)
      · rw [joined_cons, ← List.append_assoc] at h
        obtain ⟨front, lexeme, back, fault, rfl, hfront, hoverruns⟩ := ih hhead h
        refine ⟨head :: front, lexeme, back, fault, rfl, ?_⟩
        rw [joined_cons, ← List.append_assoc]
        exact ⟨hfront, hoverruns⟩
      · obtain ⟨fault, hoverruns⟩ := exists_overruns_of_not_readable hhead
        refine ⟨[], head, rest, fault, rfl, ?_⟩
        rw [joined_nil, List.append_nil]
        exact ⟨hbefore, hoverruns⟩

theorem tokenize_eq_error {text : Text} {front back : List Lexeme} {lexeme : Lexeme} {fault : Fault}
    (hsplit : lexemes text = front ++ lexeme :: back) (hfront : Readable (joined front))
    (h : Overruns (joined front ++ lexeme.text) fault) : tokenize text = .error fault := by
  have hplace : place (Position.after []) (lexemes text) = .error fault := by
    rw [hsplit]
    exact place_eq_error hfront h
  rw [tokenize, Position.start_eq_after, hplace]
  rfl

theorem tokenize_eq_error_iff {text : Text} {fault : Fault} :
    tokenize text = .error fault ↔
      ∃ front lexeme back, lexemes text = front ++ lexeme :: back ∧ Readable (joined front) ∧
        Overruns (joined front ++ lexeme.text) fault := by
  constructor
  · intro herror
    have hnot : ¬ Readable ([] ++ joined (lexemes text)) := by
      rw [List.nil_append, joined_lexemes]
      intro hreadable
      obtain ⟨tokens, htokens⟩ := exists_tokenize_iff.mpr hreadable
      rw [htokens] at herror
      cases herror
    obtain ⟨front, lexeme, back, other, hsplit, hfront, hoverruns⟩ :=
      exists_overruns ⟨by decide, by decide⟩ hnot
    -- Some lexeme is the first to overrun, and the fault is the one it gives.
    have hother := tokenize_eq_error hsplit hfront hoverruns
    rw [herror] at hother
    cases hother
    exact ⟨front, lexeme, back, hsplit, hfront, hoverruns⟩
  · rintro ⟨front, lexeme, back, hsplit, hfront, hoverruns⟩
    exact tokenize_eq_error hsplit hfront hoverruns

theorem tokenize_ne_subtractOverflow (text : Text) :
    tokenize text ≠ .error .subtractOverflow := by
  intro h
  obtain ⟨front, lexeme, back, _, _, hoverruns⟩ := tokenize_eq_error_iff.mp h
  cases hoverruns

end Keystroke.Protobuf
