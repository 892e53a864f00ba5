import Mathlib
import Keystroke.Proofs.CaretContext
import Keystroke.Proofs.Strokes

/-!
# Typing the closing quote of a string

A string takes its backslashes in pairs, from the left, so that an even number of them stands before
its closing quote (`StringBody.even_backslashRun`). A typed quote looks at one character only. It
types over the closing quote if no backslash stands before it, and is inserted beside it otherwise
(`pair_at_closing_quote`), although a closing quote is never escaped.
-/

namespace Keystroke.Protobuf

/-! ## Bodies of strings -/

inductive StringBody (quote : Char) : Text → Prop where
  | nil : StringBody quote []
  | plain {c : Char} {body : Text} (hc : c ∉ [quote, '\\', '\n', '\r'])
      (h : StringBody quote body) : StringBody quote (c :: body)
  | escape {c : Char} {body : Text} (hc : isBreak c = false)
      (h : StringBody quote body) : StringBody quote ('\\' :: c :: body)

theorem QuotedClosed.exists_body {quote : Char} {s : Text} (h : QuotedClosed quote s) :
    ∃ body, s = body ++ [quote] ∧ StringBody quote body := by
  cases s with
  | nil => exact absurd h (not_quotedClosed_nil quote)
  | cons c s =>
      rcases quotedClosed_cons_iff.mp h with ⟨hc, h⟩ | ⟨hc, d, rest, hs, hd, h⟩ | ⟨hc, hs⟩
      · obtain ⟨body, hbody, hitems⟩ := exists_body h
        exact ⟨c :: body, by rw [hbody, List.cons_append], .plain hc hitems⟩
      · obtain ⟨body, hbody, hitems⟩ := exists_body h
        exact ⟨'\\' :: d :: body, by rw [hc, hs, hbody, List.cons_append, List.cons_append],
          .escape hd hitems⟩
      · exact ⟨[], by rw [hc, hs, List.nil_append], .nil⟩
termination_by s.length

theorem isString_of_closed {kind : Kind} (h : kind ∈ [.strLit, .proto3Double, .proto3Single]) :
    isString kind ∧ openKind kind = .unterminatedStrLit := by
  simp only [List.mem_cons, List.not_mem_nil, or_false] at h
  rcases h with rfl | rfl | rfl <;> exact ⟨rfl, rfl⟩

/-- A string that is not open has its quote at both ends. -/
theorem First.exists_body {text : Text} {lexeme : Lexeme} (h : First text lexeme)
    (hkind : lexeme.kind ∈ [.strLit, .proto3Double, .proto3Single]) :
    ∃ quote body, IsQuote quote ∧ lexeme.text = quote :: (body ++ [quote]) ∧
      StringBody quote body := by
  obtain ⟨hstring, hopen⟩ := isString_of_closed hkind
  have hliteral : isLiteral lexeme.kind := Bool.or_eq_true_iff.mpr (.inl hstring)
  have hpicks := h.picks hliteral
  have hopens := h.opens hliteral
  rw [hopen] at hopens
  obtain ⟨kind, content⟩ := lexeme
  cases hopens with
  | @string quote s hquote =>
      have hclosed : QuotedClosed quote s := by
        by_contra hclosed
        have hcovers := Rule.covers_iff_picks.mpr ⟨kind, hpicks⟩
        have hopen := ((covers_quoted_iff hquote).mp hcovers).resolve_left hclosed
        -- An open string is of another kind.
        have hother := (picks_unterminated_iff hquote).mpr ⟨hopen, hclosed⟩
        rw [hpicks.unique hother] at hkind
        exact absurd hkind (by decide)
      obtain ⟨body, hs, hbody⟩ := hclosed.exists_body
      exact ⟨quote, body, hquote, by rw [hs], hbody⟩

/-! ## Backslashes before the closing quote -/

def backslashRun (s : Text) : Nat := (s.reverse.takeWhile (· == '\\')).length

theorem backslashRun_le (s : Text) : backslashRun s ≤ s.length := by
  unfold backslashRun
  have hle := (List.takeWhile_prefix (l := s.reverse) (· == '\\')).length_le
  rw [List.length_reverse] at hle
  exact hle

/-- A character in front counts only if all the others are backslashes. -/
theorem backslashRun_cons (c : Char) (s : Text) :
    backslashRun (c :: s) =
      if backslashRun s = s.length ∧ c = '\\' then s.length + 1 else backslashRun s := by
  unfold backslashRun
  rw [List.reverse_cons, List.takeWhile_append, List.length_reverse]
  by_cases hrun : (s.reverse.takeWhile (· == '\\')).length = s.length
  · by_cases hc : c = '\\'
    · rw [if_pos hrun, if_pos ⟨hrun, hc⟩, hc]
      simp
    · rw [if_pos hrun, if_neg fun h => hc h.2, List.takeWhile_cons_of_neg (by simpa using hc),
        List.append_nil, List.length_reverse, hrun]
  · rw [if_neg hrun, if_neg fun h => hrun h.1]

theorem StringBody.even_backslashRun {quote : Char} {body : Text} (h : StringBody quote body) :
    Even (backslashRun body) := by
  induction h with
  | nil => exact Even.zero
  | @plain c body hc _ ih =>
      have hne : c ≠ '\\' := by
        rintro rfl
        exact hc (by simp)
      rw [backslashRun_cons, if_neg fun h => hne h.2]
      exact ih
  | @escape c body _ _ ih =>
      rw [backslashRun_cons, backslashRun_cons]
      by_cases hrun : backslashRun body = body.length ∧ c = '\\'
      · -- All of the body are backslashes, and the escape adds two more.
        rw [if_pos hrun, List.length_cons, if_pos ⟨rfl, rfl⟩, ← hrun.1]
        exact ih.add even_two
      · have hle := backslashRun_le body
        have hshort : ¬ (backslashRun body = (c :: body).length ∧ '\\' = '\\') := by
          rw [List.length_cons]
          omega
        rw [if_neg hrun, if_neg hshort]
        exact ih

theorem backslashRun_eq_zero_iff {s : Text} : backslashRun s = 0 ↔ s.getLast? ≠ some '\\' := by
  unfold backslashRun
  rw [← List.head?_reverse]
  cases s.reverse with
  | nil => simp
  | cons c rest => by_cases hc : c = '\\' <;> simp [hc]

theorem getLast?_body_iff {before body : Text} {quote : Char} (hquote : IsQuote quote) :
    (before ++ quote :: body).getLast? = some '\\' ↔ backslashRun body ≠ 0 := by
  rw [List.getLast?_append_cons, List.getLast?_cons, Ne, backslashRun_eq_zero_iff, not_not]
  cases body.getLast? with
  | none => simpa using hquote.ne_backslash
  | some c => rfl

/-! ## The closing quote -/

theorem exists_closing_quote {text : Text} {tokens : TokenList Kind} {token : Token Kind}
    (h : tokenize text = .ok tokens) (hmem : token ∈ tokens)
    (hkind : token.kind ∈ [.strLit, .proto3Double, .proto3Single]) :
    ∃ before quote body after, text = before ++ quote :: body ++ quote :: after ∧ IsQuote quote ∧
      StringBody quote body ∧ token.span.start = before.byteSize ∧
      token.span.stop = Text.byteSize (before ++ quote :: body) + 1 := by
  have hne : token.kind ≠ .eof := by
    intro heof
    rw [heof] at hkind
    exact absurd hkind (by decide)
  obtain ⟨before, lexeme, after, hoccurs⟩ := exists_occurs_of_mem h hmem hne
  rw [hoccurs.stands.kind] at hkind
  obtain ⟨quote, body, hquote, htext, hbody⟩ := hoccurs.first.exists_body hkind
  have hstop := hoccurs.stands.stop
  have hone : Text.byteSize [quote] = 1 := Text.utf8Size_ascii hquote.isAscii
  have hsplit : before ++ lexeme.text = before ++ quote :: body ++ [quote] := by
    rw [htext, List.append_assoc, List.cons_append]
  rw [hsplit, Text.byteSize_append, hone] at hstop
  refine ⟨before, quote, body, after, ?_, hquote, hbody, hoccurs.stands.start, hstop⟩
  rw [hoccurs.text_eq, hsplit, List.append_assoc, List.singleton_append]

/-- Right before a closing quote, one character decides what a typed quote does. -/
theorem insertion_pair_closing {stroke : Stroke Kind} {before body after : Text} {quote : Char}
    (hquote : IsQuote quote) (htyped : stroke.typed = quote)
    (hinsertion : stroke.insertion = [quote])
    (hbefore : stroke.before = before ++ quote :: body) (hafter : stroke.after = quote :: after)
    (hinside : stroke.document.isInString stroke.offset = true) :
    stroke.pair.2.insertion = if backslashRun body = 0 then [] else [quote] := by
  have hclass : KeyClass.of stroke.typed = .quote := by
    rw [htyped]
    rcases hquote with rfl | rfl <;> rfl
  have hescaped : stroke.isEscaped = true ↔ backslashRun body ≠ 0 := by
    rw [Stroke.isEscaped, hbefore, beq_iff_eq]
    exact getLast?_body_iff hquote
  by_cases hrun : backslashRun body = 0
  · have hfree : stroke.isEscaped = false := by
      rw [← Bool.not_eq_true, hescaped, not_not]
      exact hrun
    have hahead : stroke.isAhead = true := by
      rw [Stroke.isAhead, hafter, htyped, List.head?_cons, beq_self_eq_true]
    rw [if_pos hrun, Stroke.pair_typeOver_of_quote hclass hfree hahead hinside]
    rfl
  · rw [if_neg hrun, Stroke.pair_of_escaped hclass (hescaped.mpr hrun), hinsertion]

/-- Typing the closing quote of a string types over it, unless a backslash stands before it. -/
theorem pair_at_closing_quote (text : Text) (h : Readable text) :
    ∃ document, Document.protobuf text = .ok document ∧
      ∀ token ∈ document.tokens, token.kind ∈ [.strLit, .proto3Double, .proto3Single] →
        ∃ before quote body after stroke,
          text = before ++ quote :: body ++ quote :: after ∧ IsQuote quote ∧
          token.span.start = before.byteSize ∧
          token.span.stop = Text.byteSize (before ++ quote :: body) + 1 ∧
          Stroke.start document (token.span.stop - 1) quote = .ok stroke ∧
          stroke.pair.2.caret = token.span.stop ∧
          stroke.pair.2.insertion = (if backslashRun body = 0 then [] else [quote]) ∧
          Even (backslashRun body) := by
  obtain ⟨_, document, _, _, hdocument, hdocumentText, _⟩ := h.exists_document
  refine ⟨document, hdocument, fun token hmem hkind => ?_⟩
  have htokenize := (Document.protobuf_eq_ok_iff.mp hdocument).1
  obtain ⟨before, quote, body, after, htext, hquote, hbody, hstart, hstop⟩ :=
    exists_closing_quote htokenize hmem hkind
  have hoffset : token.span.stop - 1 = Text.byteSize (before ++ quote :: body) := by
    rw [hstop, Nat.add_sub_cancel]
  have hinside : document.isInString (token.span.stop - 1) = true := by
    have hsize := Text.byteSize_append before (quote :: body)
    have hpos := Text.byteSize_pos (List.cons_ne_nil quote body)
    rw [isInString_eq hdocument]
    exact isInside_of_mem hdocument hmem (isString_of_closed hkind).1 (by omega) (by omega)
  have hbegin := Stroke.start_eq (hdocumentText.trans htext) quote
  rw [← hoffset] at hbegin
  refine ⟨before, quote, body, after, _, htext, hquote, hstart, hstop, hbegin, ?_, ?_,
    hbody.even_backslashRun⟩
  · have hone := Text.utf8Size_ascii hquote.isAscii
    rw [Stroke.caret_pair]
    show token.span.stop - 1 + quote.utf8Size = token.span.stop
    omega
  · exact insertion_pair_closing hquote rfl rfl rfl rfl hinside

-- The quote inside is escaped, the one at the end is not.
theorem pair_after_escaped_quote :
    Readable ['=', '"', '\\', '"', 'é', '"'] ∧
      ∃ document stroke, Document.protobuf ['=', '"', '\\', '"', 'é', '"'] = .ok document ∧
        Stroke.start document 6 '"' = .ok stroke ∧ stroke.pair.2.insertion = [] ∧
        stroke.pair.2.caret = 7 := by
  have hreadable : Readable ['=', '"', '\\', '"', 'é', '"'] := ⟨by decide, by decide⟩
  have hvalue : tokenize ['=', '"', '\\', '"', 'é', '"'] = .ok
      #[⟨.assign, ⟨0, 1, by decide, by decide⟩, 1, 0⟩,
        ⟨.strLit, ⟨1, 7, by decide, by decide⟩, 1, 1⟩,
        ⟨.eof, ⟨7, 7, by decide, by decide⟩, 1, 7⟩] := by cbv
  obtain ⟨document, hdocument, hquotes⟩ := pair_at_closing_quote _ hreadable
  have htokens := (Document.protobuf_eq_ok_iff.mp hdocument).1
  rw [hvalue, Except.ok.injEq] at htokens
  rw [← htokens] at hquotes
  obtain ⟨before, quote, body, after, stroke, htext, _, hstart, hstop, hbegin, hcaret, hinsertion,
    _⟩ := hquotes _ (Array.mem_of_getElem? (i := 1) rfl) (by decide)
  -- The places of the token say what the body is.
  have hclose : Text.splitAt? ['=', '"', '\\', '"', 'é', '"'] 6 =
      some (before ++ quote :: body, quote :: after) :=
    Text.splitAt?_eq_some_iff.mpr ⟨htext, (Nat.succ.inj hstop).symm⟩
  have hcut : Text.splitAt? ['=', '"', '\\', '"', 'é'] 1 = some (before, quote :: body) := by
    have hparts : Text.splitAt? ['=', '"', '\\', '"', 'é', '"'] 6 =
        some (['=', '"', '\\', '"', 'é'], ['"']) := by decide
    rw [hparts, Option.some.injEq, Prod.mk.injEq] at hclose
    exact Text.splitAt?_eq_some_iff.mpr ⟨hclose.1, hstart.symm⟩
  have hparts : Text.splitAt? ['=', '"', '\\', '"', 'é'] 1 =
      some (['='], ['"', '\\', '"', 'é']) := by decide
  rw [hparts, Option.some.injEq, Prod.mk.injEq, List.cons.injEq] at hcut
  obtain ⟨_, rfl, rfl⟩ := hcut
  exact ⟨hreadable, document, stroke, hdocument, hbegin, hinsertion, hcaret⟩

/-- A closing quote after an escaped backslash is not typed over. -/
theorem pair_after_escaped_backslash :
    ∃ document token stroke, Document.protobuf ['"', '\\', '\\', '"'] = .ok document ∧
      token ∈ document.tokens ∧ token.kind = .strLit ∧ token.span.start = 0 ∧
      token.span.stop = 4 ∧ Stroke.start document 3 '"' = .ok stroke ∧
      stroke.pair.2.insertion = ['"'] := by
  have hreadable : Readable ['"', '\\', '\\', '"'] := ⟨by decide, by decide⟩
  have hvalue : tokenize ['"', '\\', '\\', '"'] = .ok
      #[⟨.strLit, ⟨0, 4, by decide, by decide⟩, 1, 0⟩,
        ⟨.eof, ⟨4, 4, by decide, by decide⟩, 1, 4⟩] := by cbv
  obtain ⟨_, document, _, _, hdocument, htext, _⟩ := hreadable.exists_document
  have htokens := (Document.protobuf_eq_ok_iff.mp hdocument).1
  rw [hvalue, Except.ok.injEq] at htokens
  have hmem : ⟨.strLit, ⟨0, 4, by decide, by decide⟩, 1, 0⟩ ∈ document.tokens := by
    rw [← htokens]
    exact Array.mem_of_getElem? (i := 0) rfl
  have hcut : document.text = ['"', '\\', '\\'] ++ ['"'] := htext
  exact ⟨document, _, _, hdocument, hmem, rfl, rfl, rfl, Stroke.start_eq hcut '"', rfl⟩

end Keystroke.Protobuf
