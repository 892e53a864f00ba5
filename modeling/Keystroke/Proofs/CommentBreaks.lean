import Mathlib
import Keystroke.Proofs.Strokes
import Keystroke.Proofs.UnclosedComments

/-!
# Line breaks in block comments

A line break goes on with the block comment that the character after the caret belongs to, if the
line has a star before the caret (`layOut_continues_iff`). The caret need not be inside: the comment
may begin right after it, and the star may stand outside of every comment.

On the line of the first mark of a comment without an end, a line break also writes the end. Then
the comment reaches to that end and no further, and nothing before it is read in another way
(`layOut_closes_comment`).
-/

namespace Keystroke.Protobuf

/-! ## What is asked at a caret -/

section Caret

variable {before after : Text} {document : Document Kind}

theorem cut_of_protobuf (h : Document.protobuf (before ++ after) = .ok document) :
    document.cut before.byteSize = .ok (before, after) :=
  Document.cut_eq_ok_iff.mpr ⟨(Document.protobuf_eq_ok_iff.mp h).2.1, rfl⟩

theorem continuesComment_iff (hdocument : Document.protobuf (before ++ after) = .ok document) :
    document.continuesComment before.byteSize = .ok true ↔
      ∃ token ∈ document.tokens, token.kind = .blockComment ∧
        token.span.start ≤ before.byteSize ∧ before.byteSize < token.span.stop ∧
        '*' ∈ before.lastLine ∧
        ¬ (document.isUnclosedBlockComment token = true ∧ ['/', '*'] <:+: before.lastLine) := by
  have hkind :
      document.classifier.isBlockComment (document.tokenAfter before.byteSize).kind = true ↔
        (document.tokenAfter before.byteSize).kind = .blockComment := by
    rw [(Document.protobuf_eq_ok_iff.mp hdocument).2.2]
    exact beq_iff_eq
  rw [Document.continuesComment_eq (cut_of_protobuf hdocument), Except.ok.injEq, Bool.and_eq_true,
    Bool.and_eq_true, hkind, List.contains_iff_mem, Bool.not_eq_true', ← Bool.not_eq_true,
    Bool.and_eq_true, Text.includes_iff]
  constructor
  · rintro ⟨⟨hcomment, hstar⟩, hopening⟩
    have hne : (document.tokenAfter before.byteSize).kind ≠ .eof := by
      rw [hcomment]
      decide
    obtain ⟨hmem, hstart, hstop⟩ := tokenAfter_holds hdocument hne
    exact ⟨_, hmem, hcomment, hstart, hstop, hstar, hopening⟩
  · rintro ⟨token, hmem, hcomment, hstart, hstop, hstar, hopening⟩
    rw [(ordered_of_protobuf hdocument).tokenAfter_of_mem hmem hstart hstop]
    exact ⟨⟨hcomment, hstar⟩, hopening⟩

theorem infix_lastLine_of_closesComment
    (hdocument : Document.protobuf (before ++ after) = .ok document)
    (h : document.closesComment before.byteSize = .ok true) : ['/', '*'] <:+: before.lastLine := by
  by_cases hzero : before.byteSize = 0
  · rw [Document.closesComment, if_pos hzero] at h
    cases h
  · rw [Document.closesComment_eq (cut_of_protobuf hdocument) hzero, Except.ok.injEq,
      Bool.and_eq_true, Text.includes_iff] at h
    exact h.2

theorem exists_enter (h : Document.protobuf (before ++ after) = .ok document) :
    ∃ stroke, Stroke.enter document before.byteSize = .ok stroke ∧ stroke.Aligned ∧
      stroke.document = document ∧ stroke.offset = before.byteSize ∧ stroke.before = before ∧
      stroke.after = after ∧ stroke.insertion = ['\n'] := by
  have htext := (Document.protobuf_eq_ok_iff.mp h).2.1
  have hcut := cut_of_protobuf h
  exact ⟨_, Stroke.start_eq htext '\n', ⟨hcut, rfl, .inl ⟨[], rfl⟩⟩, rfl, rfl, rfl, rfl, rfl⟩

end Caret

/-! ## New lines of a comment -/

/-- No other layout of a line break inserts what goes on with a comment. -/
theorem exists_insertion_layOut {stroke : Stroke Kind} (hstroke : stroke.Aligned)
    (htyped : stroke.insertion = ['\n']) :
    ∃ laid, stroke.layOut = .ok laid ∧
      (laid.insertion = Stroke.commentLine ↔
        stroke.document.continuesComment stroke.offset = .ok true) := by
  obtain ⟨closes, hcloses⟩ := Document.exists_closesComment hstroke.cut
  obtain ⟨continues, hcontinues⟩ := Document.exists_continuesComment hstroke.cut
  obtain ⟨indentation, hlayOut⟩ := Stroke.exists_layOut_eq hstroke.cut hcloses hcontinues
  refine ⟨_, hlayOut, ?_⟩
  rw [hcontinues, Except.ok.injEq]
  cases continues with
  | true => exact iff_of_true rfl rfl
  | false =>
      refine iff_of_false ?_ Bool.false_ne_true
      rw [if_neg Bool.false_ne_true]
      split
      · show Stroke.commentEnd ≠ Stroke.commentLine
        decide
      · split
        · show '\n' :: '\n' :: indentation ≠ ['\n', ' ', '*', ' ']
          simp
        · rw [htyped]
          decide

/-- A line break goes on with a block comment if the caret is inside it or right before it and a
star stands before the caret on its line, but not on the line of the opening mark of an unclosed
one. -/
theorem layOut_continues_iff (before after : Text) (h : Readable (before ++ after)) :
    ∃ document stroke laid, Document.protobuf (before ++ after) = .ok document ∧
      Stroke.enter document before.byteSize = .ok stroke ∧ stroke.layOut = .ok laid ∧
      (laid.insertion = Stroke.commentLine ↔
        document.continuesComment before.byteSize = .ok true) ∧
      (document.continuesComment before.byteSize = .ok true ↔
        ∃ token ∈ document.tokens, token.kind = .blockComment ∧
          ((token.span.start < before.byteSize ∧ before.byteSize < token.span.stop) ∨
            token.span.start = before.byteSize) ∧
          '*' ∈ before.lastLine ∧
          ¬ (document.isUnclosedBlockComment token = true ∧ ['/', '*'] <:+: before.lastLine)) := by
  obtain ⟨_, document, _, _, hdocument, _⟩ := h.exists_document
  obtain ⟨stroke, henter, haligned, hstroke, hoffset, _, _, htyped⟩ := exists_enter hdocument
  obtain ⟨laid, hlayOut, hinsertion⟩ := exists_insertion_layOut haligned htyped
  rw [hstroke, hoffset] at hinsertion
  refine ⟨document, stroke, laid, hdocument, henter, hlayOut, hinsertion, ?_⟩
  rw [continuesComment_iff hdocument]
  refine exists_congr fun token => and_congr_right fun hmem => and_congr_right fun hkind => ?_
  -- A comment is not empty, so that it goes on after its start.
  have hne : token.kind ≠ .eof := by
    rw [hkind]
    decide
  have htokenize := (Document.protobuf_eq_ok_iff.mp hdocument).1
  obtain ⟨_, _, _, hoccurs⟩ := exists_occurs_of_mem htokenize hmem hne
  have hlt := hoccurs.start_lt_stop
  rw [← and_assoc]
  refine and_congr_left fun _ => ?_
  omega

-- On a later line of a closed comment.
theorem layOut_continues_second_line :
    Readable (['/', '*', '\n', '*', 'é'] ++ ['*', '/', ';']) ∧
      ∃ document stroke laid,
        Document.protobuf (['/', '*', '\n', '*', 'é'] ++ ['*', '/', ';']) = .ok document ∧
        Stroke.enter document 6 = .ok stroke ∧ stroke.layOut = .ok laid ∧
        laid.insertion = ['\n', ' ', '*', ' '] := by
  have hreadable : Readable (['/', '*', '\n', '*', 'é'] ++ ['*', '/', ';']) :=
    ⟨by decide, by decide⟩
  have hvalue : tokenize (['/', '*', '\n', '*', 'é'] ++ ['*', '/', ';']) = .ok
      #[⟨.blockComment, ⟨0, 8, by decide, by decide⟩, 1, 0⟩,
        ⟨.mark .semi, ⟨8, 9, by decide, by decide⟩, 2, 5⟩,
        ⟨.eof, ⟨9, 9, by decide, by decide⟩, 2, 6⟩] := by cbv
  obtain ⟨document, stroke, laid, hdocument, henter, hlayOut, hinsertion, hcontinues⟩ :=
    layOut_continues_iff _ _ hreadable
  have htokens := (Document.protobuf_eq_ok_iff.mp hdocument).1
  rw [hvalue, Except.ok.injEq] at htokens
  have hmem : ⟨.blockComment, ⟨0, 8, by decide, by decide⟩, 1, 0⟩ ∈ document.tokens := by
    rw [← htokens]
    exact Array.mem_of_getElem? (i := 0) rfl
  refine ⟨hreadable, document, stroke, laid, hdocument, henter, hlayOut,
    hinsertion.mpr (hcontinues.mpr ⟨_, hmem, rfl, .inl (by decide), by decide, ?_⟩)⟩
  exact fun hopening => absurd hopening.2 (by decide)

/-- A star before a comment is enough for a new line of the comment, at a caret that is in none. -/
theorem layOut_continues_before_comment :
    ∃ document stroke laid, Document.protobuf ['*', '/', '*', '*', '/', 'a'] = .ok document ∧
      (∀ token ∈ document.tokens, ¬ (token.span.start < 1 ∧ 1 < token.span.stop)) ∧
      document.continuesComment 1 = .ok true ∧ Stroke.enter document 1 = .ok stroke ∧
      stroke.layOut = .ok laid ∧ laid.insertion = ['\n', ' ', '*', ' '] := by
  have hreadable : Readable (['*'] ++ ['/', '*', '*', '/', 'a']) := ⟨by decide, by decide⟩
  have hvalue : tokenize ['*', '/', '*', '*', '/', 'a'] = .ok
      #[⟨.error, ⟨0, 1, by decide, by decide⟩, 1, 0⟩,
        ⟨.blockComment, ⟨1, 5, by decide, by decide⟩, 1, 1⟩,
        ⟨.ident, ⟨5, 6, by decide, by decide⟩, 1, 5⟩,
        ⟨.eof, ⟨6, 6, by decide, by decide⟩, 1, 6⟩] := by cbv
  obtain ⟨_, document, _, _, hdocument, _⟩ := hreadable.exists_document
  have htokens := (Document.protobuf_eq_ok_iff.mp hdocument).1
  have hsame := hvalue.symm.trans htokens
  rw [Except.ok.injEq] at hsame
  have hmem : ⟨.blockComment, ⟨1, 5, by decide, by decide⟩, 1, 1⟩ ∈ document.tokens := by
    rw [← hsame]
    exact Array.mem_of_getElem? (i := 1) rfl
  have hcontinues : document.continuesComment 1 = .ok true :=
    (continuesComment_iff hdocument).mpr ⟨_, hmem, rfl, by decide, by decide, by decide,
      fun hopening => absurd hopening.2 (by decide)⟩
  obtain ⟨stroke, henter, haligned, hstroke, hoffset, _, _, htyped⟩ := exists_enter hdocument
  obtain ⟨laid, hlayOut, hinsertion⟩ := exists_insertion_layOut haligned htyped
  rw [hstroke, hoffset] at hinsertion
  refine ⟨document, stroke, laid, hdocument, ?_, hcontinues, henter, hlayOut,
    hinsertion.mpr hcontinues⟩
  rw [← hsame]
  decide

/-! ## What is read before an opening mark -/

/-- A rule that goes on beyond an opening mark also describes what ends with the mark. -/
theorem covers_mark {s more : Text} (h : Rule.Covers rules (s ++ ['/', '*'] ++ more)) :
    Rule.Covers rules (s ++ ['/', '*']) := by
  by_cases hmore : more = []
  · rw [hmore, List.append_nil] at h
    exact h
  · have hlength : (s ++ ['/', '*'] ++ more).length ≠ 1 := by
      simp only [List.length_append, List.length_cons, List.length_nil]
      omega
    have hslash : '/' ∈ solitary := by decide
    obtain ⟨kind, hopens⟩ := exists_opens_of_covers hslash (by simp) hlength h
    rcases hopens.of_append (by simp) with hopens | ⟨hhalf, _⟩
    · exact Rule.covers_iff_picks.mpr ⟨kind, (hopens.picks_of_covers h hmore).1⟩
    · -- The mark is more than half of one.
      have hlength := congrArg List.length hhalf
      simp at hlength

/-- The lexemes before a comment do not depend on what follows its opening mark. -/
theorem lexemes_before_mark {front back : List Lexeme} {inside : Text}
    (h : lexemes (joined front ++ '/' :: '*' :: inside) = front ++ back) (other : Text) :
    lexemes (joined front ++ '/' :: '*' :: other) = front ++ lexemes ('/' :: '*' :: other) := by
  induction front with
  | nil => rfl
  | cons lexeme front ih =>
      rw [List.cons_append] at h
      obtain ⟨htext, hlater⟩ := lexemes_eq_cons h
      have hfirst := first_of_lexemes_eq_cons h
      rw [joined_cons, List.append_assoc] at htext hfirst
      rw [List.append_cancel_left_eq] at htext
      rw [← htext] at hlater
      have hkeep : First (lexeme.text ++ (joined front ++ '/' :: '*' :: other)) lexeme := by
        refine hfirst.exchange (List.prefix_append _ _) fun s hs hcovers => ?_
        have hshared : lexeme.text ++ joined front ++ ['/', '*'] <+:
            lexeme.text ++ (joined front ++ '/' :: '*' :: inside) := ⟨inside, by simp⟩
        have hmark : lexeme.text ++ joined front ++ ['/', '*'] <+:
            lexeme.text ++ (joined front ++ '/' :: '*' :: other) := ⟨other, by simp⟩
        rcases List.prefix_or_prefix_of_prefix hs hmark with hs | ⟨more, rfl⟩
        · exact hs.trans hshared
        · -- The lexeme would not end where it does, because the mark is there in both texts.
          have hlonger := covers_mark hcovers
          rw [List.append_assoc] at hlonger
          have hsplit : First (lexeme.text ++ (joined front ++ ['/', '*'] ++ inside)) lexeme := by
            simpa using hfirst
          exact absurd hlonger (hsplit.not_covers_append (by simp))
      rw [joined_cons, List.append_assoc, lexemes_of_first hkeep, ih hlater, List.cons_append]

theorem lexemes_closed_comment {inside : Text} (h : NoEnd (inside ++ ['*'])) (after : Text) :
    lexemes ('/' :: '*' :: (inside ++ '*' :: '/' :: after)) =
      ⟨.blockComment, '/' :: '*' :: (inside ++ ['*', '/'])⟩ :: lexemes after := by
  have htext := joined_lexemes ('/' :: '*' :: (inside ++ '*' :: '/' :: after))
  cases hlexemes : lexemes ('/' :: '*' :: (inside ++ '*' :: '/' :: after)) with
  | nil =>
      rw [hlexemes] at htext
      cases htext
  | cons lexeme back =>
      have hfirst := first_of_lexemes_eq_cons hlexemes
      obtain ⟨hkind, ⟨body, tail, hrest, hbody, hcontent⟩ | ⟨hnone, _⟩⟩ := first_blockComment hfirst
      · obtain ⟨rfl, rfl⟩ := first_end_unique h hbody hrest
        obtain ⟨hsplit, hback⟩ := lexemes_eq_cons hlexemes
        have hafter : after = joined back := by
          rw [hcontent] at hsplit
          simpa using hsplit
        obtain ⟨kind, content⟩ := lexeme
        rw [show kind = .blockComment from hkind, show content = _ from hcontent, hafter, hback]
      · exact absurd ⟨inside, after, by simp⟩ hnone

/-! ## The end of a comment that has none -/

/-- A caret behind the opening mark parts the inside of a last comment that has no end mark. -/
theorem exists_head_of_lacksEnd {before after : Text} {tokens : TokenList Kind} {token : Token Kind}
    (h : tokenize (before ++ after) = .ok tokens) (hlast : lastToken? tokens = some token)
    (hlacks : lacksEnd (before ++ after) token) (hcaret : token.span.start + 2 ≤ before.byteSize) :
    ∃ front head, before = joined front ++ '/' :: '*' :: head ∧ NoEnd (head ++ after) ∧
      lexemes (before ++ after) = front ++ [⟨.blockComment, '/' :: '*' :: (head ++ after)⟩] ∧
      Occurs (before ++ after) (joined front) ⟨.blockComment, '/' :: '*' :: (head ++ after)⟩ []
        token := by
  rcases List.eq_nil_or_concat (lexemes (before ++ after)) with hnil | ⟨front, lexeme, hlexemes⟩
  · have htext := joined_lexemes (before ++ after)
    rw [hnil, joined_nil] at htext
    rw [← htext] at h
    rw [lastToken?_nil h] at hlast
    cases hlast
  · rw [List.concat_eq_append] at hlexemes
    obtain ⟨other, hother, hoccurs⟩ := exists_lastToken? h hlexemes
    rw [hlast, Option.some.injEq] at hother
    rw [← hother] at hoccurs
    obtain ⟨hkind, inside, hcontent, hend⟩ := hoccurs.lacksEnd_iff.mp hlacks
    obtain ⟨kind, content⟩ := lexeme
    cases hkind
    cases hcontent
    have hcut : joined front ++ ['/', '*'] ++ inside = before ++ after := by
      rw [hoccurs.text_eq]
      simp
    have hmark : Text.byteSize (joined front ++ ['/', '*']) ≤ before.byteSize := by
      rw [Text.byteSize_append, ← hoccurs.stands.start]
      exact hcaret
    obtain ⟨head, hbefore, rfl⟩ := Text.exists_append_of_byteSize_le hcut hmark
    exact ⟨front, head, by simpa using hbefore, hend, hlexemes, hoccurs⟩

/-- With an end mark behind the caret, the comment ends there. -/
theorem lexemes_insert_end {front : List Lexeme} {head after : Text}
    (h : lexemes (joined front ++ '/' :: '*' :: (head ++ after)) =
      front ++ [⟨.blockComment, '/' :: '*' :: (head ++ after)⟩])
    (hend : NoEnd (head ++ after)) :
    lexemes (joined front ++ '/' :: '*' :: head ++ Stroke.commentEnd ++ after) =
      front ++ ⟨.blockComment, '/' :: '*' :: (head ++ Stroke.commentEnd)⟩ :: lexemes after := by
  have hhead : NoEnd head := fun hmark => hend (hmark.trans (List.prefix_append head after).isInfix)
  -- The insertion begins with a newline, so that no end mark arises at the caret.
  have hseam : NoEnd (head ++ ['\n', ' ', '*', ' ', '\n', ' '] ++ ['*']) := by
    rw [List.append_assoc]
    exact hhead.append_cons (by unfold NoEnd; decide) (by decide)
  have hclosed := lexemes_closed_comment hseam after
  have hkept := lexemes_before_mark h
    (head ++ ['\n', ' ', '*', ' ', '\n', ' '] ++ '*' :: '/' :: after)
  rw [hclosed] at hkept
  simpa [Stroke.commentEnd, Stroke.commentLine] using hkept

/-- The tokens before the comment stay, and the comment reaches to its new end. -/
theorem exists_tokens_insert_end {front : List Lexeme} {head after : Text} {token : Token Kind}
    {tokens tokens' : TokenList Kind}
    (htokens : tokenize (joined front ++ '/' :: '*' :: (head ++ after)) = .ok tokens)
    (htokens' : tokenize (joined front ++ '/' :: '*' :: head ++ Stroke.commentEnd ++ after) =
      .ok tokens')
    (hlexemes : lexemes (joined front ++ '/' :: '*' :: (head ++ after)) =
      front ++ [⟨.blockComment, '/' :: '*' :: (head ++ after)⟩])
    (hend : NoEnd (head ++ after))
    (hstands : Stands (joined front) ⟨.blockComment, '/' :: '*' :: (head ++ after)⟩ token) :
    ∃ (common back : List (Token Kind)) (sentinel comment : Token Kind),
      tokens.toList = common ++ [token, sentinel] ∧
      tokens'.toList = common ++ comment :: back ∧ comment.kind = .blockComment ∧
      comment.span.start = token.span.start ∧
      comment.span.stop = Text.byteSize (joined front ++ '/' :: '*' :: head) + 8 := by
  have hplaced := placed_of_tokenize htokens
  have hplaced' := placed_of_tokenize htokens'
  rw [hlexemes] at hplaced
  rw [lexemes_insert_end hlexemes hend] at hplaced'
  obtain ⟨common, later, later', hcommon, hcommon', hlater, hlater'⟩ :=
    hplaced.exists_common hplaced'
  cases hlater with
  | @lexeme _ _ _ other _ hother hrest =>
      cases hrest with
      | @sentinel _ sentinel _ =>
          cases hlater' with
          | @lexeme _ _ _ comment back hcomment _ =>
              obtain rfl := hother.unique hstands
              refine ⟨common, back, sentinel, comment, hcommon, hcommon', hcomment.kind, ?_, ?_⟩
              · exact hcomment.start.trans hother.start.symm
              · have hsplit : joined front ++ '/' :: '*' :: (head ++ Stroke.commentEnd) =
                    joined front ++ '/' :: '*' :: head ++ Stroke.commentEnd := by simp
                rw [hcomment.stop, List.nil_append, hsplit, Text.byteSize_append]
                rfl

theorem layOut_eq_commentEnd {stroke : Stroke Kind} (hstroke : stroke.Aligned)
    (hcloses : stroke.document.closesComment stroke.offset = .ok true)
    (hcontinues : stroke.document.continuesComment stroke.offset ≠ .ok true) :
    stroke.layOut = .ok { stroke with
      insertion := Stroke.commentEnd, caret := stroke.offset + Stroke.commentLine.byteSize } := by
  obtain ⟨continues, hvalue⟩ := Document.exists_continuesComment hstroke.cut
  obtain ⟨indentation, hlayOut⟩ := Stroke.exists_layOut_eq hstroke.cut hcloses hvalue
  cases continues with
  | true => exact absurd hvalue hcontinues
  | false => exact hlayOut

/-- On the line of the opening mark a comment at the end of the text is not gone on with. -/
theorem Occurs.not_continuesComment {before after start : Text} {lexeme : Lexeme}
    {token : Token Kind} {document : Document Kind}
    (hdocument : Document.protobuf (before ++ after) = .ok document)
    (h : Occurs (before ++ after) start lexeme [] token) (hkind : lexeme.kind = .blockComment)
    (hmem : token ∈ document.tokens) (hstart : token.span.start ≤ before.byteSize)
    (hline : ['/', '*'] <:+: before.lastLine) :
    document.continuesComment before.byteSize ≠ .ok true := by
  have hordered := ordered_of_protobuf hdocument
  intro hcontinues
  obtain ⟨other, hother, _, hfrom, hto, _, hopening⟩ :=
    (continuesComment_iff hdocument).mp hcontinues
  -- The token reaches the end of the text, so that it holds the caret if any does.
  have hstop : before.byteSize < token.span.stop := by
    have hle := hordered.stop_le_size hother
    have htext := (Document.protobuf_eq_ok_iff.mp hdocument).2.1
    rw [Document.size, htext, h.byteSize_eq, Text.byteSize_nil] at hle
    omega
  have hsame : other = token := by
    rw [← hordered.tokenAfter_of_mem hother hfrom hto, hordered.tokenAfter_of_mem hmem hstart hstop]
  apply hopening
  rw [hsame]
  exact ⟨h.isUnclosed_of_end hdocument hkind, hline⟩

/-- A line break on the line of the opening mark of a comment without an end closes the comment
right there, with the caret inside it. -/
theorem layOut_closes_comment (before after : Text)
    (hsize : Text.byteSize (before ++ Stroke.commentEnd ++ after) < 4294967295) :
    ∃ document stroke laid, Document.protobuf (before ++ after) = .ok document ∧
      Stroke.enter document before.byteSize = .ok stroke ∧ stroke.layOut = .ok laid ∧
      ∀ token, lastToken? document.tokens = some token → lacksEnd (before ++ after) token →
        token.span.start + 2 ≤ before.byteSize →
        document.closesComment before.byteSize = .ok true →
          laid.insertion = ['\n', ' ', '*', ' ', '\n', ' ', '*', '/'] ∧
          laid.caret = before.byteSize + 4 ∧
          laid.result = before ++ laid.insertion ++ after ∧
          ∃ (tokens : TokenList Kind) (front back : List (Token Kind))
              (sentinel comment : Token Kind),
            document.tokens.toList = front ++ [token, sentinel] ∧
            tokenize laid.result = .ok tokens ∧ tokens.toList = front ++ comment :: back ∧
            comment.kind = .blockComment ∧ comment.span.start = token.span.start ∧
            comment.span.stop = before.byteSize + 8 ∧
            comment.span.start < laid.caret ∧ laid.caret < comment.span.stop := by
  have hreadable : Readable (before ++ Stroke.commentEnd ++ after) :=
    .of_byteSize (Nat.succ_lt_succ hsize)
  have htextReadable : Readable (before ++ after) := by
    apply hreadable.of_sublist
    rw [List.append_assoc]
    exact (List.sublist_append_right Stroke.commentEnd after).append_left before
  obtain ⟨_, document, _, _, hdocument, _⟩ := htextReadable.exists_document
  obtain ⟨tokens, htokens⟩ := exists_tokenize_iff.mpr hreadable
  obtain ⟨stroke, henter, haligned, hstroke, hoffset, hstrokeBefore, hstrokeAfter, htyped⟩ :=
    exists_enter hdocument
  obtain ⟨laid, hlayOut, _⟩ := exists_insertion_layOut haligned htyped
  refine ⟨document, stroke, laid, hdocument, henter, hlayOut, ?_⟩
  intro token hlast hlacks hstart hcloses
  have htokenize := (Document.protobuf_eq_ok_iff.mp hdocument).1
  obtain ⟨front, head, hbefore, hend, hlexemes, hoccurs⟩ :=
    exists_head_of_lacksEnd htokenize hlast hlacks hstart
  -- The braces and the new line have no say.
  have hlaid : laid = { stroke with
      insertion := Stroke.commentEnd, caret := stroke.offset + Stroke.commentLine.byteSize } := by
    have hline := infix_lastLine_of_closesComment hdocument hcloses
    have hcontinues :=
      hoccurs.not_continuesComment hdocument rfl (mem_of_lastToken? hlast) (by omega) hline
    rw [← hstroke, ← hoffset] at hcloses hcontinues
    have hchosen := layOut_eq_commentEnd haligned hcloses hcontinues
    rw [hlayOut, Except.ok.injEq] at hchosen
    exact hchosen
  have hcaret : laid.caret = before.byteSize + 4 := by
    rw [hlaid, ← hoffset]
    rfl
  have hresult : laid.result = before ++ Stroke.commentEnd ++ after := by
    rw [hlaid, Stroke.result, hstrokeBefore, hstrokeAfter]
  subst hbefore
  rw [List.append_assoc, List.cons_append, List.cons_append] at htokenize hlexemes
  obtain ⟨common, back, sentinel, comment, hcommon, hcommon', hkind, hfrom, hto⟩ :=
    exists_tokens_insert_end htokenize htokens hlexemes hend hoccurs.stands
  refine ⟨by rw [hlaid]; rfl, hcaret, by rw [hresult, hlaid], tokens, common, back, sentinel,
    comment, hcommon, ?_, hcommon', hkind, hfrom, hto, ?_, ?_⟩
  · rw [hresult]
    exact htokens
  · omega
  · omega

-- In a comment the braces around the caret mean nothing.
theorem layOut_closes_comment_between_braces :
    Text.byteSize ([';', '/', '*', '\x7b'] ++ Stroke.commentEnd ++ ['\x7d']) < 4294967295 ∧
      ∃ document stroke laid tokens comment,
        Document.protobuf ([';', '/', '*', '\x7b'] ++ ['\x7d']) = .ok document ∧
        Stroke.enter document 4 = .ok stroke ∧ stroke.layOut = .ok laid ∧
        laid.insertion = ['\n', ' ', '*', ' ', '\n', ' ', '*', '/'] ∧ laid.caret = 8 ∧
        tokenize laid.result = .ok tokens ∧ comment ∈ tokens ∧ comment.kind = .blockComment ∧
        comment.span.start = 1 ∧ comment.span.stop = 12 := by
  have hsize : Text.byteSize ([';', '/', '*', '\x7b'] ++ Stroke.commentEnd ++ ['\x7d']) <
      4294967295 := by decide
  have hvalue : tokenize ([';', '/', '*', '\x7b'] ++ ['\x7d']) = .ok
      #[⟨.mark .semi, ⟨0, 1, by decide, by decide⟩, 1, 0⟩,
        ⟨.blockComment, ⟨1, 5, by decide, by decide⟩, 1, 1⟩,
        ⟨.eof, ⟨5, 5, by decide, by decide⟩, 1, 5⟩] := by cbv
  have hcloses : (Document.protobuf ([';', '/', '*', '\x7b'] ++ ['\x7d'])).bind
      (fun document => document.closesComment 4) = .ok true := by cbv
  obtain ⟨document, stroke, laid, hdocument, henter, hlayOut, hcomment⟩ :=
    layOut_closes_comment [';', '/', '*', '\x7b'] ['\x7d'] hsize
  rw [hdocument] at hcloses
  have htokens := (Document.protobuf_eq_ok_iff.mp hdocument).1
  rw [hvalue, Except.ok.injEq] at htokens
  have hlast : lastToken? document.tokens =
      some ⟨.blockComment, ⟨1, 5, by decide, by decide⟩, 1, 1⟩ := by
    rw [← htokens]
    rfl
  obtain ⟨hinsertion, hcaret, _, tokens, front, back, _, comment, _, hresult, hsplit, hkind, hstart,
    hstop, _⟩ := hcomment _ hlast (by decide) (by decide) hcloses
  have hmem : comment ∈ tokens := by
    rw [← Array.mem_toList_iff, hsplit]
    exact List.mem_append_right front List.mem_cons_self
  exact ⟨hsize, document, stroke, laid, tokens, comment, hdocument, henter, hlayOut, hinsertion,
    hcaret, hresult, hmem, hkind, hstart, hstop⟩

end Keystroke.Protobuf
