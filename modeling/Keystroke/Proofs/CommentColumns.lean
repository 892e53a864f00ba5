import Mathlib
import Keystroke.Proofs.CaretContext
import Keystroke.Proofs.IndentColumns

/-!
# The column inside a comment

A line below one with `/*` on it is indented by one column more, to line up the stars of a block
comment. Whether the line is inside a block comment is another question: it is if the text before it
stops in one (`exists_around_iff_lastToken`). A comment that starts on the line above and goes on
always gets the column; the column alone does not tell that there is one
(`reindent_comment_column`).
-/

namespace Keystroke

namespace Protobuf

/-! ## Block comments around a caret -/

theorem openKind_eq_blockComment_iff {kind : Kind} :
    openKind kind = .blockComment ↔ kind = .blockComment := by
  cases kind <;> simp [openKind]

section Caret

variable {before after head tail : Text} {front back : List Lexeme} {lexeme : Lexeme}

theorem Holds.getLast?_head (h : Holds before after front lexeme back head tail) :
    head.getLast? = before.getLast? := by
  rw [h.before_eq, List.getLast?_append_of_ne_nil _ h.head_ne_nil]

section Around

variable {document : Document Kind}
  (hdocument : Document.protobuf (before ++ after) = .ok document)
  (h : Holds before after front lexeme back head tail)

include hdocument h

theorem Holds.exists_holder :
    ∃ holder ∈ document.tokens, holder.kind = lexeme.kind ∧
      holder.span.start = (joined front).byteSize ∧ holder.span.start < before.byteSize ∧
      holder.span.stop = before.byteSize + tail.byteSize := by
  obtain ⟨earlier, holder, later, htokens, hkind, hstart, hstop⟩ := h.exists_token hdocument
  have hhead := Text.byteSize_pos h.head_ne_nil
  have hsize := congrArg Text.byteSize h.before_eq
  rw [Text.byteSize_append] at hsize
  refine ⟨holder, ?_, hkind, by omega, by omega, hstop⟩
  rw [← Array.mem_toList_iff, htokens]
  exact List.mem_append_right earlier List.mem_cons_self

/-- At most one token is around a caret, that of the lexeme with the character before it. -/
theorem Holds.of_around {token : Token Kind} (hmem : token ∈ document.tokens)
    (hbefore : token.span.start < before.byteSize) (hafter : before.byteSize < token.span.stop) :
    token.kind = lexeme.kind ∧ token.span.start = (joined front).byteSize ∧ tail ≠ [] := by
  have hordered := ordered_of_protobuf hdocument
  obtain ⟨holder, hholder, hkind, hstart, hlt, hstop⟩ := h.exists_holder hdocument
  -- Both tokens hold the byte before the caret.
  have hfound : document.tokenAfter (before.byteSize - 1) = token :=
    hordered.tokenAfter_of_mem hmem (by omega) (by omega)
  have hfound' : document.tokenAfter (before.byteSize - 1) = holder :=
    hordered.tokenAfter_of_mem hholder (by omega) (by omega)
  rw [← hfound, hfound'] at hafter ⊢
  refine ⟨hkind, hstart, fun htail => ?_⟩
  rw [hstop, htail, Text.byteSize_nil] at hafter
  omega

theorem Holds.exists_around_iff (kind : Kind) :
    (∃ token ∈ document.tokens, token.kind = kind ∧ token.span.start < before.byteSize ∧
        before.byteSize < token.span.stop) ↔ lexeme.kind = kind ∧ tail ≠ [] := by
  constructor
  · rintro ⟨token, hmem, rfl, hbefore, hafter⟩
    obtain ⟨hkind, _, htail⟩ := h.of_around hdocument hmem hbefore hafter
    exact ⟨hkind.symm, htail⟩
  · rintro ⟨rfl, htail⟩
    obtain ⟨holder, hholder, hkind, _, hlt, hstop⟩ := h.exists_holder hdocument
    have hpos := Text.byteSize_pos htail
    exact ⟨holder, hholder, hkind, hlt, by omega⟩

end Around

/-- A block comment goes on after the caret if what is before the caret is one without its end. -/
theorem Holds.blockComment_iff {last : Lexeme}
    (h : Holds before after front lexeme back head tail)
    (hlast : Remains lexeme head tail last) (hmark : head ≠ ['/']) :
    lexeme.kind = .blockComment ∧ tail ≠ [] ↔
      after ≠ [] ∧ last.kind = .blockComment ∧
        ∃ inside, last.text = '/' :: '*' :: inside ∧ NoEnd inside := by
  have hafter : tail ≠ [] → after ≠ [] := by
    intro htail hnil
    rw [h.after_eq] at hnil
    exact htail (List.append_eq_nil_iff.mp hnil).1
  cases hlast with
  | whole =>
      refine iff_of_false (fun hinside => hinside.2 rfl) ?_
      rintro ⟨hne, _, inside, htext, hend⟩
      exact hne (h.after_eq.trans (h.first.eq_nil_of_noEnd htext hend))
  | opened htail _ hopen =>
      constructor
      · rintro ⟨hkind, _⟩
        have hopenKind := openKind_eq_blockComment_iff.mpr hkind
        refine ⟨hafter htail, hopenKind, ?_⟩
        rcases hopen with hstring | hline | ⟨_, hinside⟩
        · rw [hopenKind] at hstring
          cases hstring
        · rw [hopenKind] at hline
          cases hline
        · exact hinside
      · rintro ⟨_, hkind, _⟩
        exact ⟨openKind_eq_blockComment_iff.mp hkind, htail⟩
  | plain htail hplain _ hcomment =>
      constructor
      · rintro ⟨hkind, _⟩
        exact absurd (hcomment (by rw [hkind]; rfl)) hmark
      · rintro ⟨_, hkind, _⟩
        rw [hkind] at hplain
        cases hplain

/-- A block comment that starts on the line before the caret has its opening mark there. -/
theorem Holds.infix_of_blockComment {earlier line : Text}
    (h : Holds before after front lexeme back head tail) (hkind : lexeme.kind = .blockComment)
    (hbefore : before = earlier ++ line ++ ['\n'])
    (hstart : earlier.byteSize ≤ (joined front).byteSize) : ['/', '*'] <:+: line := by
  have hnewline : head.getLast? = some '\n' := by
    rw [h.getLast?_head, hbefore, List.getLast?_concat]
  have hopens := h.first.opens (by rw [hkind]; rfl)
  rw [hkind, h.text_eq] at hopens
  obtain ⟨start, rfl⟩ := List.getLast?_eq_some_iff.mp hnewline
  have hline : ∃ middle, line = middle ++ start := by
    rw [h.before_eq, List.append_assoc] at hbefore
    obtain ⟨middle, _, hrest⟩ := Text.exists_append_of_byteSize_le hbefore.symm hstart
    rw [← List.append_assoc] at hrest
    exact ⟨middle, List.append_cancel_right hrest⟩
  obtain ⟨middle, rfl⟩ := hline
  -- Neither character of the mark is a newline, so that both are in front of it.
  rcases start with _ | ⟨c, _ | ⟨d, rest⟩⟩
  · cases hopens
  · cases hopens
  · cases hopens
    exact ⟨middle, rest, by simp⟩

end Caret

/-- A block comment is around a caret after a newline if the text before the caret stops in one and
goes on. -/
theorem exists_around_iff_lastToken {before after : Text} {document : Document Kind}
    {tokens : TokenList Kind} (hdocument : Document.protobuf (before ++ after) = .ok document)
    (htokens : tokenize before = .ok tokens) (hnewline : before.getLast? = some '\n') :
    (∃ token ∈ document.tokens, token.kind = .blockComment ∧
        token.span.start < before.byteSize ∧ before.byteSize < token.span.stop) ↔
      after ≠ [] ∧ ∃ token, lastToken? tokens = some token ∧ lacksEnd before token := by
  have hne : before ≠ [] := by
    rintro rfl
    cases hnewline
  obtain ⟨front, lexeme, back, head, tail, hholds⟩ := exists_holds after hne
  obtain ⟨others, last, hlexemes, hremains⟩ := hholds.exists_last
  obtain ⟨token, hlast, hoccurs⟩ := exists_lastToken? htokens hlexemes
  have hmark : head ≠ ['/'] := by
    rintro rfl
    rw [← hholds.getLast?_head] at hnewline
    cases hnewline
  rw [hholds.exists_around_iff hdocument, hholds.blockComment_iff hremains hmark,
    ← hoccurs.lacksEnd_iff, hlast]
  simp only [Option.some.injEq, exists_eq_left']

end Protobuf

/-! ## The column below a comment -/

theorem columnBelow_eq_succ_iff {style : IndentStyle} {above : Line} {base column : Nat}
    (hbase : indentWidth style above.indentation = .ok base)
    (hcolumn : columnBelow style above = .ok column) (hbrace : above.endsWithOpenBrace = false) :
    column = base + 1 ↔ ['/', '*'] <:+: above.text := by
  rw [← Line.hasCommentStart_iff]
  unfold columnBelow at hcolumn
  rw [hbase, hbrace] at hcolumn
  change (if above.hasCommentStart then Word.add base 1 else
    if above.hasCommentEnd then .ok (base - 1) else .ok base) = _ at hcolumn
  split at hcolumn
  · rename_i hstart
    exact iff_of_true (Word.add_eq_ok_iff.mp hcolumn).1 hstart
  · rename_i hstart
    refine iff_of_false ?_ hstart
    split at hcolumn
    · cases hcolumn
      omega
    · cases hcolumn
      omega

namespace Document

open Protobuf

/-- A line is inside a block comment if the text before it stops in one and goes on. If the line
above has no brace at its end, the extra column is given below each opening mark, be the line in a
comment or not, and so to the second line of each comment. -/
theorem reindent_comment_column {text : Text} {document : Document Kind} {offset : Nat}
    {style : IndentStyle} {change : Reindentation}
    (hdocument : Document.protobuf text = .ok document)
    (hchange : document.reindent offset style = .ok (some change)) :
    ∃ above base before after tokens,
      document.lineAt (change.line.start - 1) = .ok above ∧
      indentWidth style above.indentation = .ok base ∧
      text = before ++ after ∧ before.byteSize = change.line.start ∧
      tokenize before = .ok tokens ∧
      ((∃ token ∈ document.tokens, token.kind = .blockComment ∧
          token.span.start < change.line.start ∧ change.line.start < token.span.stop) ↔
        after ≠ [] ∧ ∃ token, lastToken? tokens = some token ∧ lacksEnd before token) ∧
      (above.endsWithOpenBrace = false →
        (change.column = base + 1 ↔ ['/', '*'] <:+: above.text) ∧
        ∀ token ∈ document.tokens, token.kind = .blockComment →
          above.start ≤ token.span.start → token.span.start < change.line.start →
          change.line.start < token.span.stop → change.column = base + 1) := by
  obtain ⟨htokenize, htext, _⟩ := Document.protobuf_eq_ok_iff.mp hdocument
  obtain ⟨_, front, above, back, hlines, hcolumn, _⟩ := exists_split_of_reindent hchange
  obtain ⟨base, hbase, _⟩ := Fault.bind_eq_ok_iff.mp hcolumn
  obtain ⟨hstart, _⟩ := adjacent_of_split hlines
  have habove : document.lineAt (change.line.start - 1) = .ok above := by
    rw [hstart, Nat.add_sub_cancel]
    exact lineAt_stop hlines
  -- The line starts after all lines before it and the newline of the last of them.
  let earlier := Text.ended (front.map (·.text))
  let before := earlier ++ above.text ++ ['\n']
  let after := change.line.text ++ Text.begun (back.map (·.text))
  have hsplit : text = before ++ after := by
    rw [← htext, text_of_split hlines, List.map_cons, Text.begun]
    simp [before, after, earlier]
  have hearlier : earlier.byteSize = above.start := by
    have hfirst := (fields_of_numberLines hlines).2.1
    change (Text.ended (front.map (·.text))).byteSize = above.start
    rw [Text.byteSize_ended]
    omega
  have hbefore : before.byteSize = change.line.start := by
    have hnewline : Text.byteSize ['\n'] = 1 := by decide
    have hstop := (fields_of_numberLines hlines).2.2
    rw [Text.byteSize_append, Text.byteSize_append]
    omega
  have hnewline : before.getLast? = some '\n' := List.getLast?_concat
  rw [hsplit] at hdocument htokenize
  obtain ⟨tokens, htokens⟩ := exists_tokenize_iff.mpr
    ((exists_tokenize_iff.mp ⟨_, htokenize⟩).of_sublist (List.sublist_append_left before after))
  have haround := exists_around_iff_lastToken hdocument htokens hnewline
  rw [hbefore] at haround
  refine ⟨above, base, before, after, tokens, habove, hbase, hsplit, hbefore, htokens, haround,
    fun hbrace => ?_⟩
  have hmark := columnBelow_eq_succ_iff hbase hcolumn hbrace
  refine ⟨hmark, fun token hmem hkind hfirst hbelow hgoes => hmark.mpr ?_⟩
  obtain ⟨lexemes, lexeme, later, head, tail, hholds⟩ :=
    exists_holds after (List.append_ne_nil_of_right_ne_nil _ (List.cons_ne_nil _ _))
  rw [← hbefore] at hbelow hgoes
  obtain ⟨hlexeme, htokenStart, _⟩ := hholds.of_around hdocument hmem hbelow hgoes
  exact hholds.infix_of_blockComment (hlexeme.symm.trans hkind) rfl (by omega)

-- Of the two opening marks on the line above, one is in a string.
theorem reindent_comment_column_inside :
    ∃ document change,
      Document.protobuf ['"', '/', '*', '"', '/', '*', '\n', 'é', '*', '/'] = .ok document ∧
      document.reindent 7 .standard = .ok (some change) ∧ change.column = 1 ∧
      ∃ token ∈ document.tokens, token.kind = .blockComment ∧
        token.span.start < change.line.start ∧ change.line.start < token.span.stop := by
  have hsize : Text.byteSize ['"', '/', '*', '"', '/', '*', '\n', 'é', '*', '/'] + 1 <
      Word.bound := by decide
  have hvalue : tokenize ['"', '/', '*', '"', '/', '*', '\n'] = .ok
      #[⟨.strLit, ⟨0, 4, by decide, by decide⟩, 1, 0⟩,
        ⟨.blockComment, ⟨4, 7, by decide, by decide⟩, 1, 4⟩,
        ⟨.eof, ⟨7, 7, by decide, by decide⟩, 2, 0⟩] := by cbv
  obtain ⟨_, document, _, _, hdocument, htext, _⟩ := Protobuf.exists_document hsize
  obtain ⟨change, hchange, hstart, hcolumn⟩ : ∃ change,
      document.reindent 7 .standard = .ok (some change) ∧ change.line.start = 7 ∧
        change.column = 1 := by
    cases document
    cases htext
    exact ⟨_, rfl, rfl, rfl⟩
  obtain ⟨above, base, before, after, tokens, _, _, hsplit, hbefore, htokens, haround, _⟩ :=
    reindent_comment_column hdocument hchange
  have hcut := Text.splitAt?_eq_some_iff.mpr ⟨hsplit, hbefore⟩
  rw [hstart] at hcut
  cases hcut
  rw [hvalue, Except.ok.injEq] at htokens
  subst htokens
  exact ⟨document, change, hdocument, hchange, hcolumn,
    haround.mpr ⟨List.cons_ne_nil _ _, _, rfl, by decide⟩⟩

/-- The column is given after a comment that ends on the line where it starts. -/
theorem reindent_after_closed_comment :
    ∃ document change above,
      Document.protobuf ['/', '*', '*', '/', '\n', 'a'] = .ok document ∧
      document.reindent 5 .standard = .ok (some change) ∧
      document.lineAt (change.line.start - 1) = .ok above ∧ above.endsWithOpenBrace = false ∧
      indentWidth .standard above.indentation = .ok 0 ∧ change.column = 1 ∧
      ∀ token ∈ document.tokens, ¬ (token.kind = .blockComment ∧
        token.span.start < change.line.start ∧ change.line.start < token.span.stop) := by
  have hsize : Text.byteSize ['/', '*', '*', '/', '\n', 'a'] + 1 < Word.bound := by decide
  have hvalue : tokenize ['/', '*', '*', '/', '\n', 'a'] = .ok
      #[⟨.blockComment, ⟨0, 4, by decide, by decide⟩, 1, 0⟩,
        ⟨.newline, ⟨4, 5, by decide, by decide⟩, 1, 4⟩,
        ⟨.ident, ⟨5, 6, by decide, by decide⟩, 2, 0⟩,
        ⟨.eof, ⟨6, 6, by decide, by decide⟩, 2, 1⟩] := by cbv
  obtain ⟨_, document, _, _, hdocument, htext, _⟩ := Protobuf.exists_document hsize
  have hsame := hvalue.symm.trans (Document.protobuf_eq_ok_iff.mp hdocument).1
  rw [Except.ok.injEq] at hsame
  obtain ⟨change, above, hchange, hstart, hcolumn, habove, hbrace, hwidth⟩ : ∃ change above,
      document.reindent 5 .standard = .ok (some change) ∧ change.line.start = 5 ∧
        change.column = 1 ∧ document.lineAt 4 = .ok above ∧ above.endsWithOpenBrace = false ∧
        indentWidth .standard above.indentation = .ok 0 := by
    cases document
    cases htext
    exact ⟨_, _, rfl, rfl, rfl, rfl, rfl, rfl⟩
  refine ⟨document, change, above, hdocument, hchange, ?_, hbrace, hwidth, hcolumn, ?_⟩
  · rw [hstart]
    exact habove
  · rw [← hsame, hstart]
    decide

end Document

end Keystroke
