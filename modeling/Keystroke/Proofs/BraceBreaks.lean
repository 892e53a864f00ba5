import Mathlib
import Keystroke.Proofs.Indentation
import Keystroke.Proofs.Strokes

/-!
# Line breaks between braces

A line break between an opening brace and a closing one splits their line in two, with an empty line
between the parts: the caret goes to the empty line, and the closing brace stands below it under the
indentation of the line that was split (`layOut_between_braces`). All other lines stay as they were.
-/

namespace Keystroke

/-! ## Lines around the caret -/

namespace Text

/-- The two braces as characters, found by their bytes. -/
theorem exists_braces {text : Text} {offset : Nat} (hpos : 0 < offset)
    (hopen : text.bytes[offset - 1]? = some (asciiByte '\x7b'))
    (hclose : text.bytes[offset]? = some (asciiByte '\x7d')) :
    ∃ before after, text = before ++ '\x7d' :: after ∧ before.byteSize = offset ∧
      before.getLast? = some '\x7b' := by
  rw [getElem?_bytes_eq_iff (by decide), getElem?_cells_eq_iff] at hopen hclose
  obtain ⟨front, rest, hfront, hsize⟩ := hopen
  obtain ⟨before, after, htext, hbefore⟩ := hclose
  have hopened : Text.byteSize (front ++ ['\x7b']) = offset := by
    rw [byteSize_append]
    change front.byteSize + 1 = offset
    omega
  -- The text is cut between the braces in two ways, which are one.
  have hcut : text.splitAt? offset = some (front ++ ['\x7b'], rest) :=
    splitAt?_eq_some_iff.mpr ⟨by rw [hfront, List.append_assoc]; rfl, hopened⟩
  rw [splitAt?_eq_some_iff.mpr ⟨htext, hbefore⟩, Option.some.injEq, Prod.mk.injEq] at hcut
  refine ⟨before, after, htext, hbefore, ?_⟩
  rw [hcut.1, List.getLast?_concat]

theorem getLast?_lastLine {text : Text} {c : Char} (h : text.getLast? = some c) (hc : c ≠ '\n') :
    text.lastLine.getLast? = some c := by
  obtain ⟨front, rfl⟩ := List.getLast?_eq_some_iff.mp h
  have hnone : '\n' ∉ [c] := by
    rw [List.mem_singleton]
    exact hc.symm
  rw [lastLine_append_of_not_mem front hnone, List.getLast?_concat]

/-- The lines around a cut into which two newlines and an indentation are put. -/
theorem exists_lines_block (before after : Text) {blanks : Text} (hblanks : '\n' ∉ blanks) :
    ∃ front : List Text, front.length = before.count '\n' ∧
      linesSize front + before.lastLine.byteSize = before.byteSize ∧
      (before ++ after).lines = front ++ (before.lastLine ++ after.firstLine) :: after.lines.tail ∧
      (before ++ '\n' :: '\n' :: blanks ++ after).lines =
        front ++ before.lastLine :: [] :: (blanks ++ after.firstLine) :: after.lines.tail := by
  obtain ⟨front, hlength, hsize, hlines⟩ := before.exists_lines_append
  refine ⟨front, hlength, hsize, hlines after, ?_⟩
  have hnil : '\n' ∉ ([] : Text) := List.not_mem_nil
  -- Below the cut there are now an empty line and what was after the cut, indented.
  have hbelow : lines ('\n' :: '\n' :: (blanks ++ after)) =
      [] :: [] :: (blanks ++ after.firstLine) :: after.lines.tail := by
    have hfirst := lines_append_newline hnil ('\n' :: (blanks ++ after))
    have hsecond := lines_append_newline hnil (blanks ++ after)
    rw [List.nil_append] at hfirst hsecond
    rw [hfirst, hsecond, lines_append_of_not_mem hblanks]
  have hhead : firstLine ('\n' :: '\n' :: (blanks ++ after)) = [] :=
    firstLine_append_newline hnil ('\n' :: (blanks ++ after))
  rw [List.append_assoc]
  change (before ++ '\n' :: '\n' :: (blanks ++ after)).lines = _
  rw [hlines, hbelow, hhead, List.append_nil, List.tail_cons]

end Text

namespace Document

variable {κ : Type} {document : Document κ}

/-- The line that starts after a newline. -/
theorem exists_lineAt_newline {before after : Text}
    (htext : document.text = before ++ '\n' :: after) :
    ∃ line, document.lineAt (before.byteSize + 1) = .ok line ∧
      line.number = before.count '\n' + 2 ∧
      line.stop = before.byteSize + 1 + after.firstLine.byteSize ∧ line.text = after.firstLine := by
  have hsplit : document.text = before ++ ['\n'] ++ after := by
    rw [htext, List.append_assoc, List.singleton_append]
  have hsize : Text.byteSize (before ++ ['\n']) = before.byteSize + 1 := by
    rw [Text.byteSize_append]
    rfl
  have hlast : Text.lastLine (before ++ ['\n']) = [] := Text.lastLine_append_newline before []
  have hcount : (before ++ ['\n']).count '\n' = before.count '\n' + 1 := by
    rw [List.count_append, List.count_singleton_self]
  obtain ⟨line, hline, hnumber, _, hstop, hlineText⟩ :=
    exists_lineAt (cut_eq_ok_iff.mpr ⟨hsplit, hsize⟩)
  rw [hlast, List.nil_append] at hlineText
  exact ⟨line, hline, by omega, hstop, hlineText⟩

/-- Of the two lines that such an insertion makes, the first is empty. -/
theorem exists_lineAt_block {before after blanks : Text} (hblanks : '\n' ∉ blanks)
    (htext : document.text = before ++ '\n' :: '\n' :: blanks ++ after) :
    ∃ empty below, document.lineAt (before.byteSize + 1) = .ok empty ∧
      empty.number = before.count '\n' + 2 ∧ empty.text = [] ∧
      document.lineAt (empty.stop + 1) = .ok below ∧ below.number = before.count '\n' + 3 ∧
      below.text = blanks ++ after.firstLine := by
  have hempty : document.text = before ++ '\n' :: '\n' :: (blanks ++ after) := by
    rw [htext, List.append_assoc]
    rfl
  have hbelow : document.text = (before ++ ['\n']) ++ '\n' :: (blanks ++ after) := by
    rw [hempty, List.append_assoc, List.singleton_append]
  obtain ⟨empty, hlineAt, hnumber, hstop, hemptyText⟩ := exists_lineAt_newline hempty
  obtain ⟨below, hlineAt', hnumber', _, hbelowText⟩ := exists_lineAt_newline hbelow
  have hnone : Text.firstLine ('\n' :: (blanks ++ after)) = [] := rfl
  have hfirst : Text.firstLine (blanks ++ after) = blanks ++ after.firstLine :=
    List.takeWhile_append_of_pos (Text.ne_newline_of_not_mem hblanks)
  have hsize : Text.byteSize (before ++ ['\n']) + 1 = empty.stop + 1 := by
    rw [hstop, hnone, Text.byteSize_append]
    rfl
  rw [List.count_append, List.count_singleton_self] at hnumber'
  rw [hsize] at hlineAt'
  rw [hnone] at hemptyText
  rw [hfirst] at hbelowText
  exact ⟨empty, below, hlineAt, hnumber, hemptyText, hlineAt', hnumber', hbelowText⟩

end Document

namespace Stroke

variable {κ : Type} {stroke : Stroke κ}

/-! ## The layout of a block -/

/-- Between braces, and in no comment, a line break makes room for a line of its own. -/
theorem layOut_eq_block {line : Line}
    (hline : stroke.document.lineAt stroke.offset = .ok line)
    (hcloses : stroke.document.closesComment stroke.offset = .ok false)
    (hcontinues : stroke.document.continuesComment stroke.offset = .ok false)
    (hbraces : stroke.isBetweenBraces = true) :
    stroke.layOut = .ok { stroke with
      insertion := '\n' :: '\n' :: line.indentation, caret := stroke.offset + 1 } := by
  rw [layOut, hline, hcloses, hcontinues]
  change (if stroke.isBetweenBraces = true then _ else _) = _
  rw [if_pos hbraces]

/-- What is laid out is laid out in the same way again. -/
theorem iterate_layOut {laid : Stroke κ} (hfirst : stroke.layOut = .ok laid)
    (hagain : laid.layOut = .ok laid) (n : Nat) :
    (· >>= layOut)^[n + 1] (.ok stroke) = .ok laid := by
  induction n with
  | zero => exact hfirst
  | succ n ih =>
      rw [Function.iterate_succ_apply', ih]
      exact hagain

theorem exists_layOut_block {document : Document κ} {before after : Text}
    (htext : document.text = before ++ '\x7d' :: after) (hopen : before.getLast? = some '\x7b')
    (hcloses : document.closesComment before.byteSize = .ok false)
    (hcontinues : document.continuesComment before.byteSize = .ok false) :
    ∃ (stroke laid : Stroke κ) (line : Line), enter document before.byteSize = .ok stroke ∧
      document.lineAt before.byteSize = .ok line ∧ line.number = before.count '\n' + 1 ∧
      line.text = before.lastLine ++ '\x7d' :: after.firstLine ∧
      (∀ n, (· >>= layOut)^[n + 1] (.ok stroke) = .ok laid) ∧
      laid.insertion = '\n' :: '\n' :: line.indentation ∧ laid.caret = before.byteSize + 1 ∧
      laid.result = before ++ laid.insertion ++ '\x7d' :: after := by
  obtain ⟨line, hline, hnumber, _, _, hlineText⟩ :=
    Document.exists_lineAt (Document.cut_eq_ok_iff.mpr ⟨htext, rfl⟩)
  -- What is chosen does not depend on what was to be inserted before.
  have hlayOut : ∀ insertion caret,
      layOut ⟨document, before.byteSize, '\n', before, '\x7d' :: after, insertion, caret⟩ =
        .ok ⟨document, before.byteSize, '\n', before, '\x7d' :: after,
          '\n' :: '\n' :: line.indentation, before.byteSize + 1⟩ := by
    intro insertion caret
    apply layOut_eq_block hline hcloses hcontinues
    rw [isBetweenBraces, hopen]
    rfl
  exact ⟨_, _, line, start_eq htext '\n', hline, hnumber, hlineText,
    iterate_layOut (hlayOut _ _) (hlayOut _ _), rfl, rfl, rfl⟩

/-- A line break between braces, outside of comments, splits the line of the braces and puts an
empty line with the caret in between. The second part keeps the indentation of the line. -/
theorem layOut_between_braces (document : Document κ) (offset : Nat) (hpos : 0 < offset)
    (hopen : document.text.bytes[offset - 1]? = some (Text.asciiByte '\x7b'))
    (hclose : document.text.bytes[offset]? = some (Text.asciiByte '\x7d'))
    (hcloses : document.closesComment offset = .ok false)
    (hcontinues : document.continuesComment offset = .ok false) :
    ∃ stroke laid line, enter document offset = .ok stroke ∧ document.lineAt offset = .ok line ∧
      (∀ n, (· >>= layOut)^[n + 1] (.ok stroke) = .ok laid) ∧
      document.text.splice? offset offset laid.insertion = some laid.result ∧
      ∃ (front back : List Text) (head tail : Text),
        line.text = head ++ '\x7d' :: tail ∧ head.getLast? = some '\x7b' ∧
        line.number = front.length + 1 ∧ document.text.lines = front ++ line.text :: back ∧
        laid.result.lines = front ++ head :: [] :: (line.indentation ++ '\x7d' :: tail) :: back ∧
        laid.result.lines.length = document.text.lines.length + 2 ∧
        laid.caret = Text.linesSize (front ++ [head]) ∧
        ∀ {κ' : Type} (next : Document κ'), next.text = laid.result →
          ∃ empty below, next.lineAt laid.caret = .ok empty ∧ empty.number = line.number + 1 ∧
            empty.text = [] ∧ next.lineAt (empty.stop + 1) = .ok below ∧
            below.number = line.number + 2 ∧ below.text = line.indentation ++ '\x7d' :: tail ∧
            below.indentation = line.indentation := by
  obtain ⟨before, after, htext, rfl, hbrace⟩ := Text.exists_braces hpos hopen hclose
  obtain ⟨stroke, laid, line, henter, hline, hnumber, hlineText, hlaid, hinsertion, hcaret,
    hresult⟩ := exists_layOut_block htext hbrace hcloses hcontinues
  have hblanks : '\n' ∉ line.indentation := fun hmem =>
    line.newline_not_mem ((List.takeWhile_prefix Text.isBlank).subset hmem)
  obtain ⟨front, hlength, hfront, hlines, hblock⟩ :=
    Text.exists_lines_block before ('\x7d' :: after) hblanks
  rw [← htext] at hlines
  rw [← hinsertion, ← hresult] at hblock
  refine ⟨stroke, laid, line, henter, hline, hlaid, ?_, front, (Text.lines ('\x7d' :: after)).tail,
    before.lastLine, Text.firstLine after, hlineText, Text.getLast?_lastLine hbrace (by decide),
    by omega, ?_, hblock, ?_, ?_, ?_⟩
  · rw [htext, hresult]
    exact Text.splice?_insert _ _ _
  · rw [hlineText]
    exact hlines
  · rw [hblock, hlines]
    simp only [List.length_append, List.length_cons]
    omega
  · rw [Text.linesSize_append, Text.linesSize_cons, Text.linesSize_nil]
    omega
  · intro κ' next hnext
    rw [hresult, hinsertion] at hnext
    obtain ⟨empty, below, hempty, hemptyNumber, hemptyText, hbelow, hbelowNumber, hbelowText⟩ :=
      Document.exists_lineAt_block hblanks hnext
    rw [hcaret]
    refine ⟨empty, below, hempty, by omega, hemptyText, hbelow, by omega, hbelowText, ?_⟩
    -- The indentation ends at the closing brace.
    rw [Line.indentation, hbelowText]
    apply Text.indentation_blank_append fun _ => Text.isBlank_of_mem_indentation
    intro c hc
    cases hc
    decide

-- The line is indented by a tab and a space of two bytes.
theorem layOut_between_indented_braces :
    ∃ document stroke laid line next empty below,
      Document.protobuf ['a', '\n', '\t', '\u00a0', '\x7b', '\x7d'] = .ok document ∧
      document.closesComment 6 = .ok false ∧ document.continuesComment 6 = .ok false ∧
      enter document 6 = .ok stroke ∧ document.lineAt 6 = .ok line ∧ stroke.layOut = .ok laid ∧
      laid.result = ['a', '\n', '\t', '\u00a0', '\x7b', '\n', '\n', '\t', '\u00a0', '\x7d'] ∧
      Document.protobuf laid.result = .ok next ∧ next.lineAt laid.caret = .ok empty ∧
      empty.number = line.number + 1 ∧ empty.text = [] ∧ next.lineAt (empty.stop + 1) = .ok below ∧
      below.number = line.number + 2 ∧ below.indentation = line.indentation := by
  have hvalue : (Document.protobuf ['a', '\n', '\t', '\u00a0', '\x7b', '\x7d'] >>= fun document =>
      enter document 6 >>= fun stroke => stroke.layOut >>= fun laid => .ok laid.result) =
        .ok ['a', '\n', '\t', '\u00a0', '\x7b', '\n', '\n', '\t', '\u00a0', '\x7d'] := by cbv
  have hcloses : (Document.protobuf ['a', '\n', '\t', '\u00a0', '\x7b', '\x7d'] >>= fun document =>
      document.closesComment 6) = .ok false := by cbv
  have hcontinues : (Document.protobuf ['a', '\n', '\t', '\u00a0', '\x7b', '\x7d'] >>=
      fun document => document.continuesComment 6) = .ok false := by cbv
  have hsize : Text.byteSize ['a', '\n', '\t', '\u00a0', '\x7b', '\x7d'] + 1 < Word.bound := by
    decide
  obtain ⟨_, document, _, _, hdocument, htext, _⟩ := Protobuf.exists_document hsize
  rw [hdocument] at hvalue hcloses hcontinues
  obtain ⟨stroke, laid, line, henter, hline, hlaid, _, _, _, _, _, _, _, _, _, _, _, _, hnext⟩ :=
    layOut_between_braces document 6 (by decide) (by rw [htext]; decide) (by rw [htext]; decide)
      hcloses hcontinues
  have hlayOut : stroke.layOut = .ok laid := hlaid 0
  have hresult : laid.result =
      ['a', '\n', '\t', '\u00a0', '\x7b', '\n', '\n', '\t', '\u00a0', '\x7d'] := by
    change (enter document 6 >>= fun stroke => stroke.layOut >>= fun laid => .ok laid.result) = _
      at hvalue
    rw [henter] at hvalue
    change (stroke.layOut >>= fun laid => .ok laid.result) = _ at hvalue
    rw [hlayOut] at hvalue
    exact Except.ok.inj hvalue
  have hresultSize : laid.result.byteSize + 1 < Word.bound := by
    rw [hresult]
    decide
  obtain ⟨_, next, _, _, hprotobuf, hnextText, _⟩ := Protobuf.exists_document hresultSize
  obtain ⟨empty, below, hempty, hnumber, hemptyText, hbelow, hnumber', _, hindentation⟩ :=
    hnext next hnextText
  exact ⟨document, stroke, laid, line, next, empty, below, hdocument, hcloses, hcontinues, henter,
    hline, hlayOut, hresult, hprotobuf, hempty, hnumber, hemptyText, hbelow, hnumber', hindentation⟩

end Stroke

end Keystroke
