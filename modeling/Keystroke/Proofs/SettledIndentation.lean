import Mathlib
import Keystroke.Proofs.CaretContext
import Keystroke.Proofs.IndentColumns
import Keystroke.Session

/-!
# Settled indentation

A reindentation gives one line or two another indentation and leaves all other lines alone
(`lines_indent`). The line above is among these, and all marks that a reindentation looks for can be
seen. So the same column is found once more, for the same lines, which have it by now
(`reindent_settles`).
-/

namespace Keystroke

open Document Protobuf

/-! ## The texts of the lines after a reindentation -/

def Reindentation.textOf (change : Reindentation) (line : Line) : Text :=
  if line = change.line ∨ change.closing? = some line then line.text.indented change.column
  else line.text

namespace Reindentation

variable {change : Reindentation} {line : Line}

theorem textOf_line : change.textOf change.line = change.line.text.indented change.column :=
  if_pos (.inl rfl)

theorem textOf_closing (h : change.closing? = some line) :
    change.textOf line = line.text.indented change.column :=
  if_pos (.inr h)

theorem textOf_other (hline : line ≠ change.line) (hclosing : change.closing? ≠ some line) :
    change.textOf line = line.text :=
  if_neg (not_or.mpr ⟨hline, hclosing⟩)

/-- The lines before the first that changes. -/
theorem textOf_of_number_lt
    (hclosing : ∀ closing, change.closing? = some closing → change.line.number < closing.number)
    (hnumber : line.number < change.line.number) : change.textOf line = line.text := by
  apply textOf_other
  · rintro rfl
    omega
  · intro hline
    have hlt := hclosing line hline
    omega

theorem dropWhile_textOf (change : Reindentation) (line : Line) :
    (change.textOf line).dropWhile Text.isBlank = line.text.dropWhile Text.isBlank := by
  unfold textOf
  split
  · exact Text.dropWhile_indented change.column line.text
  · rfl

end Reindentation

namespace Session

variable {κ : Type} {document : Document κ} {lines : List Line} {line : Line}

/-- Another indentation for one line. The lines before it must be those of the document, since their
sizes are in its offset; the lines after it need not. -/
theorem lines_indentLine (hlines : document.lines = .ok lines) (hmem : line ∈ lines)
    {texts : Line → Text}
    (hkept : ∀ other ∈ lines, other.number ≤ line.number → texts other = other.text)
    {text : Text} (htext : text.lines = lines.map texts) (column : Nat) :
    (indentLine text column line).lines =
      lines.map (Function.update texts line (line.text.indented column)) := by
  have hline := hkept line hmem (Nat.le_refl _)
  obtain ⟨front, back, rfl⟩ := List.append_of_mem hmem
  obtain ⟨hbefore, hafter⟩ := number_lt_of_split hlines
  have hfront : front.map texts = front.map (·.text) :=
    List.map_congr_left fun other hother =>
      hkept other (List.mem_append_left _ hother) (Nat.le_of_lt (hbefore other hother))
  rw [List.map_append, List.map_cons, hfront, hline] at htext
  obtain ⟨hwhole, hfrontLines, hlineLine, hbackLines⟩ := Text.lines_eq_iff.mp htext
  have hresult : indentLine text column line =
      Text.ended (front.map (·.text)) ++ line.text.indented column ++
        Text.begun (back.map texts) := by
    have hstart : line.start = (Text.ended (front.map (·.text))).byteSize := by
      have hstart := (fields_of_numberLines hlines).2.1
      have hsize := Text.byteSize_ended (front.map (·.text))
      omega
    have hsplit : text = Text.ended (front.map (·.text)) ++ line.indentation ++
        (line.text.dropWhile Text.isBlank ++ Text.begun (back.map texts)) := by
      rw [hwhole, List.append_assoc, List.append_assoc, ← List.append_assoc line.indentation,
        Line.indentation, Text.indentation_append]
    unfold indentLine
    rw [hstart, hsplit, Text.splice?_append, Text.indented]
    simp only [Option.getD_some, List.append_assoc]
  -- The numbers tell the other lines from this one.
  have hothers : ∀ other, other.number ≠ line.number →
      Function.update texts line (line.text.indented column) other = texts other := by
    intro other hne
    apply Function.update_of_ne
    rintro rfl
    exact hne rfl
  have hfront' : front.map (Function.update texts line (line.text.indented column)) =
      front.map (·.text) := by
    rw [← hfront]
    exact List.map_congr_left fun other hother =>
      hothers other (Nat.ne_of_lt (hbefore other hother))
  have hback' : back.map (Function.update texts line (line.text.indented column)) =
      back.map texts :=
    List.map_congr_left fun other hother => hothers other (Nat.ne_of_gt (hafter other hother))
  rw [List.map_append, List.map_cons, Function.update_self, hfront', hback']
  exact Text.lines_eq_iff.mpr
    ⟨hresult, hfrontLines, Text.newline_not_mem_indented column hlineLine, hbackLines⟩

theorem lines_indent {change : Reindentation} (hlines : document.lines = .ok lines)
    (hline : change.line ∈ lines)
    (hclosing : ∀ closing, change.closing? = some closing →
      closing ∈ lines ∧ change.line.number < closing.number) (caret : Nat) :
    (indent ⟨document.text, caret⟩ change).text.lines = lines.map change.textOf := by
  have htext := texts_of_lines hlines
  unfold indent
  cases hcase : change.closing? with
  | none =>
      change (indentLine document.text change.column change.line).lines = _
      rw [lines_indentLine hlines hline (fun _ _ _ => rfl) htext]
      apply List.map_congr_left
      intro other _
      by_cases hother : other = change.line
      · rw [hother, Function.update_self, Reindentation.textOf_line]
      · rw [Function.update_of_ne hother, Reindentation.textOf_other hother (by rw [hcase]; nofun)]
  | some closing =>
      obtain ⟨hmem, hnumber⟩ := hclosing closing hcase
      have hbelow := lines_indentLine hlines hmem (fun _ _ _ => rfl) htext change.column
      -- The line below is not among those whose sizes are in the offset of the line.
      have hkept : ∀ other ∈ lines, other.number ≤ change.line.number →
          Function.update (·.text) closing (closing.text.indented change.column) other =
            other.text := by
        intro other _ hle
        apply Function.update_of_ne
        rintro rfl
        omega
      change (indentLine (indentLine document.text change.column closing) change.column
        change.line).lines = _
      rw [lines_indentLine hlines hline hkept hbelow]
      apply List.map_congr_left
      intro other _
      by_cases hother : other = change.line
      · rw [hother, Function.update_self, Reindentation.textOf_line]
      · rw [Function.update_of_ne hother]
        by_cases hbelow : other = closing
        · rw [hbelow, Function.update_self, Reindentation.textOf_closing hcase]
        · rw [Function.update_of_ne hbelow, Reindentation.textOf_other hother]
          rw [hcase]
          exact fun heq => hbelow (Option.some.inj heq).symm

/-- Nothing changes if the lines have their spaces already. -/
theorem text_indent_of_settled {change : Reindentation} (hlines : document.lines = .ok lines)
    (hline : change.line ∈ lines)
    (hclosing : ∀ closing, change.closing? = some closing →
      closing ∈ lines ∧ change.line.number < closing.number)
    (hsettled : ∀ line, line = change.line ∨ change.closing? = some line →
      line.text.indented change.column = line.text) (caret : Nat) :
    (indent ⟨document.text, caret⟩ change).text = document.text := by
  apply Text.lines_injective
  rw [lines_indent hlines hline hclosing, texts_of_lines hlines]
  apply List.map_congr_left
  intro other _
  unfold Reindentation.textOf
  split
  · apply hsettled
    assumption
  · rfl

end Session

/-! ## The same reindentation again -/

namespace Document

variable {κ : Type} {document next : Document κ} {front back settled : List Line}
  {above line : Line}

/-- Lines stay where they are if only lines from there on change. -/
theorem exists_split_of_texts (hlines : document.lines = .ok (front ++ above :: line :: back))
    (hsettled : next.lines = .ok settled) {newLine : Text} {newBack : List Text}
    (htexts : settled.map (·.text) = front.map (·.text) ++ above.text :: newLine :: newBack) :
    ∃ front' above' line' back', settled = front' ++ above' :: line' :: back' ∧
      above'.text = above.text ∧ line'.text = newLine ∧ back'.map (·.text) = newBack ∧
      line'.number = line.number ∧ line'.start = line.start := by
  obtain ⟨front', rest, rfl, hfront, hrest⟩ := List.map_eq_append_iff.mp htexts
  obtain ⟨above', rest, rfl, habove, hrest⟩ := List.map_eq_cons_iff.mp hrest
  obtain ⟨line', back', rfl, hline, hback⟩ := List.map_eq_cons_iff.mp hrest
  have hlength := congrArg List.length hfront
  rw [List.length_map, List.length_map] at hlength
  obtain ⟨hnumber, hstart, hstop⟩ := fields_of_numberLines hlines
  obtain ⟨hnumber', hstart', hstop'⟩ := fields_of_numberLines hsettled
  rw [hfront] at hstart'
  rw [habove] at hstop'
  have hadjacent := adjacent_of_split hlines
  have hadjacent' := adjacent_of_split hsettled
  exact ⟨front', above', line', back', rfl, habove, hline, hback, by omega, by omega⟩

theorem map_textOf {change : Reindentation}
    (hlines : document.lines = .ok (front ++ above :: change.line :: back))
    (hclosing : change.closing? = closingLine? above change.line back) :
    (front ++ above :: change.line :: back).map change.textOf =
      front.map (·.text) ++ above.text :: change.line.text.indented change.column ::
        back.map change.textOf := by
  have hbelow : ∀ closing, change.closing? = some closing →
      change.line.number < closing.number := by
    intro closing hsome
    have hnumber := (closing_of_split hlines (hclosing.symm.trans hsome)).2.2.2
    omega
  have habove := (adjacent_of_split hlines).2
  have hfront : front.map change.textOf = front.map (·.text) := by
    apply List.map_congr_left
    intro other hother
    apply Reindentation.textOf_of_number_lt hbelow
    have hlt := (number_lt_of_split hlines).1 other hother
    omega
  rw [List.map_append, List.map_cons, List.map_cons, hfront,
    Reindentation.textOf_of_number_lt hbelow (by omega), Reindentation.textOf_line]

/-- The line below goes along with a line whose indentation has changed if it did so before. -/
theorem closingLine?_textOf {change : Reindentation} {back' : List Line} {above' line' : Line}
    (hclosing : change.closing? = closingLine? above change.line back)
    (habove : above'.text = above.text) (hline : line'.text = change.textOf change.line)
    (hback : back'.map (·.text) = back.map change.textOf) :
    change.closing? = none ∧ closingLine? above' line' back' = none ∨
      ∃ below below', change.closing? = some below ∧ closingLine? above' line' back' = some below' ∧
        below'.text = below.text.indented change.column := by
  cases back with
  | nil =>
      rw [List.map_eq_nil_iff.mp hback]
      exact .inl ⟨hclosing, rfl⟩
  | cons below rest =>
      obtain ⟨below', rest', rfl, hbelow, _⟩ := List.map_eq_cons_iff.mp hback
      have hstart : above'.hasCommentStart = above.hasCommentStart := by
        rw [Line.hasCommentStart, habove, Line.hasCommentStart]
      have hinterior : line'.isCommentInterior = change.line.isCommentInterior :=
        Line.isCommentInterior_congr (by rw [hline, change.dropWhile_textOf])
      have hend : below'.hasCommentEnd = below.hasCommentEnd :=
        Line.hasCommentEnd_congr (by rw [hbelow, change.dropWhile_textOf])
      unfold closingLine? at hclosing ⊢
      rw [List.head?_cons, Option.filter_some] at hclosing ⊢
      rw [hstart, hinterior, hend]
      split at hclosing
      · rw [Reindentation.textOf_closing hclosing] at hbelow
        exact .inr ⟨below, below', hclosing, if_pos (by assumption), hbelow⟩
      · exact .inl ⟨hclosing, if_neg (by assumption)⟩

/-- The line below starts after a line that has changed in its indentation alone. -/
theorem closing_shift {change : Reindentation} {front' back' : List Line}
    {above' line' below below' : Line}
    (hlines : document.lines = .ok (front ++ above :: change.line :: back))
    (hsettled : next.lines = .ok (front' ++ above' :: line' :: back'))
    (hline : line'.text = change.line.text.indented change.column)
    (hnumber : line'.number = change.line.number) (hstart : line'.start = change.line.start)
    (hbelow : closingLine? above change.line back = some below)
    (hbelow' : closingLine? above' line' back' = some below') :
    (below'.number, below'.start + change.line.indentation.byteSize) =
      (below.number, below.start + change.column) := by
  obtain ⟨_, _, hbelowStart, hbelowNumber⟩ := closing_of_split hlines hbelow
  obtain ⟨_, _, hbelowStart', hbelowNumber'⟩ := closing_of_split hsettled hbelow'
  have hstop := stop_of_mem hlines (by simp : change.line ∈ _)
  have hstop' := stop_of_mem hsettled (by simp : line' ∈ _)
  have hsize := Text.byteSize_indented change.column change.line.text
  rw [← hline] at hsize
  rw [Prod.mk.injEq, Line.indentation]
  constructor <;> omega

/-- A reindentation that is carried out again changes nothing, wherever in the line the caret is. -/
theorem exists_reindent_again {style : IndentStyle} {change : Reindentation} {caret : Nat}
    (hlines : document.lines = .ok (front ++ above :: change.line :: back))
    (hcolumn : columnBelow style above = .ok change.column)
    (hclosing : change.closing? = closingLine? above change.line back)
    (hsettled : next.lines = .ok settled)
    (htexts : settled.map (·.text) = (front ++ above :: change.line :: back).map change.textOf)
    (hline : next.lineAt caret = .ok line) (hnumber : line.number = change.line.number) :
    ∃ again, next.reindent caret style = .ok (some again) ∧ again.line = line ∧
      line.start = change.line.start ∧ again.column = change.column ∧
      again.closing?.map (fun closing =>
          (closing.number, closing.start + change.line.indentation.byteSize)) =
        change.closing?.map (fun closing => (closing.number, closing.start + change.column)) ∧
      (Session.indent ⟨next.text, caret⟩ again).text = next.text := by
  rw [map_textOf hlines hclosing] at htexts
  obtain ⟨front', above', line', back', rfl, habove, hlineText, hback, hnumber', hstart⟩ :=
    exists_split_of_texts hlines hsettled htexts
  have hmem : line' ∈ front' ++ above' :: line' :: back' := by simp
  obtain rfl : line' = line :=
    eq_of_number_eq hsettled (mem_of_lineAt hsettled hline).1 hmem (by omega)
  have hcolumn' : columnBelow style above' = .ok change.column := by
    rw [columnBelow_eq, Line.indentation, habove, ← Line.indentation, ← columnBelow_eq]
    exact hcolumn
  have hreindent := reindent_eq hsettled hline style
  rw [hcolumn'] at hreindent
  have hbelow : ∀ closing, closingLine? above' line' back' = some closing →
      closing ∈ front' ++ above' :: line' :: back' ∧ line'.number < closing.number := by
    intro closing hsome
    obtain ⟨_, hclosingMem, _, hclosingNumber⟩ := closing_of_split hsettled hsome
    exact ⟨by simp [hclosingMem], by omega⟩
  have hboth := closingLine?_textOf hclosing habove
    (hlineText.trans Reindentation.textOf_line.symm) hback
  refine ⟨⟨line', change.column, closingLine? above' line' back'⟩, hreindent, rfl, hstart, rfl, ?_,
    ?_⟩
  · change (closingLine? above' line' back').map _ = _
    rcases hboth with ⟨hnone, hnone'⟩ | ⟨below, below', hsome, hsome', _⟩
    · rw [hnone, hnone']
      rfl
    · rw [hsome, hsome']
      exact congrArg some (closing_shift hlines hsettled hlineText hnumber' hstart
        (hclosing.symm.trans hsome) hsome')
  · -- Both lines have got their spaces before.
    apply Session.text_indent_of_settled hsettled hmem hbelow
    rintro other (hother | hother)
    · rw [hother]
      change Text.indented change.column line'.text = line'.text
      rw [hlineText, Text.indented_indented]
    · change Text.indented change.column other.text = other.text
      rcases hboth with ⟨_, hnone'⟩ | ⟨below, below', _, hsome', hbelowText⟩
      · cases hnone'.symm.trans hother
      · cases hsome'.symm.trans hother
        rw [hbelowText, Text.indented_indented]

/-- The line, and perhaps the one below it, change only in their indentation, and the line then gets
the same column again wherever the caret is in it. -/
theorem reindent_settles {text : Text} {document : Document Kind} {offset : Nat}
    {style : IndentStyle} {change : Reindentation}
    (hdocument : Document.protobuf text = .ok document)
    (hchange : document.reindent offset style = .ok (some change))
    (hsize : (Session.indent ⟨text, offset⟩ change).text.byteSize < 4294967295) :
    document.lineAt offset = .ok change.line ∧
      document.lineAt change.line.start = .ok change.line ∧
      (∀ closing, change.closing? = some closing →
        document.lineAt closing.start = .ok closing ∧
          closing.number = change.line.number + 1) ∧
      ∃ lines next settled, document.lines = .ok lines ∧
        Document.protobuf (Session.indent ⟨text, offset⟩ change).text = .ok next ∧
        next.lines = .ok settled ∧ settled.length = lines.length ∧
        settled.map (·.text) = lines.map (fun line =>
          if line = change.line ∨ change.closing? = some line then
            List.replicate change.column ' ' ++ line.text.dropWhile Text.isBlank
          else line.text) ∧
        (∃ line, next.lineAt change.line.start = .ok line ∧ line.number = change.line.number) ∧
        ∀ caret line, next.lineAt caret = .ok line → line.number = change.line.number →
          ∃ again, next.reindent caret style = .ok (some again) ∧ again.line = line ∧
            line.start = change.line.start ∧ again.column = change.column ∧
            again.closing?.map (fun closing =>
                (closing.number, closing.start + change.line.indentation.byteSize)) =
              change.closing?.map (fun closing =>
                (closing.number, closing.start + change.column)) ∧
            (Session.indent ⟨(Session.indent ⟨text, offset⟩ change).text, caret⟩ again).text =
              (Session.indent ⟨text, offset⟩ change).text := by
  obtain rfl := (Document.protobuf_eq_ok_iff.mp hdocument).2.1
  obtain ⟨hline, front, above, back, hlines, hcolumn, hclosing⟩ := exists_split_of_reindent hchange
  have hmem : change.line ∈ front ++ above :: change.line :: back := by simp
  have hbelow : ∀ closing, change.closing? = some closing →
      document.lineAt closing.start = .ok closing ∧ closing ∈ back ∧
        closing.start = change.line.stop + 1 ∧ closing.number = change.line.number + 1 :=
    fun closing hsome => closing_of_split hlines (hclosing.symm.trans hsome)
  have hresult : (Session.indent ⟨document.text, offset⟩ change).text.lines =
      (front ++ above :: change.line :: back).map change.textOf := by
    apply Session.lines_indent hlines hmem
    intro closing hsome
    obtain ⟨_, hclosingMem, _, hnumber⟩ := hbelow closing hsome
    exact ⟨by simp [hclosingMem], by omega⟩
  obtain ⟨_, next, _, _, hnext, hnextText, _⟩ :=
    Protobuf.exists_document (show _ < Word.bound from Nat.succ_lt_succ hsize)
  obtain ⟨settled, hsettled⟩ := next.exists_lines
  have htexts : settled.map (·.text) =
      (front ++ above :: change.line :: back).map change.textOf := by
    rw [← texts_of_lines hsettled, hnextText, hresult]
  have hlength := congrArg List.length htexts
  rw [List.length_map, List.length_map] at hlength
  refine ⟨hline, lineAt_start (List.append_cons _ _ _ ▸ hlines), ?_, _, next, settled, hlines,
    hnext, hsettled, hlength, htexts, ?_, ?_⟩
  · intro closing hsome
    exact ⟨(hbelow closing hsome).1, (hbelow closing hsome).2.2.2⟩
  · rw [map_textOf hlines hclosing] at htexts
    obtain ⟨front', above', line', back', rfl, _, _, _, hnumber, hstart⟩ :=
      exists_split_of_texts hlines hsettled htexts
    rw [List.append_cons] at hsettled
    rw [← hstart]
    exact ⟨line', lineAt_start hsettled, hnumber⟩
  · intro caret line hfound hnumber
    rw [← hnextText]
    exact exists_reindent_again hlines hcolumn hclosing hsettled htexts hfound hnumber

-- A wide space before the star, a tab before the end of the comment.
theorem reindent_settles_comment :
    ∃ document change next again,
      Document.protobuf ['/', '*', '\n', '　', '*', '\n', '\t', '*', '/'] = .ok document ∧
      document.reindent 3 .standard = .ok (some change) ∧
      (Session.indent ⟨['/', '*', '\n', '　', '*', '\n', '\t', '*', '/'], 3⟩ change).text =
        ['/', '*', '\n', ' ', '*', '\n', ' ', '*', '/'] ∧
      Document.protobuf ['/', '*', '\n', ' ', '*', '\n', ' ', '*', '/'] = .ok next ∧
      next.reindent 3 .standard = .ok (some again) ∧ again.column = 1 ∧
      again.closing?.map (fun closing => (closing.number, closing.start + 3)) = some (3, 9) ∧
      (Session.indent ⟨['/', '*', '\n', ' ', '*', '\n', ' ', '*', '/'], 3⟩ again).text =
        ['/', '*', '\n', ' ', '*', '\n', ' ', '*', '/'] := by
  have hsize : Text.byteSize ['/', '*', '\n', '　', '*', '\n', '\t', '*', '/'] + 1 < Word.bound := by
    decide
  obtain ⟨_, document, _, _, hdocument, htext, _⟩ := Protobuf.exists_document hsize
  obtain ⟨line, closing, hchange, hstart, hindentation, hnumber, hbelow, hresult⟩ :
      ∃ line closing, document.reindent 3 .standard = .ok (some ⟨line, 1, some closing⟩) ∧
        line.start = 3 ∧ line.indentation = ['　'] ∧ closing.number = 3 ∧ closing.start = 8 ∧
        (Session.indent ⟨['/', '*', '\n', '　', '*', '\n', '\t', '*', '/'], 3⟩
          ⟨line, 1, some closing⟩).text = ['/', '*', '\n', ' ', '*', '\n', ' ', '*', '/'] := by
    cases document
    cases htext
    exact ⟨_, _, rfl, rfl, rfl, rfl, rfl, rfl⟩
  obtain ⟨_, _, _, _, next, _, _, hnext, _, _, _, ⟨found, hfound, hfoundNumber⟩, hagain⟩ :=
    reindent_settles hdocument hchange (by rw [hresult]; decide)
  change next.lineAt line.start = _ at hfound
  rw [hstart] at hfound
  obtain ⟨again, hreindent, _, _, hcolumn, hclosing, hsettled⟩ := hagain 3 found hfound hfoundNumber
  rw [hresult] at hnext hsettled
  change again.closing?.map (fun below => (below.number, below.start + line.indentation.byteSize)) =
    some (closing.number, closing.start + 1) at hclosing
  rw [hnumber, hbelow, hindentation] at hclosing
  exact ⟨document, _, next, again, hdocument, hchange, hresult, hnext, hreindent, hcolumn, hclosing,
    hsettled⟩

end Document

end Keystroke
