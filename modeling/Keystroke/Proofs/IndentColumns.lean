import Mathlib
import Keystroke.Indent.Reindentation
import Keystroke.Proofs.DocumentLines
import Keystroke.Proofs.Indentation

/-!
# Columns of lines

The column to which a line is indented is counted in 32-bit numbers, one white space after the
other. The outcome is that of counting in the natural numbers, or an overflow if that is out of
range (`columnBelow_eq`). So a reindentation is decided by three lines that follow on one another
(`reindent_exact`).
-/

namespace Keystroke

/-! ## What decides a reindentation -/

namespace Document

variable {κ : Type} {document : Document κ} {offset : Nat} {lines front back : List Line}
  {above line : Line}

/-- The line below two lines, if these are the first of a comment and one after it, and the comment
ends there. -/
def closingLine? (above line : Line) (back : List Line) : Option Line :=
  back.head?.filter fun below =>
    above.hasCommentStart && line.isCommentInterior && below.hasCommentEnd

theorem reindent_eq (hlines : document.lines = .ok (front ++ above :: line :: back))
    (hline : document.lineAt offset = .ok line) (style : IndentStyle) :
    document.reindent offset style =
      (columnBelow style above).map fun column =>
        some ⟨line, column, closingLine? above line back⟩ := by
  obtain ⟨hstart, hnumber⟩ := adjacent_of_split hlines
  have habove : document.lineAt (line.start - 1) = .ok above := by
    rw [hstart, Nat.add_sub_cancel]
    exact lineAt_stop hlines
  have hne : line.number ≠ 1 := by
    have hpos := above.number_pos
    omega
  rw [List.append_cons] at hlines
  have hsize := size_of_split hlines
  unfold reindent
  rw [hline]
  change (if line.number = 1 then _ else document.lineAt (line.start - 1) >>= _) = _
  rw [if_neg hne, habove]
  change (columnBelow style above >>= _) = _
  cases columnBelow style above with
  | error fault => rfl
  | ok column =>
      change (if _ then _ else _) = Except.ok (some (Reindentation.mk line column _))
      cases back with
      | nil =>
          -- The text ends with the line, so that no line is looked up below it.
          rw [List.map_nil, Text.linesSize_nil] at hsize
          have hlast : ¬ line.stop < document.size := by omega
          rw [decide_eq_false hlast, Bool.and_false]
          rfl
      | cons below back =>
          have hbelow : document.lineAt (line.stop + 1) = .ok below := by
            rw [← (adjacent_of_split hlines).1]
            rw [List.append_cons] at hlines
            exact lineAt_start hlines
          rw [List.map_cons, Text.linesSize_cons] at hsize
          have hmore : line.stop < document.size := by omega
          rw [decide_eq_true hmore, Bool.and_true, hbelow, closingLine?, List.head?_cons,
            Option.filter_some]
          cases above.hasCommentStart && line.isCommentInterior with
          | false => rfl
          | true => rfl

theorem reindent_first (hline : document.lineAt offset = .ok line) (hnumber : line.number = 1)
    (style : IndentStyle) : document.reindent offset style = .ok none := by
  unfold reindent
  rw [hline]
  change (if line.number = 1 then _ else _) = _
  rw [if_pos hnumber]

/-- A reindentation comes from the line above and the lines from its own on. -/
theorem exists_split_of_reindent {style : IndentStyle} {change : Reindentation}
    (hchange : document.reindent offset style = .ok (some change)) :
    document.lineAt offset = .ok change.line ∧
      ∃ front above back, document.lines = .ok (front ++ above :: change.line :: back) ∧
        columnBelow style above = .ok change.column ∧
        change.closing? = closingLine? above change.line back := by
  obtain ⟨line, hline, _⟩ := Fault.bind_eq_ok_iff.mp hchange
  obtain ⟨lines, hlines⟩ := document.exists_lines
  have hnumber : line.number ≠ 1 := by
    intro hnumber
    rw [reindent_first hline hnumber] at hchange
    cases hchange
  obtain ⟨front, above, back, rfl⟩ := exists_above hlines (mem_of_lineAt hlines hline).1 hnumber
  rw [reindent_eq hlines hline] at hchange
  cases hcolumn : columnBelow style above with
  | error fault =>
      rw [hcolumn] at hchange
      cases hchange
  | ok column =>
      rw [hcolumn] at hchange
      cases hchange
      exact ⟨hline, front, above, back, hlines, hcolumn, rfl⟩

end Document

/-! ## Marks on a line -/

namespace Line

variable {line : Line}

theorem endsWithOpenBrace_iff :
    line.endsWithOpenBrace = true ↔ (line.text.rdropWhile Text.isBlank).getLast? = some '\x7b' := by
  unfold endsWithOpenBrace Text.lastVisible?
  rw [beq_iff_eq, List.find?_eq_head?_dropWhile_not, List.rdropWhile, List.getLast?_reverse]
  simp only [Bool.not_not]

theorem hasCommentStart_iff : line.hasCommentStart = true ↔ ['/', '*'] <:+: line.text :=
  Text.includes_iff

theorem hasCommentEnd_iff : line.hasCommentEnd = true ↔ ['*', '/'] <:+: line.text :=
  Text.includes_iff

theorem isCommentInterior_iff :
    line.isCommentInterior = true ↔
      '*' ∈ line.text ∧ ¬ ['/', '*'] <:+: line.text ∧ ¬ ['*', '/'] <:+: line.text := by
  unfold isCommentInterior
  rw [Bool.and_eq_true, Bool.and_eq_true, List.contains_iff_mem, Bool.not_eq_true',
    Bool.not_eq_true', ← Bool.not_eq_true, ← Bool.not_eq_true, hasCommentStart_iff,
    hasCommentEnd_iff, and_assoc]

/-! All marks can be seen, so that the white space at the start of the line does not matter. -/

theorem commentStart_congr {text other : Text}
    (h : other.dropWhile Text.isBlank = text.dropWhile Text.isBlank) :
    ['/', '*'] <:+: other ↔ ['/', '*'] <:+: text := by
  apply Text.infix_iff_of_dropWhile_eq _ h
  rw [List.forall_mem_cons, List.forall_mem_singleton]
  decide

theorem commentEnd_congr {text other : Text}
    (h : other.dropWhile Text.isBlank = text.dropWhile Text.isBlank) :
    ['*', '/'] <:+: other ↔ ['*', '/'] <:+: text := by
  apply Text.infix_iff_of_dropWhile_eq _ h
  rw [List.forall_mem_cons, List.forall_mem_singleton]
  decide

theorem hasCommentEnd_congr {other : Line}
    (h : other.text.dropWhile Text.isBlank = line.text.dropWhile Text.isBlank) :
    other.hasCommentEnd = line.hasCommentEnd := by
  rw [Bool.eq_iff_iff, hasCommentEnd_iff, hasCommentEnd_iff, commentEnd_congr h]

theorem isCommentInterior_congr {other : Line}
    (h : other.text.dropWhile Text.isBlank = line.text.dropWhile Text.isBlank) :
    other.isCommentInterior = line.isCommentInterior := by
  have hstar : '*' ∈ other.text ↔ '*' ∈ line.text := Text.mem_iff_of_dropWhile_eq (by decide) h
  rw [Bool.eq_iff_iff, isCommentInterior_iff, isCommentInterior_iff, hstar, commentStart_congr h,
    commentEnd_congr h]

end Line

/-! ## Widths and columns -/

namespace Text

/-- The columns that some white space takes, if a tab takes `width` of them. -/
def columns (width : Nat) (blanks : Text) : Nat :=
  (blanks.map fun c => if c = '\t' then width else 1).sum

def columnUnder (width : Nat) (above : Text) : Nat :=
  let base := columns width (above.takeWhile isBlank)
  if (above.rdropWhile isBlank).getLast? = some '\x7b' then base + width
  else if ['/', '*'] <:+: above then base + 1
  else if ['*', '/'] <:+: above then base - 1
  else base

end Text

/-- Adding one width after the other is adding their sum: no part of it is out of range alone. -/
theorem foldlM_add_eq (style : IndentStyle) (blanks : Text) {width : Nat}
    (hwidth : width < Word.bound) :
    blanks.foldlM (fun width c => Word.add width (if c = '\t' then style.width else 1)) width =
      Word.add width (blanks.columns style.width) := by
  induction blanks generalizing width with
  | nil => exact (if_pos hwidth).symm
  | cons c blanks ih =>
      have hsum : Text.columns style.width (c :: blanks) =
          (if c = '\t' then style.width else 1) + Text.columns style.width blanks := rfl
      rw [List.foldlM_cons, hsum]
      generalize (if c = '\t' then style.width else 1) = step
      by_cases hstep : width + step < Word.bound
      · rw [Word.add, if_pos hstep]
        change blanks.foldlM _ (width + step) = _
        rw [ih hstep, Word.add, Word.add, Nat.add_assoc]
      · -- The sum only grows from here.
        have htotal : ¬ width + (step + Text.columns style.width blanks) < Word.bound := by omega
        rw [Word.add, Word.add, if_neg hstep, if_neg htotal]
        rfl

theorem indentWidth_eq (style : IndentStyle) (blanks : Text) :
    indentWidth style blanks =
      if blanks.columns style.width < Word.bound then .ok (blanks.columns style.width)
      else .error .addOverflow := by
  unfold indentWidth
  rw [foldlM_add_eq style blanks (by decide), Word.add, Nat.zero_add]

/-- The column is the one counted in the natural numbers, if neither it nor the indentation above is
out of range. -/
theorem columnBelow_eq (style : IndentStyle) (above : Line) :
    columnBelow style above =
      if max (above.indentation.columns style.width) (above.text.columnUnder style.width) <
          Word.bound
      then .ok (above.text.columnUnder style.width)
      else .error .addOverflow := by
  have hcolumn : above.text.columnUnder style.width =
      let base := above.indentation.columns style.width
      if above.endsWithOpenBrace then base + style.width
      else if above.hasCommentStart then base + 1
      else if above.hasCommentEnd then base - 1
      else base := by
    simp only [Line.endsWithOpenBrace_iff, Line.hasCommentStart_iff, Line.hasCommentEnd_iff]
    rfl
  unfold columnBelow
  rw [hcolumn, indentWidth_eq]
  generalize above.indentation.columns style.width = base
  by_cases hbase : base < Word.bound
  · rw [if_pos hbase]
    change (if _ then Word.add base style.width else if _ then Word.add base 1 else
      if _ then .ok (base - 1) else .ok base) = _
    split
    · rw [Nat.max_eq_right (Nat.le_add_right base style.width)]
      rfl
    · split
      · rw [Nat.max_eq_right (Nat.le_add_right base 1)]
        rfl
      · split
        · rw [Nat.max_eq_left (Nat.sub_le base 1), if_pos hbase]
        · rw [Nat.max_self, if_pos hbase]
  · -- The width alone is out of range, whatever the line ends with.
    have hmax : ∀ column, ¬ max base column < Word.bound :=
      fun column hlt => hbase (Nat.lt_of_le_of_lt (Nat.le_max_left base column) hlt)
    rw [if_neg hbase, if_neg (hmax _)]
    rfl

/-! ## The reindentation of a line -/

namespace Document

variable {κ : Type}

theorem closingLine?_eq_some_iff {above line below : Line} {back : List Line} :
    closingLine? above line back = some below ↔
      back.head? = some below ∧ ['/', '*'] <:+: above.text ∧
        ('*' ∈ line.text ∧ ¬ ['/', '*'] <:+: line.text ∧ ¬ ['*', '/'] <:+: line.text) ∧
        ['*', '/'] <:+: below.text := by
  unfold closingLine?
  rw [Option.filter_eq_some_iff, Bool.and_eq_true, Bool.and_eq_true, Line.hasCommentStart_iff,
    Line.isCommentInterior_iff, Line.hasCommentEnd_iff, and_assoc]

theorem closing_of_split {document : Document κ} {front back : List Line}
    {above line closing : Line}
    (hlines : document.lines = .ok (front ++ above :: line :: back))
    (hclosing : closingLine? above line back = some closing) :
    document.lineAt closing.start = .ok closing ∧ closing ∈ back ∧
      closing.start = line.stop + 1 ∧ closing.number = line.number + 1 := by
  obtain ⟨rest, rfl⟩ := List.head?_eq_some_iff.mp (closingLine?_eq_some_iff.mp hclosing).1
  rw [List.append_cons] at hlines
  have hadjacent := adjacent_of_split hlines
  rw [List.append_cons] at hlines
  exact ⟨lineAt_start hlines, List.mem_cons_self, hadjacent⟩

/-- The first line is left alone. Any other gets the exact column after the line above it, and takes
the end of a comment below it along, or else a sum is out of range. -/
theorem reindent_exact (document : Document κ) (offset : Nat) (style : IndentStyle)
    (hboundary : document.text.Boundary offset) :
    ∃ line lines, document.lineAt offset = .ok line ∧ document.lines = .ok lines ∧
      (line.number = 1 → document.reindent offset style = .ok none) ∧
      (1 < line.number → ∃ front above back, lines = front ++ above :: line :: back ∧
        line.number = above.number + 1 ∧
        (max (Text.columns style.width (above.text.takeWhile Text.isBlank))
            (above.text.columnUnder style.width) < 4294967296 →
          ∃ closing?, document.reindent offset style =
              .ok (some ⟨line, above.text.columnUnder style.width, closing?⟩) ∧
            ∀ below, closing? = some below ↔
              back.head? = some below ∧ ['/', '*'] <:+: above.text ∧
                ('*' ∈ line.text ∧ ¬ ['/', '*'] <:+: line.text ∧ ¬ ['*', '/'] <:+: line.text) ∧
                ['*', '/'] <:+: below.text) ∧
        (¬ max (Text.columns style.width (above.text.takeWhile Text.isBlank))
            (above.text.columnUnder style.width) < 4294967296 →
          document.reindent offset style = .error .addOverflow ∧
            Fault.addOverflow.message = "attempt to add with overflow")) := by
  obtain ⟨before, after, htext, hoffset⟩ := hboundary
  obtain ⟨lines, hlines⟩ := document.exists_lines
  obtain ⟨line, hmem, hline, _⟩ :=
    exists_lineAt_mem (cut_eq_ok_iff.mpr ⟨htext, hoffset⟩) hlines
  refine ⟨line, lines, hline, hlines, fun hnumber => reindent_first hline hnumber style,
    fun hnumber => ?_⟩
  obtain ⟨front, above, back, rfl⟩ := exists_above hlines hmem (Nat.ne_of_gt hnumber)
  have hreindent := reindent_eq hlines hline style
  rw [columnBelow_eq] at hreindent
  refine ⟨front, above, back, rfl, (adjacent_of_split hlines).2, fun hfits => ?_, fun hover => ?_⟩
  · have hmax : max (above.indentation.columns style.width) (above.text.columnUnder style.width) <
        Word.bound := hfits
    rw [if_pos hmax] at hreindent
    exact ⟨closingLine? above line back, hreindent, fun below => closingLine?_eq_some_iff⟩
  · have hmax : ¬ max (above.indentation.columns style.width) (above.text.columnUnder style.width) <
        Word.bound := hover
    rw [if_neg hmax] at hreindent
    exact ⟨hreindent, rfl⟩

-- A tab of two columns before the comment, and a tab that is one column too wide.
theorem reindent_exact_after_tab :
    Text.Boundary ['\t', '/', '*', '\n', '*', '\n', '*', '/'] 4 ∧
      ∃ document line below,
        Document.protobuf ['\t', '/', '*', '\n', '*', '\n', '*', '/'] = .ok document ∧
        document.reindent 4 ⟨2, by decide⟩ = .ok (some ⟨line, 3, some below⟩) ∧
        document.reindent 4 ⟨4294967295, by decide⟩ = .error .addOverflow := by
  have hboundary : Text.Boundary ['\t', '/', '*', '\n', '*', '\n', '*', '/'] 4 := by decide
  have hsize : Text.byteSize ['\t', '/', '*', '\n', '*', '\n', '*', '/'] + 1 < Word.bound := by
    decide
  obtain ⟨_, document, _, _, hdocument, htext, _⟩ := Protobuf.exists_document hsize
  have hcut : document.cut 4 = .ok (['\t', '/', '*', '\n'], ['*', '\n', '*', '/']) :=
    cut_eq_ok_iff.mpr ⟨htext, rfl⟩
  have hnumber : ∀ {line : Line}, document.lineAt 4 = .ok line → line.number = 2 :=
    fun hline => ((lineAt_eq_ok_iff hcut).mp hline).1
  -- The line is the second of three, so that the lines around it are known.
  have htexts : ∀ {front back : List Line} {above line : Line},
      document.lines = .ok (front ++ above :: line :: back) → document.lineAt 4 = .ok line →
      above.text = ['\t', '/', '*'] ∧ line.text = ['*'] ∧
        ∃ below, back.head? = some below ∧ below.text = ['*', '/'] := by
    intro front back above line hlines hline
    have hsecond := hnumber hline
    have hadjacent := (adjacent_of_split hlines).2
    have hfront := (fields_of_numberLines hlines).1
    have hnil : front = [] := List.eq_nil_of_length_eq_zero (by omega)
    have htexts := texts_of_lines hlines
    rw [hnil, htext] at htexts
    change [['\t', '/', '*'], ['*'], ['*', '/']] = above.text :: line.text :: back.map (·.text)
      at htexts
    rw [List.cons.injEq, List.cons.injEq] at htexts
    obtain ⟨below, hback, hbelow⟩ := List.map_eq_singleton_iff.mp htexts.2.2.symm
    exact ⟨htexts.1.symm, htexts.2.1.symm, below, by rw [hback]; rfl, hbelow⟩
  obtain ⟨line, lines, hline, hlines, _, hexact⟩ :=
    reindent_exact document 4 ⟨2, by decide⟩ (htext ▸ hboundary)
  obtain ⟨front, above, back, rfl, _, hfits, _⟩ :=
    hexact (by have hsecond := hnumber hline; omega)
  obtain ⟨habove, hlineText, below, hhead, hbelow⟩ := htexts hlines hline
  rw [habove, hlineText] at hfits
  obtain ⟨closing?, hreindent, hclosing⟩ := hfits (by decide)
  have hsome : closing? = some below :=
    (hclosing below).mpr ⟨hhead, by decide, by decide, by rw [hbelow]⟩
  obtain ⟨line', lines', hline', hlines', _, hexact'⟩ :=
    reindent_exact document 4 ⟨4294967295, by decide⟩ (htext ▸ hboundary)
  obtain ⟨front', above', back', rfl, _, _, hover⟩ :=
    hexact' (by have hsecond := hnumber hline'; omega)
  have habove' := (htexts hlines' hline').1
  rw [habove'] at hover
  refine ⟨hboundary, document, line, below, hdocument, ?_, (hover (by decide)).1⟩
  rw [hreindent, hsome]
  rfl

end Document

end Keystroke
