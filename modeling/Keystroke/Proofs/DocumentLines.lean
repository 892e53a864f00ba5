import Mathlib
import Keystroke.Document.Lines
import Keystroke.Proofs.TokenPartition

/-!
# Lines of a document

A text is divided at its newlines, and the lines of a document are the parts, with their numbers and
places. There are two more ways to find a line: by an offset, from the text on both sides of it, and
by a walk from each line to the one after it. All three agree (`lines_divide_text`), and so do the
line and column of each token (`tokenize_agrees_with_lines`). What is next to each other in the list
of lines is so in the text (`adjacent_of_split`).
-/

namespace Keystroke

namespace Document

variable {κ : Type} {document : Document κ}

/-! ## Numbered lines -/

theorem numberLines_cons_eq_ok_iff {number start : Nat} {text : Text} {texts : List Text}
    {lines : List Line} :
    numberLines number start (text :: texts) = .ok lines ↔
      ∃ line others, lines = line :: others ∧
        (line.number = number ∧ line.start = start ∧ line.stop = start + text.byteSize ∧
          line.text = text) ∧
        numberLines (number + 1) (line.stop + 1) texts = .ok others := by
  simp only [numberLines, Fault.bind_eq_ok_iff, Line.ofFields_eq_ok_iff, Except.ok.injEq]
  constructor
  · rintro ⟨line, hline, others, hothers, rfl⟩
    exact ⟨line, others, rfl, hline, hothers⟩
  · rintro ⟨line, others, rfl, hline, hothers⟩
    exact ⟨line, hline, others, hothers, rfl⟩

theorem exists_numberLines {number start : Nat} {texts : List Text} (hnumber : 0 < number)
    (hfirst : number = 1 ↔ start = 0) (htexts : ∀ text ∈ texts, '\n' ∉ text) :
    ∃ lines, numberLines number start texts = .ok lines := by
  induction texts generalizing number start with
  | nil => exact ⟨[], rfl⟩
  | cons text texts ih =>
      have htext := htexts text List.mem_cons_self
      have hrest := fun other hmem => htexts other (List.mem_cons_of_mem text hmem)
      obtain ⟨line, hline⟩ : ∃ line : Line, line.number = number ∧ line.start = start ∧
          line.stop = start + text.byteSize ∧ line.text = text :=
        ⟨⟨number, start, start + text.byteSize, text, hnumber, hfirst, Nat.le_add_right _ _, htext⟩,
          rfl, rfl, rfl, rfl⟩
      -- Later lines have neither number 1 nor start 0.
      have hlater : number + 1 = 1 ↔ line.stop + 1 = 0 := by omega
      obtain ⟨others, hothers⟩ := ih (Nat.succ_pos number) hlater hrest
      exact ⟨line :: others,
        numberLines_cons_eq_ok_iff.mpr ⟨line, others, rfl, hline, hothers⟩⟩

/-- Lines with the given texts, numbered on from a number, one after the other from an offset on. -/
structure Numbered (number start : Nat) (texts : List Text) (lines : List Line) : Prop where
  texts_eq : lines.map (·.text) = texts
  numbers_eq : lines.map (·.number) = List.range' number lines.length
  first : ∀ line ∈ lines.head?, line.start = start
  next : lines.IsChain fun line next => next.start = line.stop + 1

theorem numbered_of_numberLines {number start : Nat} {texts : List Text} {lines : List Line}
    (h : numberLines number start texts = .ok lines) : Numbered number start texts lines := by
  induction texts generalizing number start lines with
  | nil =>
      cases h
      exact ⟨rfl, rfl, nofun, .nil⟩
  | cons text texts ih =>
      obtain ⟨line, others, rfl, ⟨hnumber, hstart, _, htext⟩, hothers⟩ :=
        numberLines_cons_eq_ok_iff.mp h
      have hrest := ih hothers
      refine ⟨?_, ?_, ?_, List.isChain_cons.mpr ⟨hrest.first, hrest.next⟩⟩
      · rw [List.map_cons, hrest.texts_eq, htext]
      · rw [List.map_cons, hrest.numbers_eq, List.length_cons, List.range'_succ, hnumber]
      · intro first hhead
        cases hhead
        exact hstart

theorem exists_line_of_numberLines {number start : Nat} {front back : List Text} {text : Text}
    {lines : List Line} (h : numberLines number start (front ++ text :: back) = .ok lines) :
    ∃ line ∈ lines, line.number = number + front.length ∧
      line.start = start + Text.linesSize front ∧
      line.stop = start + Text.linesSize front + text.byteSize ∧ line.text = text := by
  induction front generalizing number start lines with
  | nil =>
      obtain ⟨line, others, rfl, hline, _⟩ := numberLines_cons_eq_ok_iff.mp h
      exact ⟨line, List.mem_cons_self, hline⟩
  | cons first front ih =>
      obtain ⟨earlier, others, rfl, ⟨_, _, hstop, _⟩, hothers⟩ := numberLines_cons_eq_ok_iff.mp h
      obtain ⟨line, hmem, hnumber, hstart, hend, htext⟩ := ih hothers
      refine ⟨line, List.mem_cons_of_mem earlier hmem, ?_, ?_, ?_, htext⟩
      · rw [List.length_cons]
        omega
      · rw [Text.linesSize_cons]
        omega
      · rw [Text.linesSize_cons]
        omega

/-- The number and the place of a line follow from the lines before it. -/
theorem fields_of_numberLines {number start : Nat} {texts : List Text} {front back : List Line}
    {line : Line} (h : numberLines number start texts = .ok (front ++ line :: back)) :
    line.number = number + front.length ∧
      line.start = start + Text.linesSize (front.map (·.text)) ∧
      line.stop = line.start + line.text.byteSize := by
  induction front generalizing number start texts with
  | nil =>
      cases texts with
      | nil => cases h
      | cons text texts =>
          obtain ⟨_, _, hsame, ⟨hnumber, hstart, hstop, htext⟩, _⟩ :=
            numberLines_cons_eq_ok_iff.mp h
          cases hsame
          rw [hstart, hstop, htext]
          exact ⟨hnumber, rfl, rfl⟩
  | cons first front ih =>
      cases texts with
      | nil => cases h
      | cons text texts =>
          obtain ⟨_, _, hsame, ⟨_, hstart, hstop, htext⟩, hothers⟩ :=
            numberLines_cons_eq_ok_iff.mp h
          cases hsame
          obtain ⟨hnumber, hlineStart, hlineStop⟩ := ih hothers
          refine ⟨?_, ?_, hlineStop⟩
          · rw [List.length_cons]
            omega
          · rw [List.map_cons, Text.linesSize_cons, htext]
            omega

instance : IsTrans Line fun line later => line.stop < later.start where
  trans line middle later hline hlater := by
    have hmiddle := middle.start_le_stop
    omega

theorem Numbered.pairwise {number start : Nat} {texts : List Text} {lines : List Line}
    (h : Numbered number start texts lines) :
    lines.Pairwise fun line later => line.stop < later.start := by
  apply List.isChain_iff_pairwise.mp
  apply h.next.imp
  intro line next hnext
  omega

/-- No two lines have an offset in common. -/
theorem Numbered.eq_of_holds {number start offset : Nat} {texts : List Text} {lines : List Line}
    (h : Numbered number start texts lines) {line other : Line} (hline : line ∈ lines)
    (hother : other ∈ lines) (hin : line.start ≤ offset ∧ offset ≤ line.stop)
    (hin' : other.start ≤ offset ∧ offset ≤ other.stop) : other = line := by
  obtain ⟨front, back, rfl⟩ := List.append_of_mem hline
  have hpairwise := h.pairwise
  rw [List.pairwise_append, List.pairwise_cons] at hpairwise
  obtain ⟨_, ⟨hback, _⟩, hfront⟩ := hpairwise
  -- Earlier lines stop before this one starts, and later ones start after it stops.
  rcases List.mem_append.mp hother with hmem | hmem
  · have hlt := hfront other hmem line List.mem_cons_self
    omega
  · rcases List.mem_cons.mp hmem with rfl | hmem
    · rfl
    · have hlt := hback other hmem
      omega

/-! ## The line at an offset -/

section Cut

variable {offset : Nat} {before after : Text} (hcut : document.cut offset = .ok (before, after))

include hcut

theorem lineAt_eq_ok_iff {line : Line} :
    document.lineAt offset = .ok line ↔
      line.number = before.count '\n' + 1 ∧
        line.start = offset - before.lastLine.byteSize ∧
        line.stop = offset + after.firstLine.byteSize ∧
        line.text = before.lastLine ++ after.firstLine := by
  rw [lineAt, hcut]
  show Line.ofFields (before.count '\n' + 1) (offset - before.lastLine.byteSize)
    (offset + after.firstLine.byteSize) (before.lastLine ++ after.firstLine) = .ok line ↔ _
  exact Line.ofFields_eq_ok_iff

theorem exists_lineAt :
    ∃ line, document.lineAt offset = .ok line ∧
      line.number = before.count '\n' + 1 ∧
      line.start = offset - before.lastLine.byteSize ∧
      line.stop = offset + after.firstLine.byteSize ∧
      line.text = before.lastLine ++ after.firstLine := by
  have hsize := (cut_eq_ok_iff.mp hcut).2
  have hle := before.byteSize_lastLine_le
  -- Only the first line starts at 0: any other starts after a newline.
  have hfirst : before.count '\n' + 1 = 1 ↔ offset - before.lastLine.byteSize = 0 := by
    have hnone : before.count '\n' = 0 ↔ '\n' ∉ before := List.count_eq_zero
    have hwhole := before.byteSize_lastLine_eq_iff
    rw [← hwhole] at hnone
    omega
  have hnewline : '\n' ∉ before.lastLine ++ after.firstLine := by
    intro hmem
    rcases List.mem_append.mp hmem with hmem | hmem
    · exact before.newline_not_mem_lastLine hmem
    · exact after.newline_not_mem_firstLine hmem
  refine ⟨⟨before.count '\n' + 1, offset - before.lastLine.byteSize,
    offset + after.firstLine.byteSize, before.lastLine ++ after.firstLine, Nat.succ_pos _, hfirst,
    by omega, hnewline⟩, ?_, rfl, rfl, rfl, rfl⟩
  exact (lineAt_eq_ok_iff hcut).mpr ⟨rfl, rfl, rfl, rfl⟩

theorem slice?_of_lineAt {line : Line} (h : document.lineAt offset = .ok line) :
    document.text.slice? line.start line.stop = some line.text := by
  obtain ⟨_, hstart, hstop, htext⟩ := (lineAt_eq_ok_iff hcut).mp h
  obtain ⟨hwhole, hoffset⟩ := cut_eq_ok_iff.mp hcut
  obtain ⟨head, hbefore, _⟩ := before.exists_append_lastLine
  have hafter : after.firstLine ++ after.dropWhile (· ≠ '\n') = after :=
    List.takeWhile_append_dropWhile
  -- The cut is inside the line: its start ends the part before, its end begins the part after.
  have hdocument : document.text =
      head ++ (before.lastLine ++ after.firstLine) ++ after.dropWhile (· ≠ '\n') := by
    rw [List.append_assoc, List.append_assoc, hafter, ← List.append_assoc, ← hbefore, hwhole]
  have hsize := congrArg Text.byteSize hbefore
  rw [Text.byteSize_append] at hsize
  have hhead : line.start = head.byteSize := by omega
  have hend : line.stop = head.byteSize + (before.lastLine ++ after.firstLine).byteSize := by
    rw [Text.byteSize_append]
    omega
  rw [hdocument, hhead, hend, htext]
  exact Text.slice?_append _ _ _

/-- The line at an offset is one of the lines. -/
theorem exists_lineAt_mem {lines : List Line} (hlines : document.lines = .ok lines) :
    ∃ line ∈ lines, document.lineAt offset = .ok line ∧
      line.start ≤ offset ∧ offset ≤ line.stop := by
  obtain ⟨hwhole, hoffset⟩ := cut_eq_ok_iff.mp hcut
  obtain ⟨front, hlength, hfront, happend⟩ := before.exists_lines_append
  rw [Document.lines, hwhole, happend] at hlines
  -- The line after those that end before the cut, found by its place in the list.
  obtain ⟨line, hmem, hnumber, hstart, hstop, htext⟩ := exists_line_of_numberLines hlines
  rw [Text.byteSize_append] at hstop
  refine ⟨line, hmem, (lineAt_eq_ok_iff hcut).mpr ⟨?_, ?_, ?_, htext⟩, ?_, ?_⟩ <;> omega

end Cut

/-! ## From line to line -/

/-- The lines found by looking up the line at an offset and then, as long as the text goes on, the
line after the newline that ends it. -/
inductive Walk (document : Document κ) : Nat → List Line → Prop where
  | last {offset : Nat} {line : Line} (found : document.lineAt offset = .ok line)
      (done : ¬ line.stop < document.size) : Walk document offset [line]
  | next {offset : Nat} {line : Line} {others : List Line}
      (found : document.lineAt offset = .ok line) (more : line.stop < document.size)
      (rest : Walk document (line.stop + 1) others) : Walk document offset (line :: others)

theorem Walk.unique {offset : Nat} {lines lines' : List Line} (h : document.Walk offset lines)
    (h' : document.Walk offset lines') : lines' = lines := by
  induction h generalizing lines' with
  | last found done =>
      cases h' with
      | last found' _ =>
          rw [found, Except.ok.injEq] at found'
          rw [found']
      | next found' more _ =>
          rw [found, Except.ok.injEq] at found'
          exact absurd (found' ▸ more) done
  | next found more rest ih =>
      cases h' with
      | last found' done =>
          rw [found, Except.ok.injEq] at found'
          exact absurd more (found' ▸ done)
      | next found' _ rest' =>
          rw [found, Except.ok.injEq] at found'
          subst found'
          rw [ih rest']

/-- A walk from the start of a line finds the lines of the text from there on. -/
theorem walk_of_numberLines {before after : Text} {lines : List Line}
    (htext : document.text = before ++ after) (hbefore : before.lastLine = [])
    (h : numberLines (before.count '\n' + 1) before.byteSize after.lines = .ok lines) :
    document.Walk before.byteSize lines := by
  -- What the walk has left behind is a number of whole lines: the last line of it is empty.
  induction after using Text.lines_induction generalizing before lines with
  | last after hafter =>
      rw [Text.lines_of_not_mem hafter] at h
      obtain ⟨line, others, rfl, ⟨hnumber, hstart, hstop, hline⟩, hothers⟩ :=
        numberLines_cons_eq_ok_iff.mp h
      cases hothers
      have hfound : document.lineAt before.byteSize = .ok line := by
        rw [lineAt_eq_ok_iff (cut_eq_ok_iff.mpr ⟨htext, rfl⟩), hbefore,
          Text.firstLine_of_not_mem hafter]
        exact ⟨hnumber, hstart, hstop, hline⟩
      apply Walk.last hfound
      rw [size, htext, Text.byteSize_append]
      omega
  | next first rest hfirst ih =>
      rw [Text.lines_append_newline hfirst] at h
      obtain ⟨line, others, rfl, ⟨hnumber, hstart, hstop, hline⟩, hothers⟩ :=
        numberLines_cons_eq_ok_iff.mp h
      have hfound : document.lineAt before.byteSize = .ok line := by
        rw [lineAt_eq_ok_iff (cut_eq_ok_iff.mpr ⟨htext, rfl⟩), hbefore,
          Text.firstLine_append_newline hfirst]
        exact ⟨hnumber, hstart, hstop, hline⟩
      -- The rest of the text comes after the first line and its newline.
      have hrest : document.text = before ++ (first ++ ['\n']) ++ rest := by
        rw [htext, List.append_assoc, List.append_assoc, List.singleton_append]
      have hlast : (before ++ (first ++ ['\n'])).lastLine = [] := by
        rw [← List.append_assoc]
        exact Text.lastLine_append_newline _ []
      have hcount : (before ++ (first ++ ['\n'])).count '\n' = before.count '\n' + 1 := by
        rw [List.count_append, List.count_append, List.count_eq_zero_of_not_mem hfirst,
          List.count_singleton_self, Nat.zero_add]
      have hnewline : Text.byteSize ['\n'] = 1 := by decide
      have hsize : (before ++ (first ++ ['\n'])).byteSize = line.stop + 1 := by
        rw [Text.byteSize_append, Text.byteSize_append]
        omega
      rw [← hcount, ← hsize] at hothers
      have hwalk := ih hrest hlast hothers
      rw [hsize] at hwalk
      apply Walk.next hfound _ hwalk
      rw [size, hrest, Text.byteSize_append]
      omega

/-! ## All lines -/

/-- Lines that divide a text at its newlines, numbered from 1 on. -/
structure Divides (text : Text) (lines : List Line) : Prop where
  length_eq : lines.length = text.count '\n' + 1
  numbers_eq : lines.map (·.number) = List.range' 1 lines.length
  newline_not_mem : ∀ line ∈ lines, '\n' ∉ line.text
  joined_eq : ['\n'].intercalate (lines.map (·.text)) = text
  slice_eq : ∀ line ∈ lines, text.slice? line.start line.stop = some line.text
  first : ∀ line ∈ lines.head?, line.start = 0
  next : lines.IsChain fun line next => next.start = line.stop + 1

theorem exists_lines (document : Document κ) : ∃ lines, document.lines = .ok lines :=
  exists_numberLines Nat.one_pos (iff_of_true rfl rfl) fun _ hmem =>
    Text.newline_not_mem_of_mem_lines hmem

theorem walk_of_lines {lines : List Line} (h : document.lines = .ok lines) :
    document.Walk 0 lines := by
  have htext : document.text = [] ++ document.text := rfl
  exact walk_of_numberLines htext rfl h

theorem Walk.slice?_eq {offset : Nat} {lines : List Line} (h : document.Walk offset lines)
    {line : Line} (hmem : line ∈ lines) :
    document.text.slice? line.start line.stop = some line.text := by
  have hslice : ∀ {offset : Nat} {line : Line}, document.lineAt offset = .ok line →
      document.text.slice? line.start line.stop = some line.text := by
    intro offset line hfound
    obtain ⟨parts, hcut, _⟩ := Fault.bind_eq_ok_iff.mp hfound
    exact slice?_of_lineAt hcut hfound
  induction h with
  | last found _ =>
      rw [List.mem_singleton.mp hmem]
      exact hslice found
  | next found _ _ ih =>
      rcases List.mem_cons.mp hmem with rfl | hmem
      · exact hslice found
      · exact ih hmem

theorem divides_of_lines {lines : List Line} (h : document.lines = .ok lines) :
    Divides document.text lines := by
  have hnumbered := numbered_of_numberLines h
  refine ⟨?_, hnumbered.numbers_eq, fun line _ => line.newline_not_mem, ?_,
    fun line hmem => (walk_of_lines h).slice?_eq hmem, hnumbered.first, hnumbered.next⟩
  · rw [← Text.length_lines, ← hnumbered.texts_eq, List.length_map]
  · rw [hnumbered.texts_eq, Text.intercalate_lines]

/-- The lines of a document divide its text, and a walk from line to line finds just them. At every
offset between two characters there is a line, and it is the only one of them that reaches there. -/
theorem lines_divide_text (document : Document κ) :
    ∃ lines, document.lines = .ok lines ∧ Divides document.text lines ∧
      (∀ found, document.Walk 0 found ↔ found = lines) ∧
      ∀ offset, document.text.Boundary offset →
        ∃ line ∈ lines, document.lineAt offset = .ok line ∧
          (line.start ≤ offset ∧ offset ≤ line.stop) ∧
          ∀ other ∈ lines, other.start ≤ offset ∧ offset ≤ other.stop → other = line := by
  obtain ⟨lines, hlines⟩ := document.exists_lines
  have hwalk := walk_of_lines hlines
  refine ⟨lines, hlines, divides_of_lines hlines, fun found => ⟨hwalk.unique, ?_⟩, ?_⟩
  · rintro rfl
    exact hwalk
  · rintro offset ⟨before, after, htext, hoffset⟩
    have hcut := cut_eq_ok_iff.mpr ⟨htext, hoffset⟩
    obtain ⟨line, hmem, hfound, hin⟩ := exists_lineAt_mem hcut hlines
    exact ⟨line, hmem, hfound, hin, fun other hother hin' =>
      (numbered_of_numberLines hlines).eq_of_holds hmem hother hin hin'⟩

-- A line of a character of two bytes, an empty line, and an empty line after the last newline.
theorem lines_divide_empty_lines :
    Text.Boundary ['é', '\n', '\n'] 3 ∧
      ∃ (document : Document Kind) (lines : List Line),
        Document.protobuf ['é', '\n', '\n'] = .ok document ∧ document.lines = .ok lines ∧
          lines.length = 3 ∧
          ∃ line ∈ lines, document.lineAt 3 = .ok line ∧ (line.start ≤ 3 ∧ 3 ≤ line.stop) ∧
            ∀ other ∈ lines, other.start ≤ 3 ∧ 3 ≤ other.stop → other = line := by
  have hboundary : Text.Boundary ['é', '\n', '\n'] 3 := by decide
  have hsize : Text.byteSize ['é', '\n', '\n'] + 1 < Word.bound := by decide
  obtain ⟨_, document, _, _, hdocument, htext, _⟩ := Protobuf.exists_document hsize
  obtain ⟨lines, hlines, hdivides, _, hlineAt⟩ := lines_divide_text document
  refine ⟨hboundary, document, lines, hdocument, hlines, ?_, hlineAt 3 (htext ▸ hboundary)⟩
  rw [hdivides.length_eq, htext]
  decide

/-! ## A line and its neighbours -/

section Neighbours

variable {offset : Nat} {lines front back : List Line} {above line : Line}

theorem lineAt_of_mem (hlines : document.lines = .ok lines) (hmem : line ∈ lines)
    (hboundary : document.text.Boundary offset) (hin : line.start ≤ offset ∧ offset ≤ line.stop) :
    document.lineAt offset = .ok line := by
  obtain ⟨before, after, htext, hoffset⟩ := hboundary
  obtain ⟨other, hother, hlineAt, hin'⟩ :=
    exists_lineAt_mem (cut_eq_ok_iff.mpr ⟨htext, hoffset⟩) hlines
  rw [hlineAt, (numbered_of_numberLines hlines).eq_of_holds hmem hother hin hin']

theorem mem_of_lineAt (hlines : document.lines = .ok lines)
    (hline : document.lineAt offset = .ok line) :
    line ∈ lines ∧ line.start ≤ offset ∧ offset ≤ line.stop := by
  obtain ⟨parts, hcut, _⟩ := Fault.bind_eq_ok_iff.mp hline
  obtain ⟨other, hmem, hlineAt, hin⟩ := exists_lineAt_mem hcut hlines
  rw [hline, Except.ok.injEq] at hlineAt
  rw [hlineAt]
  exact ⟨hmem, hin⟩

theorem texts_of_lines (hlines : document.lines = .ok lines) :
    document.text.lines = lines.map (·.text) :=
  (numbered_of_numberLines hlines).texts_eq.symm

/-- The text around a line. -/
theorem text_of_split (hlines : document.lines = .ok (front ++ line :: back)) :
    document.text =
      Text.ended (front.map (·.text)) ++ line.text ++ Text.begun (back.map (·.text)) := by
  have htexts := texts_of_lines hlines
  rw [List.map_append, List.map_cons] at htexts
  exact (Text.lines_eq_iff.mp htexts).1

theorem boundary_of_split (hlines : document.lines = .ok (front ++ line :: back)) :
    document.text.Boundary line.start ∧ document.text.Boundary line.stop := by
  obtain ⟨_, hstart, hstop⟩ := fields_of_numberLines hlines
  have hsize := Text.byteSize_ended (front.map (·.text))
  rw [text_of_split hlines]
  constructor
  · refine ⟨Text.ended (front.map (·.text)), _, List.append_assoc _ _ _, ?_⟩
    omega
  · refine ⟨Text.ended (front.map (·.text)) ++ line.text, _, rfl, ?_⟩
    rw [Text.byteSize_append]
    omega

theorem size_of_split (hlines : document.lines = .ok (front ++ line :: back)) :
    document.size = line.stop + Text.linesSize (back.map (·.text)) := by
  obtain ⟨_, hstart, hstop⟩ := fields_of_numberLines hlines
  rw [size, text_of_split hlines, Text.byteSize_append, Text.byteSize_append, Text.byteSize_ended,
    Text.byteSize_begun]
  omega

theorem lineAt_start (hlines : document.lines = .ok (front ++ line :: back)) :
    document.lineAt line.start = .ok line :=
  lineAt_of_mem hlines (List.mem_append_right front List.mem_cons_self)
    (boundary_of_split hlines).1 ⟨Nat.le_refl _, line.start_le_stop⟩

theorem lineAt_stop (hlines : document.lines = .ok (front ++ line :: back)) :
    document.lineAt line.stop = .ok line :=
  lineAt_of_mem hlines (List.mem_append_right front List.mem_cons_self)
    (boundary_of_split hlines).2 ⟨line.start_le_stop, Nat.le_refl _⟩

/-- A line starts after the newline that ends the one before it. -/
theorem adjacent_of_split (hlines : document.lines = .ok (front ++ above :: line :: back)) :
    line.start = above.stop + 1 ∧ line.number = above.number + 1 := by
  obtain ⟨haboveNumber, haboveStart, haboveStop⟩ := fields_of_numberLines hlines
  rw [List.append_cons] at hlines
  obtain ⟨hnumber, hstart, _⟩ := fields_of_numberLines hlines
  rw [List.length_append, List.length_singleton] at hnumber
  rw [List.map_append, Text.linesSize_append, List.map_singleton, Text.linesSize_cons,
    Text.linesSize_nil] at hstart
  exact ⟨by omega, by omega⟩

/-- A line that is not the first has one before it in the list. -/
theorem exists_above (hlines : document.lines = .ok lines) (hmem : line ∈ lines)
    (hnumber : line.number ≠ 1) :
    ∃ front above back, lines = front ++ above :: line :: back := by
  obtain ⟨front, back, rfl⟩ := List.append_of_mem hmem
  rcases List.eq_nil_or_concat front with rfl | ⟨front, above, rfl⟩
  · exact absurd (fields_of_numberLines hlines).1 hnumber
  · exact ⟨front, above, back, by simp⟩

theorem stop_of_mem (hlines : document.lines = .ok lines) (hmem : line ∈ lines) :
    line.stop = line.start + line.text.byteSize := by
  obtain ⟨front, back, rfl⟩ := List.append_of_mem hmem
  exact (fields_of_numberLines hlines).2.2

theorem number_lt_of_split (hlines : document.lines = .ok (front ++ line :: back)) :
    (∀ other ∈ front, other.number < line.number) ∧
      ∀ other ∈ back, line.number < other.number := by
  have hnumber := (fields_of_numberLines hlines).1
  constructor
  · intro other hmem
    obtain ⟨first, second, rfl⟩ := List.append_of_mem hmem
    rw [List.append_assoc, List.cons_append] at hlines
    have hother := (fields_of_numberLines hlines).1
    rw [List.length_append, List.length_cons] at hnumber
    omega
  · intro other hmem
    obtain ⟨first, second, rfl⟩ := List.append_of_mem hmem
    rw [← List.cons_append, ← List.append_assoc] at hlines
    have hother := (fields_of_numberLines hlines).1
    rw [List.length_append, List.length_cons] at hother
    omega

theorem getElem?_number (hlines : document.lines = .ok lines) (hmem : line ∈ lines) :
    lines[line.number - 1]? = some line := by
  obtain ⟨front, back, rfl⟩ := List.append_of_mem hmem
  have hnumber := (fields_of_numberLines hlines).1
  rw [hnumber, Nat.add_sub_cancel_left, List.getElem?_append_right (Nat.le_refl _), Nat.sub_self,
    List.getElem?_cons_zero]

theorem eq_of_number_eq {other : Line} (hlines : document.lines = .ok lines) (hmem : line ∈ lines)
    (hother : other ∈ lines) (hnumber : other.number = line.number) : other = line := by
  have hfound := getElem?_number hlines hother
  rw [hnumber, getElem?_number hlines hmem, Option.some.injEq] at hfound
  exact hfound.symm

end Neighbours

end Document

/-! ## Lines of tokens -/

namespace Protobuf

theorem exists_stands_of_mem {text : Text} {tokens : TokenList Kind} {token : Token Kind}
    (h : tokenize text = .ok tokens) (hmem : token ∈ tokens) :
    ∃ before after lexeme, text = before ++ after ∧ Stands before lexeme token := by
  obtain ⟨body, sentinel, rfl, hsentinel, hbody⟩ := exists_body_of_tokenize h
  rcases Array.mem_push.mp hmem with hmem | rfl
  · obtain ⟨before, lexeme, after, hoccurs⟩ := hbody token hmem
    refine ⟨before, lexeme.text ++ after, lexeme, ?_, hoccurs.stands⟩
    rw [hoccurs.text_eq, List.append_assoc]
  · exact ⟨text, [], _, (List.append_nil text).symm, hsentinel⟩

/-- The column of a token is counted from the start of its line, which is never after the token.
Its line is the one that the document has there, and the newlines before the token count it. -/
theorem tokenize_agrees_with_lines (text : Text) :
    tokenize text ≠ .error .subtractOverflow ∧
      ∀ tokens, tokenize text = .ok tokens →
        ∃ document, Document.protobuf text = .ok document ∧
          ∀ token ∈ tokens, ∃ before after line,
            text = before ++ after ∧ before.byteSize = token.span.start ∧
              token.line = 1 + before.count '\n' ∧
              document.lineAt token.span.start = .ok line ∧ token.line = line.number ∧
              line.start ≤ token.span.start ∧ token.column = token.span.start - line.start := by
  refine ⟨tokenize_ne_subtractOverflow text, fun tokens htokens => ?_⟩
  obtain ⟨_, document, _, _, hdocument, htext, _⟩ :=
    (exists_tokenize_iff.mp ⟨tokens, htokens⟩).exists_document
  refine ⟨document, hdocument, fun token hmem => ?_⟩
  obtain ⟨before, after, lexeme, hsplit, hstands⟩ := exists_stands_of_mem htokens hmem
  have hstart := hstands.start
  have hcut : document.cut token.span.start = .ok (before, after) :=
    Document.cut_eq_ok_iff.mpr ⟨htext.trans hsplit, hstart.symm⟩
  obtain ⟨line, hline, hnumber, hlineStart, _⟩ := Document.exists_lineAt hcut
  -- Both count from the last newline before the token.
  have htokenLine := hstands.line
  have hcolumn := hstands.column
  have hle := before.byteSize_lastLine_le
  exact ⟨before, after, line, hsplit, hstart.symm, by omega, hline, by omega, by omega, by omega⟩

-- The name starts on the second line, after a comment with a newline and a character of two bytes.
theorem tokenize_agrees_after_comment :
    ∃ tokens, tokenize ['/', '*', '\n', 'é', '*', '/', 'x'] = .ok tokens ∧
      ∃ document, Document.protobuf ['/', '*', '\n', 'é', '*', '/', 'x'] = .ok document ∧
        ∃ token ∈ tokens, token.kind = .ident ∧ ∃ line,
          document.lineAt token.span.start = .ok line ∧ token.line = line.number ∧
            line.start ≤ token.span.start ∧ token.column = token.span.start - line.start := by
  have htokens : tokenize ['/', '*', '\n', 'é', '*', '/', 'x'] = .ok
      #[⟨.blockComment, ⟨0, 7, by decide, by decide⟩, 1, 0⟩,
        ⟨.ident, ⟨7, 8, by decide, by decide⟩, 2, 4⟩,
        ⟨.eof, ⟨8, 8, by decide, by decide⟩, 2, 5⟩] := by cbv
  obtain ⟨document, hdocument, hagrees⟩ :=
    (tokenize_agrees_with_lines ['/', '*', '\n', 'é', '*', '/', 'x']).2 _ htokens
  obtain ⟨_, _, line, _, _, _, hline⟩ := hagrees _ (Array.mem_of_getElem? (i := 1) rfl)
  exact ⟨_, htokens, document, hdocument, _, Array.mem_of_getElem? (i := 1) rfl, rfl, line, hline⟩

end Protobuf

end Keystroke
