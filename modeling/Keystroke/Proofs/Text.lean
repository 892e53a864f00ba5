import Mathlib
import Keystroke.Text.Basic

/-!
# Offsets, lines and bytes of a text

The offsets at which a text can be cut, the sizes of its first and last line, its division at the
newlines (`lines_induction`), the text around one of its lines (`lines_eq_iff`), and its UTF-8 form.
A byte below 128 is always a character of its own, so that looking for such a character among the
bytes and among the `cells` of a text is the same.
-/

namespace Keystroke.Text

/-! ## Boundaries -/

/-- An offset at which no character is cut in two. -/
def Boundary (text : Text) (n : Nat) : Prop :=
  ∃ before after, text = before ++ after ∧ before.byteSize = n

theorem boundary_iff_isSome_splitAt? {text : Text} {n : Nat} :
    text.Boundary n ↔ (text.splitAt? n).isSome := by
  rw [Option.isSome_iff_exists]
  refine ⟨fun ⟨before, after, htext, hsize⟩ => ?_, fun ⟨⟨before, after⟩, hcut⟩ => ?_⟩
  · exact ⟨(before, after), splitAt?_eq_some_iff.mpr ⟨htext, hsize⟩⟩
  · obtain ⟨htext, hsize⟩ := splitAt?_eq_some_iff.mp hcut
    exact ⟨before, after, htext, hsize⟩

instance (text : Text) (n : Nat) : Decidable (text.Boundary n) :=
  decidable_of_iff _ boundary_iff_isSome_splitAt?.symm

theorem Boundary.le {text : Text} {n : Nat} (h : text.Boundary n) : n ≤ text.byteSize := by
  obtain ⟨before, after, rfl, rfl⟩ := h
  rw [byteSize_append]
  omega

theorem boundary_append (before after : Text) : (before ++ after).Boundary before.byteSize :=
  ⟨before, after, rfl, rfl⟩

theorem boundary_byteSize (text : Text) : text.Boundary text.byteSize :=
  ⟨text, [], (List.append_nil text).symm, rfl⟩

theorem byteSize_pos {text : Text} (h : text ≠ []) : 0 < text.byteSize := by
  cases text with
  | nil => exact absurd rfl h
  | cons c rest =>
      have hpos := c.utf8Size_pos
      rw [byteSize_cons]
      omega

/-- Of two cuts of a text, the one with more bytes before it is the later one. -/
theorem exists_append_of_byteSize_le {before after head tail : Text}
    (h : before ++ after = head ++ tail) (hle : before.byteSize ≤ head.byteSize) :
    ∃ middle, head = before ++ middle ∧ after = middle ++ tail := by
  rcases List.append_eq_append_iff.mp h with ⟨middle, hhead, hafter⟩ | ⟨middle, hbefore, htail⟩
  · exact ⟨middle, hhead, hafter⟩
  · have hnil : middle = [] := by
      by_contra hne
      have hpos := byteSize_pos hne
      rw [hbefore, byteSize_append] at hle
      omega
    rw [hnil, List.append_nil] at hbefore
    rw [hnil, List.nil_append] at htail
    exact ⟨[], by rw [hbefore, List.append_nil], htail.symm⟩

theorem byteSize_le_of_sublist {part text : Text} (h : part.Sublist text) :
    part.byteSize ≤ text.byteSize := by
  induction h with
  | slnil => exact Nat.le_refl _
  | cons c _ ih =>
      rw [byteSize_cons]
      omega
  | cons_cons c _ ih =>
      rw [byteSize_cons, byteSize_cons]
      omega

/-! ## Lines -/

theorem slice?_append (before part after : Text) :
    (before ++ part ++ after).slice? before.byteSize (before.byteSize + part.byteSize) =
      some part := by
  have hbefore : (before ++ part ++ after).splitAt? before.byteSize =
      some (before, part ++ after) :=
    splitAt?_eq_some_iff.mpr ⟨List.append_assoc before part after, rfl⟩
  have hpart : (part ++ after).splitAt? part.byteSize = some (part, after) :=
    splitAt?_eq_some_iff.mpr ⟨rfl, rfl⟩
  rw [slice?, hbefore]
  simp only [Option.bind_eq_bind, Option.bind_some, Nat.le_add_right, if_true,
    Nat.add_sub_cancel_left, hpart]

theorem splice?_append (before part after new : Text) :
    (before ++ part ++ after).splice? before.byteSize (before.byteSize + part.byteSize) new =
      some (before ++ new ++ after) := by
  have hbefore : (before ++ part ++ after).splitAt? before.byteSize =
      some (before, part ++ after) :=
    splitAt?_eq_some_iff.mpr ⟨List.append_assoc before part after, rfl⟩
  have hpart : (part ++ after).splitAt? part.byteSize = some (part, after) :=
    splitAt?_eq_some_iff.mpr ⟨rfl, rfl⟩
  rw [splice?, hbefore]
  simp only [Option.bind_eq_bind, Option.bind_some, Nat.le_add_right, if_true,
    Nat.add_sub_cancel_left, hpart]

theorem splice?_insert (before after new : Text) :
    (before ++ after).splice? before.byteSize before.byteSize new =
      some (before ++ new ++ after) := by
  have hempty := splice?_append before [] after new
  rw [List.append_nil] at hempty
  exact hempty

theorem count_newline_le_byteSize (text : Text) : text.count '\n' ≤ text.byteSize := by
  induction text with
  | nil => exact Nat.le_refl 0
  | cons c rest ih =>
      have hpos := c.utf8Size_pos
      rw [List.count_cons, byteSize_cons]
      split <;> omega

theorem newline_not_mem_firstLine (text : Text) : '\n' ∉ text.firstLine := by
  intro hmem
  have hne := List.mem_takeWhile_imp hmem
  simp at hne

theorem newline_not_mem_lastLine (text : Text) : '\n' ∉ text.lastLine :=
  fun hmem => newline_not_mem_firstLine text.reverse (List.mem_reverse.mp hmem)

/-- What stands before the last line is nothing, or ends with a newline. -/
theorem exists_append_lastLine (text : Text) :
    ∃ head, text = head ++ text.lastLine ∧ (head = [] ∨ '\n' ∈ head) := by
  refine ⟨(text.reverse.dropWhile (· ≠ '\n')).reverse, ?_, ?_⟩
  · rw [lastLine, ← List.reverse_append, List.takeWhile_append_dropWhile, List.reverse_reverse]
  · cases hrest : text.reverse.dropWhile (· ≠ '\n') with
    | nil => exact .inl rfl
    | cons c rest =>
        have hfail := List.head?_dropWhile_not (· ≠ '\n') text.reverse
        rw [hrest] at hfail
        have hc : c = '\n' := by simpa using hfail
        exact .inr (List.mem_reverse.mpr (hc ▸ List.mem_cons_self))

theorem ne_newline_of_not_mem {text : Text} (h : '\n' ∉ text) :
    ∀ c ∈ text, decide (c ≠ '\n') = true := by
  intro c hc
  exact decide_eq_true fun heq => h (heq ▸ hc)

theorem lastLine_append_of_not_mem (before : Text) {text : Text} (h : '\n' ∉ text) :
    (before ++ text).lastLine = before.lastLine ++ text := by
  have hall := ne_newline_of_not_mem fun hmem => h (List.mem_reverse.mp hmem)
  rw [lastLine, lastLine, List.reverse_append, List.takeWhile_append_of_pos hall,
    List.reverse_append, List.reverse_reverse]

theorem lastLine_append_of_mem (before : Text) {text : Text} (h : '\n' ∈ text) :
    (before ++ text).lastLine = text.lastLine := by
  have hshort : ¬ (text.reverse.takeWhile (· ≠ '\n')).length = text.reverse.length := by
    intro hlength
    have hall : firstLine text.reverse = text.reverse :=
      (List.takeWhile_prefix (· ≠ '\n')).eq_of_length hlength
    exact newline_not_mem_firstLine text.reverse (hall.symm ▸ List.mem_reverse.mpr h)
  rw [lastLine, lastLine, List.reverse_append, List.takeWhile_append, if_neg hshort]

theorem byteSize_lastLine_le (text : Text) : text.lastLine.byteSize ≤ text.byteSize := by
  obtain ⟨head, htext, _⟩ := exists_append_lastLine text
  have hsize := congrArg byteSize htext
  rw [byteSize_append] at hsize
  omega

/-- The last line is the whole text just when there is no newline. -/
theorem byteSize_lastLine_eq_iff {text : Text} :
    text.lastLine.byteSize = text.byteSize ↔ '\n' ∉ text := by
  obtain ⟨head, htext, hhead⟩ := exists_append_lastLine text
  have hsize := congrArg byteSize htext
  rw [byteSize_append] at hsize
  refine ⟨fun heq => ?_, fun hnone => ?_⟩
  · have hempty : head = [] := by
      by_contra hne
      have hpos := byteSize_pos hne
      omega
    rw [htext, hempty, List.nil_append]
    exact newline_not_mem_lastLine text
  · have hempty : head = [] := by
      rcases hhead with hnil | hmem
      · exact hnil
      · exact absurd (htext ▸ List.mem_append_left _ hmem) hnone
    rw [hempty, byteSize_nil] at hsize
    omega

/-! ## Division at newlines -/

theorem firstLine_of_not_mem {text : Text} (h : '\n' ∉ text) : text.firstLine = text :=
  List.takeWhile_eq_self_iff.mpr (ne_newline_of_not_mem h)

theorem firstLine_append_newline {first : Text} (h : '\n' ∉ first) (rest : Text) :
    (first ++ '\n' :: rest).firstLine = first := by
  rw [firstLine, List.takeWhile_append_of_pos (ne_newline_of_not_mem h),
    List.takeWhile_cons_of_neg (by simp), List.append_nil]

theorem lastLine_of_not_mem {text : Text} (h : '\n' ∉ text) : text.lastLine = text :=
  lastLine_append_of_not_mem [] h

theorem lastLine_append_newline (before after : Text) :
    (before ++ '\n' :: after).lastLine = after.lastLine := by
  rw [List.append_cons]
  by_cases hmem : '\n' ∈ after
  · exact lastLine_append_of_mem _ hmem
  · rw [lastLine_append_of_not_mem _ hmem, lastLine_append_of_mem _ List.mem_cons_self,
      lastLine_of_not_mem hmem]
    rfl

/-- A text is one line, or a line with a newline and a text after it. -/
@[elab_as_elim] theorem lines_induction {motive : Text → Prop}
    (last : ∀ text, '\n' ∉ text → motive text)
    (next : ∀ first rest, '\n' ∉ first → motive rest → motive (first ++ '\n' :: rest))
    (text : Text) : motive text := by
  by_cases hmem : '\n' ∈ text
  · obtain ⟨first, rest, rfl, hfirst⟩ := List.eq_append_cons_of_mem hmem
    exact next first rest hfirst (lines_induction last next rest)
  · exact last text hmem
termination_by text.length
decreasing_by
  subst text
  simp only [List.length_append, List.length_cons]
  omega

theorem lines_of_not_mem {text : Text} (h : '\n' ∉ text) : text.lines = [text] := by
  induction text with
  | nil => rfl
  | cons c rest ih =>
      rw [List.mem_cons, not_or] at h
      rw [lines, if_neg (Ne.symm h.1), ih h.2]

theorem lines_append_newline {first : Text} (h : '\n' ∉ first) (rest : Text) :
    (first ++ '\n' :: rest).lines = first :: rest.lines := by
  induction first with
  | nil => rfl
  | cons c first ih =>
      rw [List.mem_cons, not_or] at h
      rw [List.cons_append, lines, if_neg (Ne.symm h.1), ih h.2]

theorem length_lines (text : Text) : text.lines.length = text.count '\n' + 1 := by
  induction text using lines_induction with
  | last text h => rw [lines_of_not_mem h, List.count_eq_zero_of_not_mem h, List.length_singleton]
  | next first rest h ih =>
      rw [lines_append_newline h, List.length_cons, ih, List.count_append,
        List.count_eq_zero_of_not_mem h, List.count_cons_self]
      omega

theorem newline_not_mem_of_mem_lines {text line : Text} (h : line ∈ text.lines) : '\n' ∉ line := by
  induction text using lines_induction with
  | last text hlast =>
      rw [lines_of_not_mem hlast, List.mem_singleton] at h
      exact h ▸ hlast
  | next first rest hfirst ih =>
      rw [lines_append_newline hfirst] at h
      rcases List.mem_cons.mp h with rfl | h
      · exact hfirst
      · exact ih h

/-- The lines with newlines between them are the text. -/
theorem intercalate_lines (text : Text) : ['\n'].intercalate text.lines = text := by
  induction text using lines_induction with
  | last text h => rw [lines_of_not_mem h, List.intercalate_singleton]
  | next first rest h ih =>
      -- There is a line after the newline, so that the newline is written.
      have hpos : 0 < rest.lines.length := by
        rw [length_lines]
        omega
      obtain ⟨line, others, hlines⟩ := List.exists_cons_of_length_pos hpos
      rw [lines_append_newline h]
      rw [hlines] at ih ⊢
      rw [List.intercalate_cons_cons, ih, List.append_assoc, List.singleton_append]

/-! ## The line around a cut -/

def linesSize (lines : List Text) : Nat := (lines.map (·.byteSize + 1)).sum

@[simp] theorem linesSize_nil : linesSize [] = 0 := rfl

@[simp] theorem linesSize_cons (line : Text) (lines : List Text) :
    linesSize (line :: lines) = line.byteSize + 1 + linesSize lines := rfl

theorem linesSize_append (lines others : List Text) :
    linesSize (lines ++ others) = linesSize lines + linesSize others := by
  rw [linesSize, List.map_append, List.sum_append]
  rfl

theorem lines_append_of_not_mem {before : Text} (h : '\n' ∉ before) (after : Text) :
    (before ++ after).lines = (before ++ after.firstLine) :: after.lines.tail := by
  induction after using lines_induction with
  | last after hafter =>
      have hwhole : '\n' ∉ before ++ after := by
        rw [List.mem_append, not_or]
        exact ⟨h, hafter⟩
      rw [lines_of_not_mem hwhole, lines_of_not_mem hafter, firstLine_of_not_mem hafter,
        List.tail_cons]
  | next first rest hfirst _ =>
      have hline : '\n' ∉ before ++ first := by
        rw [List.mem_append, not_or]
        exact ⟨h, hfirst⟩
      rw [← List.append_assoc, lines_append_newline hline, lines_append_newline hfirst,
        firstLine_append_newline hfirst, List.tail_cons]

/-- A cut goes through one line: as many lines are before it as there are newlines before the cut,
and they fill the text up to that line. -/
theorem exists_lines_append (before : Text) :
    ∃ front : List Text, front.length = before.count '\n' ∧
      linesSize front + before.lastLine.byteSize = before.byteSize ∧
      ∀ after, (before ++ after).lines =
        front ++ (before.lastLine ++ after.firstLine) :: after.lines.tail := by
  induction before using lines_induction with
  | last before h =>
      refine ⟨[], ?_, ?_, fun after => ?_⟩
      · rw [List.count_eq_zero_of_not_mem h, List.length_nil]
      · rw [lastLine_of_not_mem h, linesSize_nil, Nat.zero_add]
      · rw [lastLine_of_not_mem h, lines_append_of_not_mem h, List.nil_append]
  | next first rest h ih =>
      obtain ⟨front, hlength, hfront, hlines⟩ := ih
      refine ⟨first :: front, ?_, ?_, fun after => ?_⟩
      · rw [List.length_cons, hlength, List.count_append, List.count_eq_zero_of_not_mem h,
          List.count_cons_self]
        omega
      · have hnewline : '\n'.utf8Size = 1 := by decide
        rw [lastLine_append_newline, linesSize_cons, byteSize_append, byteSize_cons]
        omega
      · rw [List.append_assoc, List.cons_append, lines_append_newline h, hlines,
          lastLine_append_newline, List.cons_append]

/-! ## A text around one of its lines -/

/-- Some lines, each with its newline after it. -/
def ended : List Text → Text
  | [] => []
  | line :: lines => line ++ '\n' :: ended lines

def begun : List Text → Text
  | [] => []
  | line :: lines => '\n' :: (line ++ begun lines)

theorem byteSize_ended (lines : List Text) : (ended lines).byteSize = linesSize lines := by
  induction lines with
  | nil => rfl
  | cons line lines ih =>
      have hnewline : '\n'.utf8Size = 1 := by decide
      rw [ended, byteSize_append, byteSize_cons, linesSize_cons]
      omega

theorem byteSize_begun (lines : List Text) : (begun lines).byteSize = linesSize lines := by
  induction lines with
  | nil => rfl
  | cons line lines ih =>
      have hnewline : '\n'.utf8Size = 1 := by decide
      rw [begun, byteSize_cons, byteSize_append, linesSize_cons]
      omega

theorem lines_append_begun {line : Text} {back : List Text} (hline : '\n' ∉ line)
    (hback : ∀ other ∈ back, '\n' ∉ other) : (line ++ begun back).lines = line :: back := by
  induction back generalizing line with
  | nil => rw [begun, List.append_nil, lines_of_not_mem hline]
  | cons next back ih =>
      obtain ⟨hnext, hback⟩ := List.forall_mem_cons.mp hback
      rw [begun, lines_append_newline hline, ih hnext hback]

theorem lines_ended_append {front : List Text} (hfront : ∀ other ∈ front, '\n' ∉ other)
    (text : Text) : (ended front ++ text).lines = front ++ text.lines := by
  induction front with
  | nil => rfl
  | cons first front ih =>
      obtain ⟨hfirst, hfront⟩ := List.forall_mem_cons.mp hfront
      rw [ended, List.append_assoc, List.cons_append, lines_append_newline hfirst, ih hfront,
        List.cons_append]

theorem lines_injective : Function.Injective lines := by
  intro text other h
  rw [← intercalate_lines text, h, intercalate_lines]

/-- A text written out around one of its lines. -/
theorem lines_eq_iff {text line : Text} {front back : List Text} :
    text.lines = front ++ line :: back ↔
      text = ended front ++ line ++ begun back ∧ (∀ other ∈ front, '\n' ∉ other) ∧ '\n' ∉ line ∧
        ∀ other ∈ back, '\n' ∉ other := by
  have hlines : (∀ other ∈ front, '\n' ∉ other) → '\n' ∉ line → (∀ other ∈ back, '\n' ∉ other) →
      (ended front ++ line ++ begun back).lines = front ++ line :: back := by
    intro hfront hline hback
    rw [List.append_assoc, lines_ended_append hfront, lines_append_begun hline hback]
  constructor
  · intro h
    have hnone : ∀ other ∈ front ++ line :: back, '\n' ∉ other := by
      rw [← h]
      exact fun other => newline_not_mem_of_mem_lines
    rw [List.forall_mem_append, List.forall_mem_cons] at hnone
    obtain ⟨hfront, hline, hback⟩ := hnone
    exact ⟨lines_injective (h.trans (hlines hfront hline hback).symm), hfront, hline, hback⟩
  · rintro ⟨rfl, hfront, hline, hback⟩
    exact hlines hfront hline hback

/-! ## Bytes -/

/-- A character stands at its first byte. -/
theorem getElem?_cells_eq_iff {text : Text} {c : Char} {i : Nat} :
    text.cells[i]? = some (some c) ↔
      ∃ before after, text = before ++ c :: after ∧ before.byteSize = i := by
  induction text generalizing i with
  | nil =>
      refine iff_of_false nofun ?_
      rintro ⟨before, after, h, _⟩
      exact List.append_ne_nil_of_right_ne_nil before (List.cons_ne_nil c after) h.symm
  | cons d rest ih =>
      have hpos := d.utf8Size_pos
      have hlength : (some d :: List.replicate (d.utf8Size - 1) none).length = d.utf8Size := by
        rw [List.length_cons, List.length_replicate]
        omega
      constructor
      · intro h
        rw [cells, ← List.cons_append] at h
        by_cases hi : i < d.utf8Size
        · rw [List.getElem?_append_left (by omega)] at h
          cases i with
          | zero =>
              cases h
              exact ⟨[], rest, rfl, rfl⟩
          | succ i =>
              rw [List.getElem?_cons_succ] at h
              have hnone := List.eq_of_mem_replicate (List.mem_of_getElem? h)
              cases hnone
        · rw [List.getElem?_append_right (by omega), hlength] at h
          obtain ⟨before, after, rfl, hsize⟩ := ih.mp h
          refine ⟨d :: before, after, rfl, ?_⟩
          rw [byteSize_cons]
          omega
      · rintro ⟨before, after, h, rfl⟩
        cases before with
        | nil =>
            cases h
            rfl
        | cons e before =>
            rw [List.cons_append, List.cons.injEq] at h
            obtain ⟨rfl, rfl⟩ := h
            have hrest := ih.mpr ⟨before, after, rfl, rfl⟩
            rw [cells, ← List.cons_append, byteSize_cons, List.getElem?_append_right (by omega),
              hlength, Nat.add_sub_cancel_left]
            exact hrest

def bytes (text : Text) : List UInt8 := text.flatMap String.utf8EncodeChar

@[simp] theorem bytes_nil : bytes [] = [] := rfl

@[simp] theorem bytes_cons (c : Char) (rest : Text) :
    bytes (c :: rest) = String.utf8EncodeChar c ++ bytes rest := rfl

@[simp] theorem bytes_append (before after : Text) :
    bytes (before ++ after) = before.bytes ++ after.bytes := List.flatMap_append

@[simp] theorem length_bytes (text : Text) : text.bytes.length = text.byteSize := by
  induction text with
  | nil => rfl
  | cons c rest ih => rw [bytes_cons, List.length_append, String.length_utf8EncodeChar, ih]; rfl

/-- The characters that take one byte. -/
def IsAscii (c : Char) : Prop := c.val.toNat ≤ 127

instance (c : Char) : Decidable (IsAscii c) := inferInstanceAs (Decidable (_ ≤ _))

def asciiByte (c : Char) : UInt8 := UInt8.ofNat c.val.toNat

theorem asciiByte_toNat {c : Char} (hc : IsAscii c) : (asciiByte c).toNat = c.val.toNat := by
  unfold IsAscii at hc
  rw [asciiByte, UInt8.toNat_ofNat']
  omega

theorem asciiByte_inj {c d : Char} (hc : IsAscii c) (hd : IsAscii d) :
    asciiByte c = asciiByte d ↔ c = d := by
  refine ⟨fun h => ?_, fun h => h ▸ rfl⟩
  have hnat := congrArg UInt8.toNat h
  rw [asciiByte_toNat hc, asciiByte_toNat hd] at hnat
  exact Char.ext (UInt32.toNat_inj.mp hnat)

theorem utf8EncodeChar_ascii {c : Char} (hc : IsAscii c) :
    String.utf8EncodeChar c = [asciiByte c] := by
  unfold IsAscii at hc
  simp only [String.utf8EncodeChar, asciiByte, if_pos hc]

theorem utf8Size_ascii {c : Char} (hc : IsAscii c) : c.utf8Size = 1 := by
  rw [← String.length_utf8EncodeChar, utf8EncodeChar_ascii hc, List.length_singleton]

theorem bytes_cons_ascii {c : Char} (hc : IsAscii c) (rest : Text) :
    bytes (c :: rest) = asciiByte c :: rest.bytes := by
  rw [bytes_cons, utf8EncodeChar_ascii hc, List.singleton_append]

/-- No byte of a longer character looks like a character of its own. -/
theorem le_of_mem_utf8EncodeChar {c : Char} (hc : ¬ IsAscii c) {b : UInt8}
    (hb : b ∈ String.utf8EncodeChar c) : 128 ≤ b.toNat := by
  unfold IsAscii at hc
  simp only [String.utf8EncodeChar, if_neg hc] at hb
  split at hb
  · simp only [List.mem_cons, List.not_mem_nil, or_false] at hb
    rcases hb with rfl | rfl <;> rw [UInt8.toNat_ofNat'] <;> omega
  · split at hb
    · simp only [List.mem_cons, List.not_mem_nil, or_false] at hb
      rcases hb with rfl | rfl | rfl <;> rw [UInt8.toNat_ofNat'] <;> omega
    · simp only [List.mem_cons, List.not_mem_nil, or_false] at hb
      rcases hb with rfl | rfl | rfl | rfl <;> rw [UInt8.toNat_ofNat'] <;> omega

/-- The bytes and the cells of a text hold the same one-byte characters. -/
theorem getElem?_bytes_eq_iff {c : Char} (hc : IsAscii c) {text : Text} {i : Nat} :
    text.bytes[i]? = some (asciiByte c) ↔ text.cells[i]? = some (some c) := by
  induction text generalizing i with
  | nil => exact iff_of_false nofun nofun
  | cons d rest ih =>
      by_cases hd : IsAscii d
      · rw [bytes_cons_ascii hd, cells, utf8Size_ascii hd, Nat.sub_self, List.replicate_zero,
          List.nil_append]
        cases i with
        | zero => simp [asciiByte_inj hd hc]
        | succ i => exact ih
      · have hbytes := String.length_utf8EncodeChar d
        have hcells : (some d :: List.replicate (d.utf8Size - 1) none).length = d.utf8Size := by
          have hpos := d.utf8Size_pos
          rw [List.length_cons, List.length_replicate]
          omega
        rw [bytes_cons, cells, ← List.cons_append]
        by_cases hi : i < d.utf8Size
        · -- Neither a byte nor a cell of a longer character is one of these.
          rw [List.getElem?_append_left (by omega), List.getElem?_append_left (by omega)]
          refine iff_of_false (fun h => ?_) fun h => ?_
          · have hwide := le_of_mem_utf8EncodeChar hd (List.mem_of_getElem? h)
            rw [asciiByte_toNat hc] at hwide
            unfold IsAscii at hc
            omega
          · rcases List.mem_cons.mp (List.mem_of_getElem? h) with h | h
            · exact hd (Option.some.inj h ▸ hc)
            · exact Option.some_ne_none c (List.eq_of_mem_replicate h)
        · rw [List.getElem?_append_right (by omega), List.getElem?_append_right (by omega), hbytes,
            hcells]
          exact ih

end Keystroke.Text
