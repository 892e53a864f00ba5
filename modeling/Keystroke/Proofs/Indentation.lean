import Mathlib
import Keystroke.Proofs.Text
import Keystroke.Text.Blank

/-!
# Indentation of a text

A text is its indentation and what follows that, where all that can be seen is: each visible
character (`mem_dropWhile_iff`) and each row of them (`infix_dropWhile_iff`). With spaces in place
of the indentation (`indented`) the rest stays as it is.
-/

namespace Keystroke.Text

/-! ## White space at the start -/

theorem isBlank_of_mem_indentation {text : Text} {c : Char} (h : c ∈ text.indentation) :
    isBlank c = true :=
  List.mem_takeWhile_imp h

theorem isBlank_head?_dropWhile {text : Text} {c : Char}
    (h : (text.dropWhile isBlank).head? = some c) : isBlank c = false := by
  have hstop := List.head?_dropWhile_not isBlank text
  rw [h] at hstop
  exact hstop

/-- White space before a visible character, or before nothing, is an indentation. -/
theorem indentation_blank_append {blanks rest : Text} (hblanks : ∀ c ∈ blanks, isBlank c = true)
    (hrest : ∀ c, rest.head? = some c → isBlank c = false) :
    (blanks ++ rest).indentation = blanks := by
  unfold indentation
  rw [List.takeWhile_append_of_pos hblanks]
  cases rest with
  | nil => exact List.append_nil blanks
  | cons c rest =>
      have hc := hrest c rfl
      rw [List.takeWhile_cons_of_neg (by rw [hc]; exact Bool.false_ne_true), List.append_nil]

theorem dropWhile_blank_append {blanks rest : Text} (hblanks : ∀ c ∈ blanks, isBlank c = true)
    (hrest : ∀ c, rest.head? = some c → isBlank c = false) :
    (blanks ++ rest).dropWhile isBlank = rest := by
  have hwhole := indentation_append (blanks ++ rest)
  rw [indentation_blank_append hblanks hrest] at hwhole
  exact List.append_cancel_left hwhole

/-- A row of visible characters does not begin in white space. -/
theorem infix_blank_append_iff {part blanks : Text} (hpart : ∀ c ∈ part, isBlank c = false)
    (hblanks : ∀ c ∈ blanks, isBlank c = true) (rest : Text) :
    part <:+: blanks ++ rest ↔ part <:+: rest := by
  induction blanks with
  | nil => exact Iff.rfl
  | cons b blanks ih =>
      obtain ⟨hb, hblanks⟩ := List.forall_mem_cons.mp hblanks
      rw [List.cons_append, List.infix_cons_iff, ih hblanks]
      constructor
      · rintro (hstart | hlater)
        · cases part with
          | nil => exact List.nil_infix
          | cons c part =>
              have hc := hpart c List.mem_cons_self
              rw [(List.cons_prefix_cons.mp hstart).1, hb] at hc
              cases hc
        · exact hlater
      · exact fun hlater => .inr hlater

/-- A visible character is not in the white space at the start. -/
theorem mem_dropWhile_iff (text : Text) {c : Char} (hc : isBlank c = false) :
    c ∈ text.dropWhile isBlank ↔ c ∈ text := by
  have hblank : c ∉ text.indentation := by
    intro hmem
    rw [isBlank_of_mem_indentation hmem] at hc
    cases hc
  have hwhole : c ∈ text ↔ c ∈ text.indentation ++ text.dropWhile isBlank := by
    rw [indentation_append]
  rw [hwhole, List.mem_append, or_iff_right hblank]

theorem infix_dropWhile_iff (text : Text) {part : Text} (hpart : ∀ c ∈ part, isBlank c = false) :
    part <:+: text.dropWhile isBlank ↔ part <:+: text := by
  have hwhole : part <:+: text ↔ part <:+: text.indentation ++ text.dropWhile isBlank := by
    rw [indentation_append]
  rw [hwhole, infix_blank_append_iff hpart fun _ => isBlank_of_mem_indentation]

theorem mem_iff_of_dropWhile_eq {text other : Text} {c : Char} (hc : isBlank c = false)
    (h : other.dropWhile isBlank = text.dropWhile isBlank) : c ∈ other ↔ c ∈ text := by
  rw [← mem_dropWhile_iff other hc, h, mem_dropWhile_iff text hc]

theorem infix_iff_of_dropWhile_eq {text other part : Text} (hpart : ∀ c ∈ part, isBlank c = false)
    (h : other.dropWhile isBlank = text.dropWhile isBlank) : part <:+: other ↔ part <:+: text := by
  rw [← infix_dropWhile_iff other hpart, h, infix_dropWhile_iff text hpart]

/-! ## Another indentation -/

def indented (column : Nat) (text : Text) : Text :=
  List.replicate column ' ' ++ text.dropWhile isBlank

section Indented

variable (column : Nat) (text : Text)

theorem isBlank_of_mem_spaces {column : Nat} {c : Char} (h : c ∈ List.replicate column ' ') :
    isBlank c = true := by
  rw [List.eq_of_mem_replicate h]
  decide

theorem byteSize_spaces : byteSize (List.replicate column ' ') = column := by
  have hspace : ' '.utf8Size = 1 := by decide
  induction column with
  | zero => rfl
  | succ column ih =>
      rw [List.replicate_succ, byteSize_cons]
      omega

theorem dropWhile_indented : (text.indented column).dropWhile isBlank = text.dropWhile isBlank :=
  dropWhile_blank_append (fun _ => isBlank_of_mem_spaces) fun _ => isBlank_head?_dropWhile

/-- What the indentation was before does not matter. -/
theorem indented_indented (other : Nat) :
    (text.indented other).indented column = text.indented column := by
  unfold indented
  change List.replicate column ' ' ++ (text.indented other).dropWhile isBlank = _
  rw [dropWhile_indented]

theorem byteSize_indented :
    (text.indented column).byteSize + text.indentation.byteSize = text.byteSize + column := by
  have hsize := congrArg byteSize text.indentation_append
  rw [byteSize_append] at hsize
  rw [indented, byteSize_append, byteSize_spaces]
  omega

theorem newline_not_mem_indented {text : Text} (h : '\n' ∉ text) : '\n' ∉ text.indented column := by
  intro hmem
  rcases List.mem_append.mp hmem with hmem | hmem
  · exact absurd (List.eq_of_mem_replicate hmem) (by decide)
  · exact h ((List.dropWhile_suffix isBlank).subset hmem)

end Indented

end Keystroke.Text
