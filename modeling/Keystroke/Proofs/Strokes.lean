import Mathlib
import Keystroke.Proofs.DocumentLines
import Keystroke.Stroke.LineBreak
import Keystroke.Stroke.Pairing

/-!
# What a keystroke leaves behind

Where the caret goes is decided by the typed character alone, and what is inserted by the rules for
pairs and for line breaks. They fit together: a typed character always stands right before the caret
afterwards (`Aligned.exists_result`), and a line break leaves the caret between two characters
(`exists_layOut`).
-/

namespace Keystroke

/-! ## Comments at a caret -/

namespace Document

variable {κ : Type} {document : Document κ} {offset : Nat} {before after : Text}

section Cut

variable (hcut : document.cut offset = .ok (before, after))

include hcut

theorem closesComment_eq (hoffset : offset ≠ 0) :
    document.closesComment offset =
      .ok (document.isUnclosedBlockComment (document.tokenBefore offset) &&
        before.lastLine.includes ['/', '*']) := by
  rw [closesComment, if_neg hoffset, hcut, document.tokenAt_before hoffset]
  rfl

theorem exists_closesComment : ∃ closes, document.closesComment offset = .ok closes := by
  by_cases hzero : offset = 0
  · rw [closesComment, if_pos hzero]
    exact ⟨false, rfl⟩
  · exact ⟨_, closesComment_eq hcut hzero⟩

theorem continuesComment_eq :
    document.continuesComment offset =
      .ok (document.classifier.isBlockComment (document.tokenAfter offset).kind &&
        before.lastLine.contains '*' &&
        !(document.isUnclosedBlockComment (document.tokenAfter offset) &&
          before.lastLine.includes ['/', '*'])) := by
  rw [continuesComment, hcut]
  rfl

theorem exists_continuesComment :
    ∃ continues, document.continuesComment offset = .ok continues :=
  ⟨_, continuesComment_eq hcut⟩

end Cut

end Document

namespace Stroke

variable {κ : Type} {document : Document κ} {stroke : Stroke κ}

/-! ## Typed characters -/

/-- The caret goes to where the typed character ends: the insertion starts with it, or is empty and
the character is there already. -/
structure Aligned (stroke : Stroke κ) : Prop where
  cut : stroke.document.cut stroke.offset = .ok (stroke.before, stroke.after)
  caret_eq : stroke.caret = stroke.offset + stroke.typed.utf8Size
  insertion : (∃ more, stroke.insertion = stroke.typed :: more) ∨
    (stroke.insertion = [] ∧ stroke.isAhead = true)

theorem start_eq {before after : Text} (htext : document.text = before ++ after) (typed : Char) :
    start document before.byteSize typed = .ok
      ⟨document, before.byteSize, typed, before, after, [typed],
        before.byteSize + typed.utf8Size⟩ :=
  Fault.bind_eq_ok_iff.mpr ⟨(before, after), Document.cut_eq_ok_iff.mpr ⟨htext, rfl⟩, rfl⟩

theorem exists_start {offset : Nat} (h : document.text.Boundary offset) (typed : Char) :
    ∃ stroke, start document offset typed = .ok stroke ∧ stroke.Aligned ∧
      stroke.document = document ∧ stroke.typed = typed ∧ stroke.insertion = [typed] := by
  obtain ⟨before, after, htext, rfl⟩ := h
  have hcut := Document.cut_eq_ok_iff.mpr ⟨htext, rfl⟩
  exact ⟨_, start_eq htext typed, ⟨hcut, rfl, .inl ⟨[], rfl⟩⟩, rfl, rfl, rfl⟩

theorem Aligned.bring (h : stroke.Aligned) (hne : stroke.insertion ≠ []) (c : Char) :
    (stroke.bring c).Aligned := by
  refine ⟨h.cut, h.caret_eq, .inl ?_⟩
  rcases h.insertion with ⟨more, hmore⟩ | ⟨hnil, _⟩
  · exact ⟨more ++ [c], congrArg (· ++ [c]) hmore⟩
  · exact absurd hnil hne

theorem Aligned.typeOver (h : stroke.Aligned) (hahead : stroke.isAhead = true) :
    stroke.typeOver.Aligned :=
  ⟨h.cut, h.caret_eq, .inr ⟨rfl, hahead⟩⟩

theorem Aligned.pairOpening (h : stroke.Aligned) (hne : stroke.insertion ≠ []) (closing : Char) :
    (stroke.pairOpening closing).Aligned := by
  unfold Stroke.pairOpening
  by_cases hcode : stroke.isInCode = true
  · rw [if_pos hcode]
    exact h.bring hne closing
  · rw [if_neg hcode]
    exact h

theorem Aligned.pairClosing (h : stroke.Aligned) : stroke.pairClosing.Aligned := by
  unfold Stroke.pairClosing
  by_cases hover : (stroke.isAhead && stroke.isInCode) = true
  · rw [if_pos hover]
    exact h.typeOver (Bool.and_eq_true_iff.mp hover).1
  · rw [if_neg hover]
    exact h

theorem Aligned.pairQuote (h : stroke.Aligned) (hne : stroke.insertion ≠ []) :
    stroke.pairQuote.Aligned := by
  unfold Stroke.pairQuote
  by_cases hescaped : stroke.isEscaped = true
  · rw [if_pos hescaped]
    exact h
  · rw [if_neg hescaped]
    by_cases hstring : stroke.document.isInString stroke.offset = true
    · rw [if_pos hstring]
      by_cases hahead : stroke.isAhead = true
      · rw [if_pos hahead]
        exact h.typeOver hahead
      · rw [if_neg hahead]
        exact h
    · rw [if_neg hstring]
      by_cases hplain : (stroke.document.isInComment stroke.offset || stroke.waitsAhead) = true
      · rw [if_pos hplain]
        exact h
      · rw [if_neg hplain]
        exact h.bring hne stroke.typed

theorem Aligned.pair (h : stroke.Aligned) (hne : stroke.insertion ≠ []) :
    stroke.pair.2.Aligned := by
  unfold Stroke.pair
  cases KeyClass.of stroke.typed with
  | opening closing => exact h.pairOpening hne closing
  | closing => exact h.pairClosing
  | quote => exact h.pairQuote hne
  | plain => exact h

/-- Pairing decides what is inserted, and nothing else. -/
theorem exists_pair_eq (stroke : Stroke κ) :
    ∃ insertion, stroke.pair.2 = { stroke with insertion } := by
  unfold pair
  cases KeyClass.of stroke.typed with
  | opening closing =>
      show ∃ insertion, stroke.pairOpening closing = { stroke with insertion }
      unfold pairOpening
      split <;> exact ⟨_, rfl⟩
  | closing =>
      show ∃ insertion, stroke.pairClosing = { stroke with insertion }
      unfold pairClosing
      split <;> exact ⟨_, rfl⟩
  | quote =>
      show ∃ insertion, stroke.pairQuote = { stroke with insertion }
      unfold pairQuote
      split
      · exact ⟨_, rfl⟩
      · split
        · split <;> exact ⟨_, rfl⟩
        · split <;> exact ⟨_, rfl⟩
  | plain => exact ⟨_, rfl⟩

theorem caret_pair (stroke : Stroke κ) : stroke.pair.2.caret = stroke.caret := by
  obtain ⟨insertion, h⟩ := stroke.exists_pair_eq
  rw [h]

theorem result_pair (stroke : Stroke κ) :
    stroke.pair.2.result = stroke.before ++ stroke.pair.2.insertion ++ stroke.after := by
  obtain ⟨insertion, h⟩ := stroke.exists_pair_eq
  rw [h, result]

/-- A partner is brought in code only. -/
theorem isInCode_of_length_pair (htyped : stroke.insertion = [stroke.typed])
    (h : stroke.pair.2.insertion.length = 2) : stroke.isInCode = true := by
  have hshort : stroke.insertion.length ≠ 2 := by
    rw [htyped]
    exact Nat.ne_of_lt Nat.one_lt_two
  have hover : stroke.typeOver.insertion.length ≠ 2 := nofun
  unfold pair at h
  cases hclass : KeyClass.of stroke.typed with
  | opening closing =>
      rw [hclass] at h
      change (stroke.pairOpening closing).insertion.length = 2 at h
      unfold pairOpening at h
      split at h
      · assumption
      · exact absurd h hshort
  | closing =>
      rw [hclass] at h
      change stroke.pairClosing.insertion.length = 2 at h
      unfold pairClosing at h
      split at h
      · exact absurd h hover
      · exact absurd h hshort
  | quote =>
      rw [hclass] at h
      change stroke.pairQuote.insertion.length = 2 at h
      unfold pairQuote at h
      split at h
      · exact absurd h hshort
      · split at h
        · split at h
          · exact absurd h hover
          · exact absurd h hshort
        · split at h
          · exact absurd h hshort
          next hstring hcomment =>
            rw [Bool.or_eq_true, not_or, Bool.not_eq_true] at hcomment
            rw [Bool.not_eq_true] at hstring
            rw [isInCode, Document.isInCode, hstring, hcomment.1]
            rfl
  | plain =>
      rw [hclass] at h
      exact absurd h hshort

theorem pair_typeOver_of_closing (hclass : KeyClass.of stroke.typed = .closing)
    (hahead : stroke.isAhead = true) (hcode : stroke.isInCode = true) :
    stroke.pair.2 = stroke.typeOver := by
  unfold pair
  rw [hclass]
  change stroke.pairClosing = stroke.typeOver
  rw [pairClosing, hahead, hcode]
  rfl

theorem pair_typeOver_of_quote (hclass : KeyClass.of stroke.typed = .quote)
    (hescaped : stroke.isEscaped = false) (hahead : stroke.isAhead = true)
    (hstring : stroke.document.isInString stroke.offset = true) :
    stroke.pair.2 = stroke.typeOver := by
  unfold pair
  rw [hclass]
  change stroke.pairQuote = stroke.typeOver
  rw [pairQuote, hescaped, hahead, hstring]
  rfl

theorem pair_of_escaped (hclass : KeyClass.of stroke.typed = .quote)
    (hescaped : stroke.isEscaped = true) : stroke.pair.2 = stroke := by
  unfold pair
  rw [hclass]
  change stroke.pairQuote = stroke
  rw [pairQuote, if_pos hescaped]

/-- A keystroke takes nothing away. -/
theorem sublist_result (h : stroke.document.cut stroke.offset = .ok (stroke.before, stroke.after)) :
    stroke.document.text.Sublist stroke.result := by
  rw [(Document.cut_eq_ok_iff.mp h).1, result, List.append_assoc]
  exact (List.sublist_append_right stroke.insertion stroke.after).append_left stroke.before

/-- The typed character stands right before the caret. -/
theorem Aligned.exists_result (h : stroke.Aligned) :
    ∃ rest, stroke.result = stroke.before ++ stroke.typed :: rest ∧
      stroke.caret = Text.byteSize (stroke.before ++ [stroke.typed]) := by
  have hsize := (Document.cut_eq_ok_iff.mp h.cut).2
  have hcaret : stroke.caret = Text.byteSize (stroke.before ++ [stroke.typed]) := by
    rw [Text.byteSize_append, hsize, h.caret_eq]
    rfl
  rcases h.insertion with ⟨more, hmore⟩ | ⟨hnil, hahead⟩
  · refine ⟨more ++ stroke.after, ?_, hcaret⟩
    rw [result, hmore, List.append_assoc, List.cons_append]
  · -- Nothing is inserted, and the character is the first one after the caret.
    obtain ⟨rest, hafter⟩ := List.head?_eq_some_iff.mp (beq_iff_eq.mp hahead)
    refine ⟨rest, ?_, hcaret⟩
    rw [result, hnil, List.append_nil, hafter]

/-! ## Line breaks -/

/-- The layouts of a line break, and which of them goes before which. -/
theorem exists_layOut_eq
    (hcut : stroke.document.cut stroke.offset = .ok (stroke.before, stroke.after))
    {closes continues : Bool} (hcloses : stroke.document.closesComment stroke.offset = .ok closes)
    (hcontinues : stroke.document.continuesComment stroke.offset = .ok continues) :
    ∃ indentation, stroke.layOut = .ok
      (if continues then { stroke with
        insertion := commentLine, caret := stroke.offset + commentLine.byteSize }
      else if closes then { stroke with
        insertion := commentEnd, caret := stroke.offset + commentLine.byteSize }
      else if stroke.isBetweenBraces then { stroke with
        insertion := '\n' :: '\n' :: indentation, caret := stroke.offset + 1 }
      else stroke) := by
  obtain ⟨line, hline, _⟩ := Document.exists_lineAt hcut
  refine ⟨line.indentation, ?_⟩
  rw [layOut, hline, hcloses, hcontinues]
  cases continues with
  | true => rfl
  | false =>
      cases closes with
      | true => rfl
      | false => exact (apply_ite Except.ok _ _ _).symm

/-- A line break always finds its layout: it inserts a text, and the caret goes to the end of some
front part of that. -/
theorem exists_layOut (h : stroke.Aligned) (htyped : stroke.insertion = [stroke.typed]) :
    ∃ front back caret, stroke.layOut = .ok { stroke with insertion := front ++ back, caret } ∧
      caret = stroke.offset + front.byteSize := by
  obtain ⟨closes, hcloses⟩ := Document.exists_closesComment h.cut
  obtain ⟨continues, hcontinues⟩ := Document.exists_continuesComment h.cut
  obtain ⟨indentation, hlayOut⟩ := exists_layOut_eq h.cut hcloses hcontinues
  rw [hlayOut]
  split
  · exact ⟨commentLine, [], _, rfl, rfl⟩
  · split
    · exact ⟨commentLine, ['\n', ' ', '*', '/'], _, rfl, rfl⟩
    · split
      · exact ⟨['\n'], '\n' :: indentation, _, rfl, rfl⟩
      · -- The stroke stays as it was, with the caret after what is typed.
        refine ⟨[stroke.typed], [], stroke.caret, ?_, h.caret_eq⟩
        rw [List.append_nil, ← htyped]

/-- So a line break leaves the caret between two characters. -/
theorem boundary_result {front back : Text} {caret : Nat}
    (hcut : stroke.document.cut stroke.offset = .ok (stroke.before, stroke.after))
    (hcaret : caret = stroke.offset + front.byteSize) :
    (result { stroke with insertion := front ++ back, caret }).Boundary caret := by
  have hsize := (Document.cut_eq_ok_iff.mp hcut).2
  refine ⟨stroke.before ++ front, back ++ stroke.after, ?_, ?_⟩
  · simp only [result, List.append_assoc]
  · rw [Text.byteSize_append, hsize, hcaret]

end Stroke

end Keystroke
