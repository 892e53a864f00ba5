import Mathlib
import Keystroke.Proofs.OpenLexemes

/-!
# The largest texts

Offsets and line numbers are 32-bit numbers, but offsets count from 0 and lines from 1. So there is
a text whose offsets all fit and whose last line has no number: as many newlines as there can be
bytes.
`tokenize_within_limit` says that it is the only such text, and what fails for the larger ones.
-/

namespace Keystroke

namespace Text

theorem utf8Size_newline : Char.utf8Size '\n' = 1 := rfl

@[simp] theorem byteSize_replicate_newline (n : Nat) : byteSize (List.replicate n '\n') = n := by
  induction n with
  | zero => rfl
  | succ n ih =>
      rw [List.replicate_succ, byteSize_cons, ih, utf8Size_newline, Nat.add_comm]

/-- A text with as many newlines as bytes has nothing else. -/
theorem eq_replicate_of_byteSize_le {text : Text} (h : text.byteSize ≤ text.count '\n') :
    text = List.replicate text.byteSize '\n' := by
  induction text with
  | nil => rfl
  | cons c rest ih =>
      have hrest := count_newline_le_byteSize rest
      rw [byteSize_cons] at h ⊢
      by_cases hc : c = '\n'
      · subst hc
        rw [List.count_cons_self, utf8Size_newline] at h
        rw [utf8Size_newline, Nat.add_comm, List.replicate_succ, ← ih (by omega)]
      · have hpos := c.utf8Size_pos
        rw [List.count_cons_of_ne hc] at h
        omega

end Text

namespace Protobuf

/-! ## Newlines -/

theorem lexemes_newlines (n : Nat) (rest : Text) :
    lexemes (List.replicate n '\n' ++ rest) =
      List.replicate n ⟨.newline, ['\n']⟩ ++ lexemes rest := by
  have hnewline : Rule.advanceAll ['\n'] rules = [⟨.newline, .empty⟩] := rfl
  induction n with
  | zero => rfl
  | succ n ih =>
      have hfirst := lexemes_of_advanceAll hnewline (List.replicate n '\n' ++ rest)
      rw [List.replicate_succ, List.replicate_succ, List.cons_append, List.cons_append, ← ih]
      exact hfirst

theorem joined_newlines (n : Nat) :
    joined (List.replicate n ⟨.newline, ['\n']⟩) = List.replicate n '\n' := by
  induction n with
  | zero => rfl
  | succ n ih =>
      rw [List.replicate_succ, List.replicate_succ, joined_cons, ih]
      rfl

/-! ## The limit -/

section Limit

variable {limit : Nat} (hlimit : limit + 1 = Word.bound)

include hlimit

theorem readable_iff {text : Text} :
    Readable text ↔ text.byteSize ≤ limit ∧ text ≠ List.replicate limit '\n' := by
  constructor
  · intro h
    have hsize := h.size_lt
    have hlines := h.lines_lt
    refine ⟨by omega, ?_⟩
    rintro rfl
    rw [List.count_replicate_self] at hlines
    omega
  · rintro ⟨hsize, hne⟩
    refine ⟨by omega, Nat.lt_of_not_le fun hlines => hne ?_⟩
    have hcount := Text.count_newline_le_byteSize text
    have hfull : text.byteSize = limit := by omega
    rw [← hfull]
    exact Text.eq_replicate_of_byteSize_le (by omega)

theorem overruns_iff {text : Text} {fault : Fault} :
    Overruns text fault ↔
      (fault = .addOverflow ∧ text = List.replicate limit '\n') ∨
      (limit < text.byteSize ∧ fault = .spanStopTooLarge text.byteSize) := by
  constructor
  · intro h
    cases h with
    | size hsize => exact .inr ⟨by omega, rfl⟩
    | lines hsize hlines =>
        refine .inl ⟨rfl, ?_⟩
        by_contra hne
        have hreadable := (readable_iff hlimit).mpr ⟨by omega, hne⟩
        exact Nat.not_lt.mpr hlines hreadable.lines_lt
  · rintro (⟨rfl, rfl⟩ | ⟨hsize, rfl⟩)
    · refine .lines ?_ ?_
      · rw [Text.byteSize_replicate_newline]
        omega
      · rw [List.count_replicate_self]
        omega
    · exact .size (by omega)

/-- The last of so many newlines has an offset, but the line after it has no number. -/
theorem tokenize_newlines (rest : Text) :
    tokenize (List.replicate limit '\n' ++ rest) = .error .addOverflow := by
  have hpos : limit ≠ 0 := by
    rintro rfl
    exact absurd hlimit (by decide)
  obtain ⟨n, rfl⟩ := Nat.exists_eq_succ_of_ne_zero hpos
  have hsplit : lexemes (List.replicate (n + 1) '\n' ++ rest) =
      List.replicate n ⟨.newline, ['\n']⟩ ++ ⟨.newline, ['\n']⟩ :: lexemes rest := by
    rw [lexemes_newlines, List.replicate_succ', List.append_assoc]
    rfl
  apply tokenize_eq_error hsplit
  · apply Readable.of_byteSize
    rw [joined_newlines, Text.byteSize_replicate_newline]
    omega
  · rw [joined_newlines, ← List.replicate_succ']
    exact (overruns_iff hlimit).mpr (.inl ⟨rfl, rfl⟩)

theorem tokenize_fault_iff {text : Text} {fault : Fault} :
    tokenize text = .error fault ↔
      (fault = .addOverflow ∧ List.replicate limit '\n' <+: text) ∨
      (¬ List.replicate limit '\n' <+: text ∧
        ∃ front lexeme back, lexemes text = front ++ lexeme :: back ∧
          (joined front).byteSize ≤ limit ∧
          limit < (joined front ++ lexeme.text).byteSize ∧
          fault = .spanStopTooLarge (joined front ++ lexeme.text).byteSize) := by
  by_cases hstart : List.replicate limit '\n' <+: text
  · have herror : tokenize text = .error .addOverflow := by
      obtain ⟨rest, rfl⟩ := hstart
      exact tokenize_newlines hlimit rest
    simp only [herror, Except.error.injEq, hstart, and_true, not_true_eq_false, false_and, or_false,
      eq_comm]
  · -- No start of the text is the one with too many lines, so only its size is left.
    have hne : ∀ {part}, part <+: text → part ≠ List.replicate limit '\n' := by
      rintro part hpart rfl
      exact hstart hpart
    simp only [tokenize_eq_error_iff, hstart, and_false, false_or, not_false_eq_true, true_and]
    refine exists_congr fun front => exists_congr fun lexeme => exists_congr fun back =>
      and_congr_right fun hsplit => ?_
    obtain ⟨htext, _⟩ := lexemes_append hsplit
    rw [joined_cons, ← List.append_assoc] at htext
    have hthrough : joined front ++ lexeme.text <+: text := ⟨joined back, htext.symm⟩
    have hfront : joined front <+: text := (List.prefix_append _ _).trans hthrough
    rw [readable_iff hlimit, overruns_iff hlimit, and_iff_left (hne hfront),
      or_iff_right fun h => hne hthrough h.2]

end Limit

/-- Every text of 32-bit size has tokens, but for the one of newlines only. What fails is the number
of a line if so many newlines come first, and otherwise the stop of the first token beyond the
limit. -/
theorem tokenize_within_limit (text : Text) :
    ((∃ tokens, tokenize text = .ok tokens) ↔
      text.byteSize ≤ 4294967295 ∧ text ≠ List.replicate 4294967295 '\n') ∧
    ∀ fault, tokenize text = .error fault ↔
      (fault = .addOverflow ∧ List.replicate 4294967295 '\n' <+: text) ∨
      (¬ List.replicate 4294967295 '\n' <+: text ∧
        ∃ front lexeme back, lexemes text = front ++ lexeme :: back ∧
          (joined front).byteSize ≤ 4294967295 ∧
          4294967295 < (joined front ++ lexeme.text).byteSize ∧
          fault = .spanStopTooLarge (joined front ++ lexeme.text).byteSize) := by
  have hlimit : 4294967295 + 1 = Word.bound := rfl
  refine ⟨?_, fun fault => tokenize_fault_iff hlimit⟩
  rw [exists_tokenize_iff]
  exact readable_iff hlimit

-- The size is within the limit: it is the line at the end of the text that overflows.
theorem tokenize_newlines_overflow :
    Text.byteSize (List.replicate 4294967295 '\n') ≤ 4294967295 ∧
    tokenize (List.replicate 4294967295 '\n') = .error .addOverflow := by
  have hlimit : 4294967295 + 1 = Word.bound := rfl
  have htokens := tokenize_newlines hlimit []
  rw [List.append_nil] at htokens
  exact ⟨Nat.le_of_eq (Text.byteSize_replicate_newline 4294967295), htokens⟩

end Protobuf

end Keystroke
