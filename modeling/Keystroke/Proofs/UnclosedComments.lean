import Mathlib
import Keystroke.Proofs.CaretContext

/-!
# Block comments that count as unclosed

Whether a block comment lacks its end is told from its place and its inside, not from its end mark.
It counts as unclosed if it has no end mark or a second opening mark inside, but also if its end
mark is the end of the text (`isUnclosedBlockComment_iff_end`).
-/

namespace Keystroke.Protobuf

/-! ## How a block comment ends -/

/-- A block comment and what follows it: its end mark is the first one, or there is none and nothing
follows. -/
inductive Commented : Text → Text → Prop where
  | closed {inside after : Text} (h : NoEnd (inside ++ ['*'])) :
      Commented ('/' :: '*' :: (inside ++ ['*', '/'])) after
  | unclosed {inside : Text} (h : NoEnd inside) : Commented ('/' :: '*' :: inside) []

theorem First.commented {lexeme : Lexeme} {after : Text} (h : First (lexeme.text ++ after) lexeme)
    (hkind : lexeme.kind = .blockComment) : Commented lexeme.text after := by
  have hopens := h.opens (by rw [hkind]; rfl)
  rw [hkind] at hopens
  obtain ⟨kind, content⟩ := lexeme
  cases hopens with
  | @blockComment s =>
      have hrest : First ('/' :: '*' :: (s ++ after)) ⟨kind, '/' :: '*' :: s⟩ := h
      rcases (first_blockComment hrest).2 with ⟨inside, tail, _, hend, htext⟩ | ⟨hend, htext⟩
      · rw [htext]
        exact .closed hend
      · -- Without an end mark all of the text is the comment.
        have hnil : after = [] := by simpa using htext
        rw [hnil, List.append_nil] at hend
        rw [hnil]
        exact .unclosed hend

section Token

variable {text before after : Text} {lexeme : Lexeme} {token : Token Kind}
  {document : Document Kind}

theorem isUnclosedBlockComment_eq (hdocument : Document.protobuf text = .ok document)
    (hkind : token.kind = .blockComment) :
    document.isUnclosedBlockComment token =
      ((text.slice? (token.span.start + 2) (token.span.stop - 2)).any
          (Text.includes · ['/', '*']) ||
        text.byteSize ≤ token.span.stop) := by
  obtain ⟨_, htext, hclassifier⟩ := Document.protobuf_eq_ok_iff.mp hdocument
  unfold Document.isUnclosedBlockComment
  rw [hclassifier, htext]
  show (token.kind == .blockComment && _) = _
  rw [hkind, beq_self_eq_true, Bool.true_and]

theorem Occurs.byteSize_eq (h : Occurs text before lexeme after token) :
    text.byteSize = token.span.stop + after.byteSize := by
  rw [h.text_eq, Text.byteSize_append, h.stands.stop]

/-- Where the text ends with it, a comment counts as unclosed. -/
theorem Occurs.isUnclosed_of_end (hdocument : Document.protobuf text = .ok document)
    (h : Occurs text before lexeme [] token) (hkind : lexeme.kind = .blockComment) :
    document.isUnclosedBlockComment token = true := by
  have hsize : text.byteSize ≤ token.span.stop := Nat.le_of_eq h.byteSize_eq
  rw [isUnclosedBlockComment_eq hdocument (h.stands.kind.trans hkind), decide_eq_true hsize,
    Bool.or_true]

theorem Occurs.stop_closed {inside : Text}
    (h : Occurs text before ⟨.blockComment, '/' :: '*' :: (inside ++ ['*', '/'])⟩ after token) :
    token.span.stop = token.span.start + inside.byteSize + 4 := by
  rw [h.stands.stop, h.stands.start, Text.byteSize_append]
  show before.byteSize + (1 + (1 + Text.byteSize (inside ++ ['*', '/']))) = _
  rw [Text.byteSize_append]
  show before.byteSize + (1 + (1 + (inside.byteSize + 2))) = _
  omega

theorem Occurs.isUnclosed_closed_iff {inside : Text}
    (hdocument : Document.protobuf text = .ok document)
    (h : Occurs text before ⟨.blockComment, '/' :: '*' :: (inside ++ ['*', '/'])⟩ after token) :
    document.isUnclosedBlockComment token = true ↔ ['/', '*'] <:+: inside ∨ after = [] := by
  have hslice : text.slice? (token.span.start + 2) (token.span.stop - 2) = some inside := by
    have hparts := Text.slice?_append (before ++ ['/', '*']) inside (['*', '/'] ++ after)
    have hmark : Text.byteSize (before ++ ['/', '*']) = token.span.start + 2 := by
      rw [Text.byteSize_append, h.stands.start]
      rfl
    have hend : token.span.start + 2 + inside.byteSize = token.span.stop - 2 := by
      have hstop := h.stop_closed
      omega
    rw [hmark, hend] at hparts
    rw [← hparts, h.text_eq]
    simp only [List.append_assoc, List.cons_append, List.nil_append]
  have hsize : text.byteSize ≤ token.span.stop ↔ after = [] := by
    rw [h.byteSize_eq]
    by_cases hafter : after = []
    · rw [hafter, Text.byteSize_nil]
      simp
    · have hpos := Text.byteSize_pos hafter
      refine iff_of_false ?_ hafter
      omega
  rw [isUnclosedBlockComment_eq hdocument h.stands.kind, hslice, Option.any_some, Bool.or_eq_true,
    Text.includes_iff, decide_eq_true_iff, hsize]

end Token

/-- A block comment counts as unclosed if no end mark follows its opening mark, or if up to the
first end mark there is a second opening mark, or if the text ends with that end mark. -/
theorem isUnclosedBlockComment_iff_end (text : Text) (h : Readable text) :
    ∃ document, Document.protobuf text = .ok document ∧
      ∀ token ∈ document.tokens, token.kind = .blockComment →
        ∃ before rest, text = before ++ '/' :: '*' :: rest ∧ token.span.start = before.byteSize ∧
          (document.isUnclosedBlockComment token = true ↔
            NoEnd rest ∨ ∃ inside after : Text, rest = inside ++ '*' :: '/' :: after ∧
              NoEnd (inside ++ ['*']) ∧ token.span.stop = token.span.start + inside.byteSize + 4 ∧
              (['/', '*'] <:+: inside ∨ after = [])) := by
  obtain ⟨_, document, _, _, hdocument, _⟩ := h.exists_document
  refine ⟨document, hdocument, fun token hmem hkind => ?_⟩
  have htokenize := (Document.protobuf_eq_ok_iff.mp hdocument).1
  have hne : token.kind ≠ .eof := by
    rw [hkind]
    decide
  obtain ⟨before, lexeme, after, hoccurs⟩ := exists_occurs_of_mem htokenize hmem hne
  rw [hoccurs.stands.kind] at hkind
  have hcommented := hoccurs.first.commented hkind
  have htext := hoccurs.text_eq
  obtain ⟨kind, content⟩ := lexeme
  cases hkind
  cases hcommented with
  | @closed inside after hend =>
      refine ⟨before, inside ++ '*' :: '/' :: after, ?_, hoccurs.stands.start, ?_⟩
      · rw [htext]
        simp only [List.append_assoc, List.cons_append, List.nil_append]
      · rw [hoccurs.isUnclosed_closed_iff hdocument]
        constructor
        · exact fun hunclosed => .inr ⟨inside, after, rfl, hend, hoccurs.stop_closed, hunclosed⟩
        · rintro (hnone | ⟨other, rest, hrest, hother, _, hunclosed⟩)
          · exact absurd ⟨inside, after, by simp⟩ hnone
          · obtain ⟨rfl, rfl⟩ := first_end_unique hend hother hrest
            exact hunclosed
  | @unclosed inside hend =>
      refine ⟨before, inside, ?_, hoccurs.stands.start, ?_⟩
      · rw [htext, List.append_nil]
      · exact iff_of_true (hoccurs.isUnclosed_of_end hdocument rfl) (.inl hend)

-- The comment runs into the next one, whose end mark it takes for its own.
theorem isUnclosedBlockComment_into_next :
    Readable ['/', '*', '/', '/', '*', '*', '/', 'a'] ∧
      ∃ document token, Document.protobuf ['/', '*', '/', '/', '*', '*', '/', 'a'] = .ok document ∧
        token ∈ document.tokens ∧ token.kind = .blockComment ∧ token.span.stop = 7 ∧
        document.isUnclosedBlockComment token = true := by
  have hreadable : Readable ['/', '*', '/', '/', '*', '*', '/', 'a'] := ⟨by decide, by decide⟩
  have hvalue : tokenize ['/', '*', '/', '/', '*', '*', '/', 'a'] = .ok
      #[⟨.blockComment, ⟨0, 7, by decide, by decide⟩, 1, 0⟩,
        ⟨.ident, ⟨7, 8, by decide, by decide⟩, 1, 7⟩,
        ⟨.eof, ⟨8, 8, by decide, by decide⟩, 1, 8⟩] := by cbv
  obtain ⟨document, hdocument, hcomments⟩ := isUnclosedBlockComment_iff_end _ hreadable
  have htokens := (Document.protobuf_eq_ok_iff.mp hdocument).1
  rw [hvalue, Except.ok.injEq] at htokens
  have hmem : ⟨.blockComment, ⟨0, 7, by decide, by decide⟩, 1, 0⟩ ∈ document.tokens := by
    rw [← htokens]
    exact Array.mem_of_getElem? (i := 0) rfl
  obtain ⟨before, rest, htext, hstart, hiff⟩ := hcomments _ hmem rfl
  have hbefore : before = [] := by
    by_contra hne
    exact absurd hstart (Nat.ne_of_lt (Text.byteSize_pos hne))
  rw [hbefore, List.nil_append] at htext
  simp only [List.cons.injEq, true_and] at htext
  refine ⟨hreadable, document, _, hdocument, hmem, rfl, rfl, hiff.mpr (.inr ?_)⟩
  exact ⟨['/', '/', '*'], ['a'], htext.symm, by unfold NoEnd; decide, rfl, .inl (by decide)⟩

/-- A comment whose end mark is the end of the text counts as unclosed, although its end mark
follows and no second opening mark is inside. -/
theorem isUnclosedBlockComment_at_end :
    ∃ document token, Document.protobuf ['/', '*', ' ', 'a', ' ', '*', '/'] = .ok document ∧
      token ∈ document.tokens ∧ token.kind = .blockComment ∧ token.span.start = 0 ∧
      token.span.stop = 7 ∧
      document.text.slice? (token.span.start + 2) document.size = some [' ', 'a', ' ', '*', '/'] ∧
      ['*', '/'] <:+: [' ', 'a', ' ', '*', '/'] ∧
      document.text.slice? (token.span.start + 2) (token.span.stop - 2) = some [' ', 'a', ' '] ∧
      ¬ ['/', '*'] <:+: [' ', 'a', ' '] ∧ document.isUnclosedBlockComment token = true := by
  have hreadable : Readable ['/', '*', ' ', 'a', ' ', '*', '/'] := ⟨by decide, by decide⟩
  have hvalue : tokenize ['/', '*', ' ', 'a', ' ', '*', '/'] = .ok
      #[⟨.blockComment, ⟨0, 7, by decide, by decide⟩, 1, 0⟩,
        ⟨.eof, ⟨7, 7, by decide, by decide⟩, 1, 7⟩] := by cbv
  obtain ⟨_, document, _, _, hdocument, htext, _⟩ := hreadable.exists_document
  have htokens := (Document.protobuf_eq_ok_iff.mp hdocument).1
  rw [hvalue, Except.ok.injEq] at htokens
  have hmem : ⟨.blockComment, ⟨0, 7, by decide, by decide⟩, 1, 0⟩ ∈ document.tokens := by
    rw [← htokens]
    exact Array.mem_of_getElem? (i := 0) rfl
  refine ⟨document, _, hdocument, hmem, rfl, rfl, rfl, ?_, by decide, ?_, by decide, ?_⟩
  · rw [Document.size, htext]
    rfl
  · rw [htext]
    rfl
  · rw [isUnclosedBlockComment_eq hdocument rfl]
    decide

end Keystroke.Protobuf
