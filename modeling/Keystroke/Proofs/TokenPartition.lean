import Mathlib
import Keystroke.Document.Basic
import Keystroke.Proofs.QuotedStrings

/-!
# Tokens partition their text

The tokens of a text lie side by side from its start to its end, each on whole characters, and only
the sentinel at the end is empty (`tokenize_partitions`). So they are always the tokens of a
document.
-/

namespace Keystroke

namespace Protobuf

/-! ## Tokens and lexemes -/

theorem Placed.chained {before : Text} {lexemes : List Lexeme} {tokens : List (Token Kind)}
    (h : Placed before lexemes tokens) : Chained before.byteSize tokens := by
  induction h with
  | sentinel hstands => exact ⟨hstands.start, trivial⟩
  | lexeme hstands _ ih =>
      refine ⟨hstands.start, ?_⟩
      rw [hstands.stop]
      exact ih

/-- Every token but the sentinel stands for a lexeme, after the lexemes before that one. -/
theorem Placed.exists_body {before : Text} {lexemes : List Lexeme} {tokens : List (Token Kind)}
    (h : Placed before lexemes tokens) :
    ∃ body sentinel, tokens = body ++ [sentinel] ∧
      Stands (before ++ joined lexemes) ⟨.eof, []⟩ sentinel ∧
      ∀ token ∈ body, ∃ front lexeme back, lexemes = front ++ lexeme :: back ∧
        Stands (before ++ joined front) lexeme token := by
  induction h with
  | @sentinel before token hstands =>
      refine ⟨[], token, rfl, ?_, fun token hmem => absurd hmem List.not_mem_nil⟩
      rw [joined_nil, List.append_nil]
      exact hstands
  | @lexeme before lexeme lexemes token tokens hstands _ ih =>
      obtain ⟨body, sentinel, rfl, hsentinel, hbody⟩ := ih
      refine ⟨token :: body, sentinel, rfl, ?_, fun other hmem => ?_⟩
      · rw [joined_cons, ← List.append_assoc]
        exact hsentinel
      · rcases List.mem_cons.mp hmem with rfl | hmem
        · refine ⟨[], lexeme, lexemes, rfl, ?_⟩
          rw [joined_nil, List.append_nil]
          exact hstands
        · obtain ⟨front, later, back, rfl, hlater⟩ := hbody other hmem
          refine ⟨lexeme :: front, later, back, rfl, ?_⟩
          rw [joined_cons, ← List.append_assoc]
          exact hlater

/-- A token of a text: the text before it, its lexeme, which is the first one of what follows, and
the text after it. -/
structure Occurs (text before : Text) (lexeme : Lexeme) (after : Text) (token : Token Kind) :
    Prop where
  text_eq : text = before ++ lexeme.text ++ after
  first : First (lexeme.text ++ after) lexeme
  stands : Stands before lexeme token

theorem exists_body_of_tokenize {text : Text} {tokens : TokenList Kind}
    (h : tokenize text = .ok tokens) :
    ∃ (body : TokenList Kind) (sentinel : Token Kind), tokens = body.push sentinel ∧
      Stands text ⟨.eof, []⟩ sentinel ∧
      ∀ token ∈ body, ∃ before lexeme after, Occurs text before lexeme after token := by
  obtain ⟨body, sentinel, htokens, hsentinel, hbody⟩ := (placed_of_tokenize h).exists_body
  rw [List.nil_append, joined_lexemes] at hsentinel
  refine ⟨body.toArray, sentinel, ?_, hsentinel, fun token hmem => ?_⟩
  · apply Array.toList_inj.mp
    rw [htokens, Array.toList_push]
  · obtain ⟨front, lexeme, back, hsplit, hstands⟩ := hbody token (by simpa using hmem)
    obtain ⟨htext, hback⟩ := lexemes_append hsplit
    refine ⟨joined front, lexeme, joined back, ?_, first_of_lexemes_eq_cons hback, hstands⟩
    rw [htext, joined_cons, List.append_assoc]

theorem exists_occurs_of_mem {text : Text} {tokens : TokenList Kind} {token : Token Kind}
    (h : tokenize text = .ok tokens) (hmem : token ∈ tokens) (hkind : token.kind ≠ .eof) :
    ∃ before lexeme after, Occurs text before lexeme after token := by
  obtain ⟨body, sentinel, rfl, hsentinel, hbody⟩ := exists_body_of_tokenize h
  rcases Array.mem_push.mp hmem with hmem | rfl
  · exact hbody token hmem
  · exact absurd hsentinel.kind hkind

theorem Occurs.start_lt_stop {text before after : Text} {lexeme : Lexeme} {token : Token Kind}
    (h : Occurs text before lexeme after token) : token.span.start < token.span.stop := by
  have hpos := Text.byteSize_pos h.first.ne_nil
  rw [h.stands.start, h.stands.stop, Text.byteSize_append]
  omega

theorem Occurs.boundary {text before after : Text} {lexeme : Lexeme} {token : Token Kind}
    (h : Occurs text before lexeme after token) : text.Boundary token.span.stop := by
  rw [h.text_eq, h.stands.stop]
  exact Text.boundary_append (before ++ lexeme.text) after

/-- A text is cut in one way only where a token starts. -/
theorem Occurs.eq_of_start {text before after front back : Text} {lexeme : Lexeme}
    {token : Token Kind} (h : Occurs text before lexeme after token) (htext : text = front ++ back)
    (hstart : token.span.start = front.byteSize) : before = front ∧ lexeme.text ++ after = back := by
  have hcut : text.splitAt? token.span.start = some (before, lexeme.text ++ after) :=
    Text.splitAt?_eq_some_iff.mpr ⟨by rw [h.text_eq, List.append_assoc], h.stands.start.symm⟩
  have hcut' : text.splitAt? token.span.start = some (front, back) :=
    Text.splitAt?_eq_some_iff.mpr ⟨htext, hstart.symm⟩
  rw [hcut, Option.some.injEq, Prod.mk.injEq] at hcut'
  exact hcut'

theorem Occurs.stop_of_isQuote {text before after front rest : Text} {lexeme : Lexeme}
    {token : Token Kind} {quote : Char} (h : Occurs text before lexeme after token)
    (hquote : IsQuote quote) (htext : text = front ++ quote :: rest)
    (hstart : token.span.start = front.byteSize) :
    token.span.stop = token.span.start + 1 + (stringBytes quote rest.bytes).length := by
  have hfirst := h.first
  rw [(h.eq_of_start htext hstart).2] at hfirst
  rw [h.stands.stop, h.stands.start, first_quoted hquote hfirst, Text.byteSize_append,
    Text.byteSize_cons, stringBytes_bytes hquote, Text.utf8Size_ascii hquote.isAscii]
  dsimp only
  omega

/-! ## The partition -/

/-- The tokens before the sentinel, and the sentinel, cover a text without gap or overlap, on whole
characters. A string ends where a walk over the bytes after its quote does. -/
structure Partitions (text : Text) (body : TokenList Kind) (sentinel : Token Kind) : Prop where
  chained : Chained 0 (body.push sentinel).toList
  boundary : ∀ token ∈ body.push sentinel, text.Boundary token.span.stop
  start_lt_stop : ∀ token ∈ body, token.span.start < token.span.stop
  kind_ne_eof : ∀ token ∈ body, token.kind ≠ .eof
  sentinel_kind : sentinel.kind = .eof
  sentinel_start : sentinel.span.start = text.byteSize
  sentinel_stop : sentinel.span.stop = text.byteSize
  string_stop : ∀ token ∈ body, ∀ (front rest : Text) (quote : Char), text = front ++ quote :: rest →
    IsQuote quote → token.span.start = front.byteSize →
      token.span.stop = token.span.start + 1 + (stringBytes quote rest.bytes).length

theorem exists_partitions {text : Text} {tokens : TokenList Kind}
    (h : tokenize text = .ok tokens) :
    ∃ body sentinel, tokens = body.push sentinel ∧ Partitions text body sentinel := by
  have hchained := (placed_of_tokenize h).chained
  obtain ⟨body, sentinel, rfl, hsentinel, hbody⟩ := exists_body_of_tokenize h
  have hstop : sentinel.span.stop = text.byteSize := by
    rw [hsentinel.stop, List.append_nil]
  refine ⟨body, sentinel, rfl, ⟨hchained, ?_, ?_, ?_, hsentinel.kind, hsentinel.start, hstop, ?_⟩⟩
  · intro token hmem
    rcases Array.mem_push.mp hmem with hmem | rfl
    · obtain ⟨before, lexeme, after, hoccurs⟩ := hbody token hmem
      exact hoccurs.boundary
    · rw [hstop]
      exact Text.boundary_byteSize text
  · intro token hmem
    obtain ⟨before, lexeme, after, hoccurs⟩ := hbody token hmem
    exact hoccurs.start_lt_stop
  · intro token hmem
    obtain ⟨before, lexeme, after, hoccurs⟩ := hbody token hmem
    rw [hoccurs.stands.kind]
    exact hoccurs.first.kind_ne_eof
  · intro token hmem front rest quote htext hquote hstart
    obtain ⟨before, lexeme, after, hoccurs⟩ := hbody token hmem
    exact hoccurs.stop_of_isQuote hquote htext hstart

/-- A text that can be read has a document. -/
theorem Readable.exists_document {text : Text} (hreadable : Readable text) :
    ∃ tokens document, tokenize text = .ok tokens ∧
      Document.ofTokens text tokens .protobuf = .ok document ∧
      Document.protobuf text = .ok document ∧
      document.text = text ∧ document.classifier = .protobuf := by
  obtain ⟨tokens, htokens⟩ := exists_tokenize_iff.mpr hreadable
  obtain ⟨body, sentinel, rfl, h⟩ := exists_partitions htokens
  -- What the construction of a document asks for is part of what a partition is.
  have hend : Classifier.protobuf.isEnd sentinel.kind := by
    rw [h.sentinel_kind]
    rfl
  let document : Document Kind :=
    ⟨text, body, sentinel, .protobuf, hend, h.chained, h.sentinel_start, h.sentinel_stop⟩
  have hdocument : Document.ofTokens text (body.push sentinel) .protobuf = .ok document :=
    Document.ofTokens_eq_ok_iff.mpr ⟨rfl, rfl, rfl⟩
  refine ⟨_, document, htokens, hdocument, ?_, rfl, rfl⟩
  rw [Document.protobuf, htokens]
  exact hdocument

/-- A text whose size is a 32-bit number other than the last has a document. -/
theorem exists_document {text : Text} (hsize : text.byteSize + 1 < Word.bound) :
    ∃ tokens document, tokenize text = .ok tokens ∧
      Document.ofTokens text tokens .protobuf = .ok document ∧
      Document.protobuf text = .ok document ∧
      document.text = text ∧ document.classifier = .protobuf :=
  (Readable.of_byteSize hsize).exists_document

theorem tokenize_partitions (text : Text) (hsize : text.byteSize < 4294967295) :
    ∃ body sentinel, tokenize text = .ok (body.push sentinel) ∧ Partitions text body sentinel ∧
      ∃ document, Document.ofTokens text (body.push sentinel) .protobuf = .ok document ∧
        Document.protobuf text = .ok document := by
  have hbound : text.byteSize + 1 < Word.bound := Nat.succ_lt_succ hsize
  obtain ⟨tokens, document, htokens, hofTokens, hdocument, _⟩ := exists_document hbound
  obtain ⟨body, sentinel, rfl, hpartitions⟩ := exists_partitions htokens
  exact ⟨body, sentinel, htokens, hpartitions, document, hofTokens, hdocument⟩

-- The backslash takes the first byte of the character after it.
theorem tokenize_partitions_escaped :
    Text.byteSize ['"', '\\', 'é', '"', 'ü'] < 4294967295 ∧
    ∃ body sentinel, tokenize ['"', '\\', 'é', '"', 'ü'] = .ok (body.push sentinel) ∧
      Partitions ['"', '\\', 'é', '"', 'ü'] body sentinel ∧
      ∃ document, Document.ofTokens ['"', '\\', 'é', '"', 'ü'] (body.push sentinel) .protobuf =
          .ok document ∧
        Document.protobuf ['"', '\\', 'é', '"', 'ü'] = .ok document :=
  ⟨by decide, tokenize_partitions ['"', '\\', 'é', '"', 'ü'] (by decide)⟩

end Protobuf

end Keystroke
