import Mathlib
import Keystroke.Proofs.CaretContext
import Keystroke.Proofs.TypingSession

/-!
# Pairs that close themselves

An opening bracket or a quote that brings its partner is typed where no string and no comment is
open, so that the two are read as a pair, whatever stands around them (`lexemes_between`). The next
key is the partner, and it is typed over (`press_autoPair`).
-/

namespace Keystroke

open Protobuf

/-! ## The pairs -/

/-- The pairs that one key inserts. -/
inductive AutoPair where
  | round
  | curly
  | square
  | double
  | single
deriving DecidableEq

namespace AutoPair

def opening : AutoPair → Char
  | round => '('
  | curly => '\x7b'
  | square => '['
  | double => '"'
  | single => '\''

def closing : AutoPair → Char
  | round => ')'
  | curly => '\x7d'
  | square => ']'
  | double => '"'
  | single => '\''

/-- What a pair is read as: two brackets, or an empty string. -/
def lexemes : AutoPair → List Lexeme
  | round => [⟨.mark .lParen, ['(']⟩, ⟨.mark .rParen, [')']⟩]
  | curly => [⟨.mark .lBrace, ['\x7b']⟩, ⟨.mark .rBrace, ['\x7d']⟩]
  | square => [⟨.mark .lBracket, ['[']⟩, ⟨.mark .rBracket, [']']⟩]
  | double => [⟨.strLit, ['"', '"']⟩]
  | single => [⟨.strLit, ['\'', '\'']⟩]

def tokensAt (pair : AutoPair) (offset : Nat) : List (Kind × Nat × Nat) :=
  match pair with
  | round => [(.mark .lParen, offset, offset + 1), (.mark .rParen, offset + 1, offset + 2)]
  | curly => [(.mark .lBrace, offset, offset + 1), (.mark .rBrace, offset + 1, offset + 2)]
  | square => [(.mark .lBracket, offset, offset + 1), (.mark .rBracket, offset + 1, offset + 2)]
  | double | single => [(.strLit, offset, offset + 2)]

theorem layout_lexemes (pair : AutoPair) (offset : Nat) :
    layout offset pair.lexemes = pair.tokensAt offset := by
  cases pair <;> rfl

theorem opening_mem_solitary (pair : AutoPair) : pair.opening ∈ solitary := by
  cases pair <;> decide

theorem opening_ne_slash (pair : AutoPair) : pair.opening ≠ '/' := by
  cases pair <;> decide

theorem byteSize_opening (pair : AutoPair) : pair.opening.utf8Size = 1 := by
  cases pair <;> decide

theorem byteSize_closing (pair : AutoPair) : pair.closing.utf8Size = 1 := by
  cases pair <;> decide

theorem lexemes_brackets {opening closing : Char} {first second : Kind}
    (hopening : Rule.advanceAll [opening] rules = [⟨first, .empty⟩])
    (hclosing : Rule.advanceAll [closing] rules = [⟨second, .empty⟩]) (after : Text) :
    Protobuf.lexemes (opening :: closing :: after) =
      ⟨first, [opening]⟩ :: ⟨second, [closing]⟩ :: Protobuf.lexemes after := by
  have hfirst := lexemes_of_advanceAll hopening (closing :: after)
  have hsecond := lexemes_of_advanceAll hclosing after
  rw [List.singleton_append] at hfirst hsecond
  rw [hfirst, hsecond]

-- No rule goes on after a bracket, nor after the closing quote of a string.
theorem lexemes_append (pair : AutoPair) (after : Text) :
    Protobuf.lexemes (pair.opening :: pair.closing :: after) =
      pair.lexemes ++ Protobuf.lexemes after := by
  cases pair with
  | round => exact lexemes_brackets rfl rfl after
  | curly => exact lexemes_brackets rfl rfl after
  | square => exact lexemes_brackets rfl rfl after
  | double => exact lexemes_of_advanceAll (show Rule.advanceAll ['"', '"'] rules = _ from rfl) after
  | single =>
      exact lexemes_of_advanceAll (show Rule.advanceAll ['\'', '\''] rules = _ from rfl) after

/-- A pair is two brackets or two quotes. -/
theorem brackets_or_quotes (pair : AutoPair) :
    (KeyClass.of pair.closing = .closing ∧
        ∃ first second, pair.lexemes =
          [⟨.mark first, [pair.opening]⟩, ⟨.mark second, [pair.closing]⟩]) ∨
      (KeyClass.of pair.closing = .quote ∧ pair.opening ≠ '\\' ∧
        pair.lexemes = [⟨.strLit, [pair.opening, pair.closing]⟩]) := by
  cases pair with
  | round | curly | square => exact .inl ⟨rfl, _, _, rfl⟩
  | double | single => exact .inr ⟨rfl, by decide, rfl⟩

def between (pair : AutoPair) (before after : Text) : Text :=
  before ++ pair.opening :: pair.closing :: after

end AutoPair

/-! ## Reading a pair -/

section Reading

variable {pair : AutoPair} {before after : Text}

/-- Where text is code, the text before is not open. -/
theorem not_isOpen_of_isInCode {document : Document Kind}
    (hdocument : Document.protobuf (before ++ after) = .ok document)
    (hcode : document.isInCode before.byteSize = true)
    (hend : ∀ token ∈ document.tokens, token.span.stop = before.byteSize →
      lacksEnd (before ++ after) token = false) :
    ∀ last ∈ (lexemes before).getLast?, ¬ IsOpen last := by
  intro last hlast hopen
  have hbefore : before ≠ [] := by
    intro hnil
    rw [hnil, lexemes_nil] at hlast
    cases hlast
  rw [Document.isInCode, Bool.and_eq_true, Bool.not_eq_true', Bool.not_eq_true'] at hcode
  obtain ⟨front, lexeme, back, head, tail, hholds⟩ := exists_holds after hbefore
  obtain ⟨others, other, hlexemes, hremains⟩ := hholds.exists_last
  rw [hlexemes, List.getLast?_concat, Option.mem_some_iff] at hlast
  subst hlast
  rcases hopen with hkind | hcomment
  · have hstring := (hholds.isInString_iff hdocument hremains).mpr hkind
    rw [hcode.1] at hstring
    cases hstring
  · by_cases hlast : after = [] ∧ other.kind = .blockComment
    · -- The token of the comment stops at the caret.
      obtain ⟨rfl, hkind⟩ := hlast
      have htokens := (Document.protobuf_eq_ok_iff.mp hdocument).1
      rw [List.append_nil] at htokens hend
      obtain ⟨token, hlastToken, hoccurs⟩ := exists_lastToken? htokens hlexemes
      have hstop : token.span.stop = before.byteSize := by
        have htext := hoccurs.text_eq
        rw [List.append_nil] at htext
        rw [hoccurs.stands.stop, ← htext]
      have hlacks := hoccurs.lacksEnd_iff.mpr (hcomment.resolve_left (by simp [hkind]))
      rw [hend token (mem_of_lastToken? hlastToken) hstop] at hlacks
      cases hlacks
    · have hinside := (hholds.isInComment_iff hdocument hremains).mpr (.inl ⟨hcomment, hlast⟩)
      rw [hcode.2] at hinside
      cases hinside

/-- After a text that is not open a pair is read as a pair. -/
theorem lexemes_between (pair : AutoPair) {before : Text} (after : Text)
    (h : ∀ last ∈ (lexemes before).getLast?, ¬ IsOpen last) :
    lexemes (pair.between before after) = lexemes before ++ (pair.lexemes ++ lexemes after) := by
  rw [AutoPair.between, lexemes_append_solitary pair.opening_mem_solitary pair.opening_ne_slash h,
    pair.lexemes_append]

theorem exists_tokens_between (hlexemes : lexemes (pair.between before after) =
      lexemes before ++ (pair.lexemes ++ lexemes after))
    {tokens : TokenList Kind} (htokens : tokenize (pair.between before after) = .ok tokens) :
    ∃ front here back, tokens.toList = front ++ here ++ back ∧
      here.map (fun token => (token.kind, token.span.start, token.span.stop)) =
        pair.tokensAt before.byteSize := by
  have hplaced := placed_of_tokenize htokens
  rw [hlexemes] at hplaced
  obtain ⟨front, rest, hfront, _, hrest⟩ := hplaced.exists_append
  obtain ⟨here, back, rfl, hhere, _⟩ := hrest.exists_append
  rw [List.nil_append, joined_lexemes, pair.layout_lexemes] at hhere
  exact ⟨front, here, back, by rw [hfront, List.append_assoc], hhere⟩

end Reading

/-! ## Typing over the partner -/

section Typing

variable {pair : AutoPair} {before after : Text} {document : Document Kind}

theorem AutoPair.between_eq (pair : AutoPair) (before after : Text) :
    pair.between before after = (before ++ [pair.opening]) ++ pair.closing :: after := by
  rw [between, List.append_assoc]
  rfl

theorem AutoPair.byteSize_concat_opening (pair : AutoPair) (before : Text) :
    Text.byteSize (before ++ [pair.opening]) = before.byteSize + 1 := by
  rw [Text.byteSize_append, Text.byteSize_cons, Text.byteSize_nil, pair.byteSize_opening]

/-- The caret inside a pair is after the first character of what the pair is read as. -/
theorem holds_between {back : List Lexeme} {lexeme : Lexeme} {tail : Text}
    (hlexemes : lexemes (pair.between before after) = lexemes before ++ lexeme :: back)
    (htext : lexeme.text = pair.opening :: tail)
    (hafter : pair.closing :: after = tail ++ joined back) :
    Holds (before ++ [pair.opening]) (pair.closing :: after) (lexemes before) lexeme back
      [pair.opening] tail := by
  refine ⟨?_, ?_, hafter, htext, List.cons_ne_nil _ _⟩
  · rw [← pair.between_eq]
    exact hlexemes
  · rw [joined_lexemes]

section Inside

variable (hdocument : Document.protobuf (pair.between before after) = .ok document)
  (hlexemes : lexemes (pair.between before after) =
    lexemes before ++ (pair.lexemes ++ lexemes after))

include hdocument hlexemes

/-- Between two brackets the text is code. -/
theorem isInCode_between {first second : Mark} (hpair : pair.lexemes =
      [⟨.mark first, [pair.opening]⟩, ⟨.mark second, [pair.closing]⟩]) :
    document.isInCode (before.byteSize + 1) = true := by
  rw [hpair] at hlexemes
  rw [pair.between_eq] at hdocument
  have hholds := holds_between hlexemes rfl (by simp)
  have hstring := hholds.isInString_iff hdocument .whole
  have hcomment := hholds.isInComment_iff hdocument .whole
  rw [pair.byteSize_concat_opening] at hstring hcomment
  simp only [IsOpenComment, reduceCtorEq, false_and, or_false, ne_eq, not_true_eq_false, and_false,
    iff_false, Bool.not_eq_true] at hstring hcomment
  rw [Document.isInCode, hstring, hcomment]
  rfl

/-- Between two quotes the caret is in a string. -/
theorem isInString_between (hpair : pair.lexemes = [⟨.strLit, [pair.opening, pair.closing]⟩]) :
    document.isInString (before.byteSize + 1) = true := by
  rw [hpair] at hlexemes
  rw [pair.between_eq] at hdocument
  have hholds := holds_between hlexemes rfl (by simp)
  rw [← pair.byteSize_concat_opening before,
    hholds.isInString_inside hdocument (List.cons_ne_nil _ _)]
  rfl

theorem exists_typeOver_between :
    ∃ stroke, Stroke.start document (before.byteSize + 1) pair.closing = .ok stroke ∧
      stroke.pair.2.insertion = [] ∧ stroke.pair.2.caret = before.byteSize + 2 ∧
      stroke.pair.2.result = pair.between before after := by
  have htext := (Document.protobuf_eq_ok_iff.mp hdocument).2.1
  have hstart := Stroke.start_eq (htext.trans (pair.between_eq before after)) pair.closing
  rw [pair.byteSize_concat_opening, pair.byteSize_closing] at hstart
  let stroke : Stroke Kind := ⟨document, before.byteSize + 1, pair.closing,
    before ++ [pair.opening], pair.closing :: after, [pair.closing], before.byteSize + 2⟩
  have hahead : stroke.isAhead = true := beq_self_eq_true _
  have hover : stroke.pair.2 = stroke.typeOver := by
    -- A bracket is typed over in code, a quote in a string.
    rcases pair.brackets_or_quotes with ⟨hclass, _, _, hpair⟩ | ⟨hclass, hslash, hpair⟩
    · have hcode := isInCode_between hdocument hlexemes hpair
      exact Stroke.pair_typeOver_of_closing hclass hahead hcode
    · have hstring := isInString_between hdocument hlexemes hpair
      have hescaped : stroke.isEscaped = false := by
        show ((before ++ [pair.opening]).getLast? == some '\\') = false
        rw [List.getLast?_concat, beq_eq_false_iff_ne, ne_eq, Option.some.injEq]
        exact hslash
      exact Stroke.pair_typeOver_of_quote hclass hescaped hahead hstring
  have hinsertion : stroke.pair.2.insertion = [] := by
    rw [hover]
    rfl
  refine ⟨stroke, hstart, hinsertion, stroke.caret_pair, ?_⟩
  rw [stroke.result_pair, hinsertion, List.append_nil, pair.between_eq]

end Inside

/-- A key that inserts a pair inserts what is read as one, and the next key, its partner, is typed
over. -/
theorem press_autoPair (pair : AutoPair) (before after : Text)
    (h : Readable (pair.between before after)) :
    ∃ document stroke, Document.protobuf (before ++ after) = .ok document ∧
      Stroke.start document before.byteSize pair.opening = .ok stroke ∧
      ((∀ token ∈ document.tokens, token.span.stop = before.byteSize →
          lacksEnd (before ++ after) token = false) →
        stroke.pair.2.insertion = [pair.opening, pair.closing] →
        ∃ tokens paired next, tokenize (pair.between before after) = .ok tokens ∧
          (∃ front here back, tokens.toList = front ++ here ++ back ∧
            here.map (fun token => (token.kind, token.span.start, token.span.stop)) =
              pair.tokensAt before.byteSize) ∧
          Document.protobuf (pair.between before after) = .ok paired ∧
          Stroke.start paired (before.byteSize + 1) pair.closing = .ok next ∧
          next.pair.2.insertion = [] ∧ next.pair.2.caret = before.byteSize + 2 ∧
          Session.press ⟨before ++ after, before.byteSize⟩ (.type pair.opening) =
            .ok ⟨pair.between before after, before.byteSize + 1⟩ ∧
          Session.press ⟨pair.between before after, before.byteSize + 1⟩ (.type pair.closing) =
            .ok ⟨pair.between before after, before.byteSize + 2⟩) := by
  have htext : (before ++ after).Sublist (pair.between before after) := by
    refine List.Sublist.append_left ?_ before
    exact ((List.Sublist.refl after).cons _).cons _
  obtain ⟨_, document, _, _, hdocument, hsource, _⟩ := (h.of_sublist htext).exists_document
  obtain ⟨tokens, paired, htokens, _, hpaired, _⟩ := h.exists_document
  have hstart := Stroke.start_eq hsource pair.opening
  rw [pair.byteSize_opening] at hstart
  let stroke : Stroke Kind := ⟨document, before.byteSize, pair.opening, before, after,
    [pair.opening], before.byteSize + 1⟩
  refine ⟨document, stroke, hdocument, hstart, fun hend hinsertion => ?_⟩
  have hcode : stroke.isInCode = true :=
    Stroke.isInCode_of_length_pair rfl (by rw [hinsertion]; rfl)
  have hlexemes := lexemes_between pair after (not_isOpen_of_isInCode hdocument hcode hend)
  have hresult : stroke.pair.2.result = pair.between before after := by
    rw [stroke.result_pair, hinsertion, List.append_assoc]
    rfl
  obtain ⟨next, hnext, hempty, hcaret, hover⟩ := exists_typeOver_between hpaired hlexemes
  refine ⟨tokens, paired, next, htokens, exists_tokens_between hlexemes htokens, hpaired, hnext,
    hempty, hcaret, ?_, ?_⟩
  · rw [Session.press_type hdocument hstart, Session.ofStroke, hresult, stroke.caret_pair]
  · rw [Session.press_type hpaired hnext, Session.ofStroke, hover, hcaret]

-- The caret is at the end of a text that stops with a block comment, but that one has its end.
theorem press_brackets_after_comment :
    Readable (AutoPair.round.between ['/', '*', '*', '/'] []) ∧
      Session.press ⟨['/', '*', '*', '/'], 4⟩ (.type '(') =
        .ok ⟨['/', '*', '*', '/', '(', ')'], 5⟩ ∧
      Session.press ⟨['/', '*', '*', '/', '(', ')'], 5⟩ (.type ')') =
        .ok ⟨['/', '*', '*', '/', '(', ')'], 6⟩ := by
  have hreadable : Readable (AutoPair.round.between ['/', '*', '*', '/'] []) :=
    ⟨by decide, by decide⟩
  have htokens : tokenize ['/', '*', '*', '/'] = .ok
      #[⟨.blockComment, ⟨0, 4, by decide, by decide⟩, 1, 0⟩,
        ⟨.eof, ⟨4, 4, by decide, by decide⟩, 1, 4⟩] := by cbv
  have hbrings : (Document.protobuf ['/', '*', '*', '/'] >>= fun document =>
      Stroke.start document 4 '(').map (fun stroke => stroke.pair.2.insertion) =
        .ok ['(', ')'] := by cbv
  obtain ⟨document, stroke, hdocument, hstart, hpair⟩ :=
    press_autoPair .round ['/', '*', '*', '/'] [] hreadable
  rw [List.append_nil] at hdocument
  have hend : ∀ token ∈ document.tokens, token.span.stop = Text.byteSize ['/', '*', '*', '/'] →
      lacksEnd (['/', '*', '*', '/'] ++ []) token = false := by
    have hread := (Document.protobuf_eq_ok_iff.mp hdocument).1
    rw [htokens, Except.ok.injEq] at hread
    intro token hmem _
    rw [← hread, List.mem_toArray, List.mem_cons, List.mem_singleton] at hmem
    rcases hmem with rfl | rfl <;> decide
  have hinsertion : stroke.pair.2.insertion = ['(', ')'] := by
    have htyped : Stroke.start document 4 '(' = .ok stroke := hstart
    rw [hdocument] at hbrings
    change (Stroke.start document 4 '(').map _ = _ at hbrings
    rw [htyped] at hbrings
    exact Except.ok.inj hbrings
  obtain ⟨_, _, _, _, _, _, _, _, _, hopening, hclosing⟩ := hpair hend hinsertion
  exact ⟨hreadable, hopening, hclosing⟩

end Typing

end Keystroke
