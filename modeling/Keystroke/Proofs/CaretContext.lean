import Mathlib
import Keystroke.Proofs.OpenLexemes
import Keystroke.Proofs.TokenLookup
import Keystroke.Proofs.TokenPartition

/-!
# What a caret is in

Whether a caret is in a string or in a comment is looked up in the tokens of the whole text. The
answer is the one that the text before the caret gives alone: the caret is in a string if the last
token of that text is a string without its closing quote (`isInString_iff_lastToken`), and in a
comment if it is an open comment (`isInComment_iff_lastToken`), with one exception: not at the end
of a text that stops in a block comment.
-/

namespace Keystroke

theorem Document.protobuf_eq_ok_iff {text : Text} {document : Document Kind} :
    Document.protobuf text = .ok document ↔
      Protobuf.tokenize text = .ok document.tokens ∧ document.text = text ∧
        document.classifier = .protobuf := by
  rw [Document.protobuf, Fault.bind_eq_ok_iff]
  simp only [ofTokens_eq_ok_iff]
  constructor
  · rintro ⟨tokens, htokens, htext, rfl, hclassifier⟩
    exact ⟨htokens, htext, hclassifier⟩
  · rintro ⟨htokens, htext, hclassifier⟩
    exact ⟨document.tokens, htokens, htext, rfl, hclassifier⟩

namespace Protobuf

/-! ## From lexemes to tokens -/

theorem Placed.start_le_stop {before : Text} {lexemes : List Lexeme} {tokens : List (Token Kind)}
    (h : Placed before lexemes tokens) : ∀ token ∈ tokens, token.span.start ≤ token.span.stop := by
  have hstands : ∀ {before : Text} {lexeme : Lexeme} {token : Token Kind},
      Stands before lexeme token → token.span.start ≤ token.span.stop := by
    intro before lexeme token h
    rw [h.start, h.stop, Text.byteSize_append]
    omega
  induction h with
  | sentinel h =>
      intro token hmem
      rw [List.mem_singleton.mp hmem]
      exact hstands h
  | lexeme h _ ih => exact List.forall_mem_cons.mpr ⟨hstands h, ih⟩

/-- The kinds and spans of lexemes that stand one after the other from an offset on. -/
def layout (offset : Nat) : List Lexeme → List (Kind × Nat × Nat)
  | [] => []
  | lexeme :: rest =>
    (lexeme.kind, offset, offset + lexeme.text.byteSize) ::
      layout (offset + lexeme.text.byteSize) rest

theorem Placed.exists_append {before : Text} {front back : List Lexeme} {tokens : List (Token Kind)}
    (h : Placed before (front ++ back) tokens) :
    ∃ earlier later, tokens = earlier ++ later ∧
      earlier.map (fun token => (token.kind, token.span.start, token.span.stop)) =
        layout before.byteSize front ∧
      Placed (before ++ joined front) back later := by
  induction front generalizing before tokens with
  | nil =>
      refine ⟨[], tokens, rfl, rfl, ?_⟩
      rw [joined_nil, List.append_nil]
      exact h
  | cons lexeme front ih =>
      cases h with
      | @lexeme _ _ _ token tokens hstands hrest =>
          obtain ⟨earlier, later, rfl, hlayout, hlater⟩ := ih hrest
          refine ⟨token :: earlier, later, rfl, ?_, ?_⟩
          · rw [List.map_cons, hlayout, layout, hstands.kind, hstands.start, hstands.stop,
              Text.byteSize_append]
          · rw [joined_cons, ← List.append_assoc]
            exact hlater

/-- Each lexeme has its token in the list. -/
theorem Placed.exists_split {before : Text} {front back : List Lexeme} {lexeme : Lexeme}
    {tokens : List (Token Kind)} (h : Placed before (front ++ lexeme :: back) tokens) :
    ∃ earlier token later, tokens = earlier ++ token :: later ∧
      Stands (before ++ joined front) lexeme token ∧
      Placed (before ++ joined front ++ lexeme.text) back later := by
  obtain ⟨earlier, later, rfl, _, hlater⟩ := h.exists_append
  cases hlater with
  | lexeme hstands hrest => exact ⟨earlier, _, _, rfl, hstands, hrest⟩

theorem Stands.unique {before : Text} {lexeme : Lexeme} {token other : Token Kind}
    (h : Stands before lexeme token) (hother : Stands before lexeme other) : token = other := by
  obtain ⟨kind, span, line, column⟩ := token
  obtain ⟨kind', span', line', column'⟩ := other
  have hspan : span = span' :=
    Span.ext (h.start.trans hother.start.symm) (h.stop.trans hother.stop.symm)
  rw [Token.mk.injEq]
  exact ⟨h.kind.trans hother.kind.symm, hspan, h.line.trans hother.line.symm,
    h.column.trans hother.column.symm⟩

/-- Lexemes that two lists begin with have the same tokens in both. -/
theorem Placed.exists_common {before : Text} {front back back' : List Lexeme}
    {tokens tokens' : List (Token Kind)} (h : Placed before (front ++ back) tokens)
    (h' : Placed before (front ++ back') tokens') :
    ∃ common later later', tokens = common ++ later ∧ tokens' = common ++ later' ∧
      Placed (before ++ joined front) back later ∧
      Placed (before ++ joined front) back' later' := by
  induction front generalizing before tokens tokens' with
  | nil =>
      rw [joined_nil, List.append_nil]
      exact ⟨[], tokens, tokens', rfl, rfl, h, h'⟩
  | cons lexeme front ih =>
      cases h with
      | @lexeme _ _ _ token tokens hstands hrest =>
          cases h' with
          | @lexeme _ _ _ other tokens' hstands' hrest' =>
              obtain rfl := hstands.unique hstands'
              obtain ⟨common, later, later', rfl, rfl, hlater, hlater'⟩ := ih hrest hrest'
              rw [joined_cons, ← List.append_assoc]
              exact ⟨token :: common, later, later', rfl, rfl, hlater, hlater'⟩

theorem ordered_of_protobuf {text : Text} {document : Document Kind}
    (h : Document.protobuf text = .ok document) : document.Ordered := by
  have hplaced := placed_of_tokenize (Document.protobuf_eq_ok_iff.mp h).1
  exact fun token hmem => hplaced.start_le_stop token (Array.mem_toList_iff.mpr hmem)

/-! ## The last token -/

def lastToken? (tokens : TokenList Kind) : Option (Token Kind) :=
  (tokens.filter (·.kind != .eof)).back?

theorem lastToken?_eq_getLast? (tokens : TokenList Kind) :
    lastToken? tokens = (tokens.toList.filter (·.kind != .eof)).getLast? := by
  rw [lastToken?, ← Array.toList_filter, Array.getLast?_toList]

theorem lastToken?_nil {tokens : TokenList Kind} (h : tokenize [] = .ok tokens) :
    lastToken? tokens = none := by
  have hplaced := placed_of_tokenize h
  rw [lexemes_nil] at hplaced
  rw [lastToken?_eq_getLast?]
  generalize tokens.toList = list at hplaced ⊢
  cases hplaced with
  | sentinel hstands =>
      rw [List.filter_cons_of_neg (by simp [hstands.kind])]
      rfl

theorem mem_of_lastToken? {tokens : TokenList Kind} {token : Token Kind}
    (h : lastToken? tokens = some token) : token ∈ tokens := by
  rw [lastToken?_eq_getLast?] at h
  exact Array.mem_toList_iff.mp (List.mem_filter.mp (List.mem_of_getLast? h)).1

/-- The last token stands for the last lexeme. -/
theorem exists_lastToken? {text : Text} {tokens : TokenList Kind} {front : List Lexeme}
    {lexeme : Lexeme} (h : tokenize text = .ok tokens)
    (hlexemes : lexemes text = front ++ [lexeme]) :
    ∃ token, lastToken? tokens = some token ∧ Occurs text (joined front) lexeme [] token := by
  have hplaced := placed_of_tokenize h
  have hfirst := first_of_lexemes_eq_append hlexemes
  have htext := (lexemes_append hlexemes).1
  rw [hlexemes] at hplaced
  obtain ⟨earlier, token, later, htokens, hstands, hlater⟩ := hplaced.exists_split
  refine ⟨token, ?_, ?_⟩
  · have hkeep : (token.kind != .eof) = true := by
      rw [hstands.kind, bne_iff_ne]
      exact hfirst.kind_ne_eof
    rw [lastToken?_eq_getLast?, htokens]
    cases hlater with
    | sentinel hsentinel =>
        simp [hkeep, hsentinel.kind]
  · refine ⟨?_, hfirst, hstands⟩
    rw [htext, joined_cons, joined_nil, List.append_nil, List.append_nil]

/-- Whether a token of a text is a block comment that has no end mark after its opening mark. -/
def lacksEnd (text : Text) (token : Token Kind) : Bool :=
  token.kind == .blockComment &&
    (text.slice? (token.span.start + 2) token.span.stop).any fun inside =>
      !inside.includes ['*', '/']

theorem Occurs.lacksEnd_iff {text before after : Text} {lexeme : Lexeme} {token : Token Kind}
    (h : Occurs text before lexeme after token) :
    lacksEnd text token ↔
      lexeme.kind = .blockComment ∧
        ∃ inside, lexeme.text = '/' :: '*' :: inside ∧ NoEnd inside := by
  rw [lacksEnd, h.stands.kind, Bool.and_eq_true, beq_iff_eq]
  refine and_congr_right fun hkind => ?_
  have hopens := h.first.opens (by rw [hkind]; rfl)
  have htext := h.text_eq
  have hstart := h.stands.start
  have hstop := h.stands.stop
  obtain ⟨kind, content⟩ := lexeme
  cases hkind
  cases hopens with
  | @blockComment inside =>
      have hslice := Text.slice?_append (before ++ ['/', '*']) inside after
      have hmark : Text.byteSize (before ++ ['/', '*']) = token.span.start + 2 := by
        rw [Text.byteSize_append, hstart]
        rfl
      have hend : token.span.start + 2 + inside.byteSize = token.span.stop := by
        rw [hstop, Text.byteSize_append, ← hstart]
        show _ = token.span.start + (1 + (1 + inside.byteSize))
        omega
      have hwhole : before ++ ['/', '*'] ++ inside ++ after = text := by
        rw [htext, List.append_assoc before]
        rfl
      rw [hmark, hend, hwhole] at hslice
      rw [hslice, Option.any_some, Bool.not_eq_true_eq_eq_false, ← Bool.not_eq_true,
        Text.includes_iff]
      simp only [List.cons.injEq, true_and, exists_eq_left', NoEnd]

/-! ## The tokens beside a caret -/

def nextKind : List Lexeme → Kind
  | [] => .eof
  | lexeme :: _ => lexeme.kind

section Caret

variable {before after head tail : Text} {front back : List Lexeme} {lexeme : Lexeme}
  {document : Document Kind}

theorem isInString_eq {text : Text} (h : Document.protobuf text = .ok document) (offset : Nat) :
    document.isInString offset =
      document.isInside isString (· == .unterminatedStrLit) offset := by
  rw [Document.isInString, (Document.protobuf_eq_ok_iff.mp h).2.2]
  rfl

theorem isInComment_eq {text : Text} (h : Document.protobuf text = .ok document) (offset : Nat) :
    document.isInComment offset = document.isInside isComment (· == .lineComment) offset := by
  rw [Document.isInComment, (Document.protobuf_eq_ok_iff.mp h).2.2]
  rfl

/-- After the last character of some lexemes the next token starts. -/
theorem tokenAfter_boundary (hdocument : Document.protobuf (before ++ after) = .ok document)
    (hlexemes : lexemes (before ++ after) = front ++ back)
    (hbefore : before = joined front) :
    (document.tokenAfter before.byteSize).kind = nextKind back ∧
      (document.tokenAfter before.byteSize).span.start = before.byteSize := by
  have hordered := ordered_of_protobuf hdocument
  obtain ⟨htokenize, htext, _⟩ := Document.protobuf_eq_ok_iff.mp hdocument
  have hplaced := placed_of_tokenize htokenize
  rw [hlexemes] at hplaced
  cases back with
  | nil =>
      -- The text ends here, and no token holds what comes after the end.
      have hsize : document.size = before.byteSize := by
        rw [Document.size, htext, (lexemes_append hlexemes).1, hbefore, joined_nil, List.append_nil]
      obtain ⟨earlier, later, htokens, _, hlater⟩ := hplaced.exists_append
      rw [hordered.tokenAfter_of_size_le (Nat.le_of_eq hsize), document.sentinel_start]
      refine ⟨?_, hsize⟩
      cases hlater with
      | sentinel hsentinel =>
          rw [Document.toList_tokens] at htokens
          obtain ⟨_, hlast⟩ := List.append_inj' htokens rfl
          cases hlast
          exact hsentinel.kind
  | cons next back =>
      obtain ⟨earlier, token, later, htokens, hstands, _⟩ := hplaced.exists_split
      have hpos := Text.byteSize_pos (first_of_lexemes_eq_append hlexemes).ne_nil
      have hstart := hstands.start
      have hstop := hstands.stop
      rw [Text.byteSize_append, List.nil_append, ← hbefore] at hstop
      rw [List.nil_append, ← hbefore] at hstart
      rw [hordered.tokenAfter_eq htokens (by omega) (by omega)]
      exact ⟨hstands.kind, hstart⟩

variable (hdocument : Document.protobuf (before ++ after) = .ok document)
  (h : Holds before after front lexeme back head tail)

include hdocument h

theorem Holds.exists_token :
    ∃ earlier token later, document.tokens.toList = earlier ++ token :: later ∧
      token.kind = lexeme.kind ∧ token.span.start + head.byteSize = before.byteSize ∧
      token.span.stop = before.byteSize + tail.byteSize := by
  have hplaced := placed_of_tokenize (Document.protobuf_eq_ok_iff.mp hdocument).1
  rw [h.lexemes_eq] at hplaced
  obtain ⟨earlier, token, later, htokens, hstands, _⟩ := hplaced.exists_split
  have hstart := hstands.start
  have hstop := hstands.stop
  rw [h.text_eq] at hstop
  simp only [List.nil_append, Text.byteSize_append] at hstart hstop
  refine ⟨earlier, token, later, htokens, hstands.kind, ?_, ?_⟩
  · rw [h.before_eq, Text.byteSize_append]
    omega
  · rw [h.before_eq, Text.byteSize_append]
    omega

/-- The token before the caret is that of the lexeme. -/
theorem Holds.kind_tokenBefore : (document.tokenBefore before.byteSize).kind = lexeme.kind := by
  obtain ⟨earlier, token, later, htokens, hkind, hstart, hstop⟩ := h.exists_token hdocument
  have hpos := Text.byteSize_pos h.head_ne_nil
  -- The byte before the caret is one of the head, and it is looked up like any other.
  obtain ⟨n, hn⟩ : ∃ n, before.byteSize = n + 1 := ⟨before.byteSize - 1, by omega⟩
  rw [hn, Document.tokenBefore_succ,
    (ordered_of_protobuf hdocument).tokenAfter_eq htokens (by omega) (by omega)]
  exact hkind

/-- So is the token after the caret, if the caret is inside. -/
theorem Holds.tokenAfter_inside (htail : tail ≠ []) :
    (document.tokenAfter before.byteSize).kind = lexeme.kind ∧
      (document.tokenAfter before.byteSize).span.start < before.byteSize := by
  obtain ⟨earlier, token, later, htokens, hkind, hstart, hstop⟩ := h.exists_token hdocument
  have hpos := Text.byteSize_pos h.head_ne_nil
  have htailPos := Text.byteSize_pos htail
  rw [(ordered_of_protobuf hdocument).tokenAfter_eq htokens (by omega) (by omega)]
  exact ⟨hkind, by omega⟩

theorem Holds.isInside_inside {isPart isOpen : Kind → Bool}
    (hopen : ∀ kind, isOpen kind → isPart kind) (htail : tail ≠ []) :
    document.isInside isPart isOpen before.byteSize = isPart lexeme.kind := by
  obtain ⟨hkind, hstart⟩ := h.tokenAfter_inside hdocument htail
  rw [Document.isInside_eq, hkind, h.kind_tokenBefore hdocument]
  cases hpart : isPart lexeme.kind with
  | true =>
      rw [if_pos rfl, bne_iff_ne]
      omega
  | false =>
      have hclosed : isOpen lexeme.kind = false := by
        by_contra hne
        rw [Bool.not_eq_false] at hne
        rw [hopen _ hne] at hpart
        cases hpart
      rw [if_neg Bool.false_ne_true, hclosed, Bool.and_false]

theorem Holds.isInside_end (isPart isOpen : Kind → Bool) (htail : tail = []) :
    document.isInside isPart isOpen before.byteSize =
      (!isPart (nextKind back) && isOpen lexeme.kind) := by
  have hsplit : lexemes (before ++ after) = (front ++ [lexeme]) ++ back := by
    rw [h.lexemes_eq, List.append_assoc, List.singleton_append]
  have hbefore : before = joined (front ++ [lexeme]) := by
    rw [joined_append, joined_cons, joined_nil, List.append_nil, h.text_eq, htail, List.append_nil,
      h.before_eq]
  obtain ⟨hkind, hstart⟩ := tokenAfter_boundary hdocument hsplit hbefore
  have hpos : before.byteSize ≠ 0 := by
    have hhead := Text.byteSize_pos h.head_ne_nil
    rw [h.before_eq, Text.byteSize_append]
    omega
  rw [Document.isInside_eq, hkind, hstart, h.kind_tokenBefore hdocument]
  cases isPart (nextKind back) with
  | true => rw [if_pos rfl, bne_self_eq_false, Bool.not_true, Bool.false_and]
  | false =>
      rw [if_neg Bool.false_ne_true, bne_iff_ne.mpr hpos, Bool.true_and, Bool.not_false,
        Bool.true_and]

/-! ## Strings and comments -/

omit hdocument in
theorem Holds.not_isLiteral_nextKind
    (hkind : lexeme.kind = .unterminatedStrLit ∨ lexeme.kind = .lineComment) :
    isLiteral (nextKind back) = false := by
  cases back with
  | nil => rfl
  | cons next back => exact not_isLiteral_of_follows h.lexemes_eq hkind

theorem Holds.isInString_inside (htail : tail ≠ []) :
    document.isInString before.byteSize = isString lexeme.kind := by
  rw [isInString_eq hdocument]
  refine h.isInside_inside hdocument (fun kind hkind => ?_) htail
  rw [beq_iff_eq.mp hkind]
  rfl

theorem Holds.isInString_iff {last : Lexeme} (hlast : Remains lexeme head tail last) :
    document.isInString before.byteSize = true ↔ last.kind = .unterminatedStrLit := by
  cases hlast with
  | whole =>
      rw [isInString_eq hdocument, h.isInside_end hdocument _ _ rfl, Bool.and_eq_true, beq_iff_eq]
      refine and_iff_right_of_imp fun hkind => ?_
      have hnext := h.not_isLiteral_nextKind (.inl hkind)
      rw [(not_isLiteral_iff.mp hnext).1, Bool.not_false]
  | opened htail _ _ => rw [h.isInString_inside hdocument htail, isString_eq, beq_iff_eq]
  | plain htail hplain hstring _ =>
      rw [h.isInString_inside hdocument htail, hstring]
      refine iff_of_false Bool.false_ne_true fun hkind => ?_
      rw [hkind] at hplain
      cases hplain

theorem Holds.isInComment_inside (htail : tail ≠ []) :
    document.isInComment before.byteSize = isComment lexeme.kind := by
  rw [isInComment_eq hdocument]
  refine h.isInside_inside hdocument (fun kind hkind => ?_) htail
  rw [beq_iff_eq.mp hkind]
  rfl

/-- The last alternative is a caret inside the opening mark of a comment. -/
theorem Holds.isInComment_iff {last : Lexeme} (hlast : Remains lexeme head tail last) :
    document.isInComment before.byteSize = true ↔
      (IsOpenComment last ∧ ¬ (after = [] ∧ last.kind = .blockComment)) ∨
        (isComment lexeme.kind ∧ head = ['/'] ∧ tail ≠ []) := by
  have hafter : tail ≠ [] → after ≠ [] := by
    intro htail hnil
    rw [h.after_eq] at hnil
    exact htail (List.append_eq_nil_iff.mp hnil).1
  cases hlast with
  | whole =>
      rw [isInComment_eq hdocument, h.isInside_end hdocument _ _ rfl, Bool.and_eq_true, beq_iff_eq]
      constructor
      · rintro ⟨_, hkind⟩
        refine .inl ⟨.inl hkind, fun hblock => ?_⟩
        rw [hkind] at hblock
        cases hblock.2
      · rintro (⟨hcomment, hinside⟩ | ⟨_, _, htail⟩)
        · rcases hcomment with hkind | ⟨hkind, inside, htext, hend⟩
          · have hnext := h.not_isLiteral_nextKind (.inr hkind)
            rw [(not_isLiteral_iff.mp hnext).2]
            exact ⟨rfl, hkind⟩
          · -- An open block comment is the last lexeme, and the caret is at the end of the text.
            have hrest := h.first.eq_nil_of_noEnd htext hend
            exact absurd ⟨h.after_eq.trans hrest, hkind⟩ hinside
        · exact absurd rfl htail
  | opened htail _ hremains =>
      rw [h.isInComment_inside hdocument htail]
      constructor
      · intro hcomment
        refine .inl ⟨?_, fun hnil => hafter htail hnil.1⟩
        rcases hremains with hkind | hremains
        · have hstring : openKind lexeme.kind = .unterminatedStrLit := hkind
          rw [← isComment_openKind, hstring] at hcomment
          cases hcomment
        · exact hremains
      · rintro (⟨hcomment, _⟩ | ⟨hcomment, _⟩)
        · have hkind := hcomment.isComment
          rw [isComment_openKind] at hkind
          exact hkind
        · exact hcomment
  | plain htail hplain _ hmark =>
      rw [h.isInComment_inside hdocument htail]
      constructor
      · exact fun hcomment => .inr ⟨hcomment, hmark hcomment, htail⟩
      · rintro (⟨hcomment, _⟩ | ⟨hcomment, _⟩)
        · have hkind := hcomment.isComment
          rw [(not_isLiteral_iff.mp hplain).2] at hkind
          cases hkind
        · exact hcomment

end Caret

theorem isInside_zero {after : Text} {document : Document Kind}
    (hdocument : Document.protobuf after = .ok document) (isPart isOpen : Kind → Bool) :
    document.isInside isPart isOpen 0 = false := by
  have hboundary := @tokenAfter_boundary [] after [] (lexemes after) document hdocument rfl rfl
  rw [Document.isInside_eq]
  split
  · exact bne_eq_false_iff_eq.mpr hboundary.2.symm
  · rfl

theorem First.two_le_byteSize {text : Text} {lexeme : Lexeme} (h : First text lexeme)
    (hcomment : isComment lexeme.kind) : 2 ≤ lexeme.text.byteSize := by
  have hkind := isComment_openKind lexeme.kind
  have hopens := h.opens (Bool.or_eq_true_iff.mpr (.inr hcomment))
  rw [hcomment] at hkind
  generalize openKind lexeme.kind = kind at hkind hopens
  generalize lexeme.text = content at hopens
  cases hopens with
  | string _ => cases hkind
  | @lineComment s =>
      show 2 ≤ 1 + (1 + s.byteSize)
      omega
  | @blockComment s =>
      show 2 ≤ 1 + (1 + s.byteSize)
      omega

/-- A token that is looked up at an offset holds it, unless it is the sentinel. -/
theorem tokenAfter_holds {text : Text} {document : Document Kind} {offset : Nat}
    (hdocument : Document.protobuf text = .ok document)
    (hkind : (document.tokenAfter offset).kind ≠ .eof) :
    document.tokenAfter offset ∈ document.tokens ∧
      (document.tokenAfter offset).span.start ≤ offset ∧
      offset < (document.tokenAfter offset).span.stop := by
  have hordered := ordered_of_protobuf hdocument
  by_cases hsize : offset < document.size
  · obtain ⟨front, token, back, hbody, hstart, hstop⟩ := Document.exists_holder hsize
    have hmem : token ∈ document.tokens := by
      rw [← Array.mem_toList_iff, Document.toList_tokens, hbody]
      simp
    rw [hordered.tokenAfter_of_mem hmem hstart hstop]
    exact ⟨hmem, hstart, hstop⟩
  · have hsentinel := document.sentinel_isEnd
    rw [(Document.protobuf_eq_ok_iff.mp hdocument).2.2] at hsentinel
    rw [hordered.tokenAfter_of_size_le (Nat.le_of_not_lt hsize)] at hkind
    exact absurd (beq_iff_eq.mp hsentinel) hkind

theorem isInside_of_mem {text : Text} {document : Document Kind} {token : Token Kind} {offset : Nat}
    {isPart isOpen : Kind → Bool} (hdocument : Document.protobuf text = .ok document)
    (hmem : token ∈ document.tokens) (hpart : isPart token.kind)
    (hstart : token.span.start < offset) (hstop : offset < token.span.stop) :
    document.isInside isPart isOpen offset = true := by
  have hafter : document.tokenAfter offset = token :=
    (ordered_of_protobuf hdocument).tokenAfter_of_mem hmem (Nat.le_of_lt hstart) hstop
  rw [Document.isInside_eq, hafter, if_pos hpart, bne_iff_ne]
  omega

/-- A caret is inside a comment whose first character it follows. -/
theorem isInComment_of_start {text : Text} {document : Document Kind} {token : Token Kind}
    (hdocument : Document.protobuf text = .ok document) (hmem : token ∈ document.tokens)
    (hcomment : isComment token.kind) : document.isInComment (token.span.start + 1) = true := by
  have htokenize := (Document.protobuf_eq_ok_iff.mp hdocument).1
  have hkind : token.kind ≠ .eof := by
    intro hkind
    rw [hkind] at hcomment
    cases hcomment
  obtain ⟨before, lexeme, after, hoccurs⟩ := exists_occurs_of_mem htokenize hmem hkind
  have hsize := hoccurs.first.two_le_byteSize (hoccurs.stands.kind ▸ hcomment)
  have hstart := hoccurs.stands.start
  have hstop := hoccurs.stands.stop
  rw [Text.byteSize_append] at hstop
  rw [isInComment_eq hdocument]
  exact isInside_of_mem hdocument hmem hcomment (by omega) (by omega)

/-! ## The text before the caret -/

theorem Readable.exists_readings {before after : Text} (h : Readable (before ++ after)) :
    ∃ document tokens, Document.protobuf (before ++ after) = .ok document ∧
      tokenize before = .ok tokens := by
  have hbefore := h.of_sublist (List.sublist_append_left before after)
  obtain ⟨_, document, _, _, hdocument, _⟩ := h.exists_document
  obtain ⟨tokens, htokens⟩ := exists_tokenize_iff.mpr hbefore
  exact ⟨document, tokens, hdocument, htokens⟩

/-- A caret is in a string if the text before it stops in one. -/
theorem isInString_iff_lastToken (before after : Text) (h : Readable (before ++ after)) :
    ∃ document tokens, Document.protobuf (before ++ after) = .ok document ∧
      tokenize before = .ok tokens ∧
      (document.isInString before.byteSize = true ↔
        ∃ token, lastToken? tokens = some token ∧ token.kind = .unterminatedStrLit) := by
  obtain ⟨document, tokens, hdocument, htokens⟩ := h.exists_readings
  refine ⟨document, tokens, hdocument, htokens, ?_⟩
  by_cases hbefore : before = []
  · subst hbefore
    rw [isInString_eq hdocument, Text.byteSize_nil, isInside_zero hdocument, lastToken?_nil htokens]
    refine iff_of_false Bool.false_ne_true ?_
    rintro ⟨_, hnone, _⟩
    cases hnone
  · obtain ⟨front, lexeme, back, head, tail, hholds⟩ := exists_holds after hbefore
    obtain ⟨others, last, hlexemes, hremains⟩ := hholds.exists_last
    obtain ⟨token, hlast, hoccurs⟩ := exists_lastToken? htokens hlexemes
    rw [hholds.isInString_iff hdocument hremains, hlast, ← hoccurs.stands.kind]
    constructor
    · exact fun hkind => ⟨token, rfl, hkind⟩
    · rintro ⟨_, hsome, hkind⟩
      cases hsome
      exact hkind

-- The string is closed after the caret; what is before the caret alone is not.
theorem isInString_after_backslash :
    Readable (['"', '\\'] ++ ['"', '"']) ∧
      ∃ document, Document.protobuf (['"', '\\'] ++ ['"', '"']) = .ok document ∧
        document.isInString 2 = true := by
  have hreadable : Readable (['"', '\\'] ++ ['"', '"']) := ⟨by decide, by decide⟩
  have htokens : tokenize ['"', '\\'] = .ok
      #[⟨.unterminatedStrLit, ⟨0, 2, by decide, by decide⟩, 1, 0⟩,
        ⟨.eof, ⟨2, 2, by decide, by decide⟩, 1, 2⟩] := by cbv
  obtain ⟨document, tokens, hdocument, hbefore, hiff⟩ :=
    isInString_iff_lastToken ['"', '\\'] ['"', '"'] hreadable
  rw [htokens, Except.ok.injEq] at hbefore
  subst hbefore
  exact ⟨hreadable, document, hdocument, hiff.mpr ⟨_, rfl, rfl⟩⟩

/-- A caret is in a comment if the text before it stops in one, unless that is a block comment and
the text ends there; and inside the opening mark of a comment. -/
theorem isInComment_iff_lastToken (before after : Text) (h : Readable (before ++ after)) :
    ∃ document tokens, Document.protobuf (before ++ after) = .ok document ∧
      tokenize before = .ok tokens ∧
      (document.isInComment before.byteSize = true ↔
        (∃ token, lastToken? tokens = some token ∧
            (token.kind = .lineComment ∨ lacksEnd before token) ∧
            ¬ (after = [] ∧ token.kind = .blockComment)) ∨
          ∃ token ∈ document.tokens, isComment token.kind ∧
            token.span.start + 1 = before.byteSize) := by
  obtain ⟨document, tokens, hdocument, htokens⟩ := h.exists_readings
  refine ⟨document, tokens, hdocument, htokens, ?_⟩
  by_cases hbefore : before = []
  · subst hbefore
    rw [isInComment_eq hdocument, Text.byteSize_nil, isInside_zero hdocument,
      lastToken?_nil htokens]
    refine iff_of_false Bool.false_ne_true ?_
    rintro (⟨_, hnone, _⟩ | ⟨_, _, _, hstart⟩)
    · cases hnone
    · omega
  · obtain ⟨front, lexeme, back, head, tail, hholds⟩ := exists_holds after hbefore
    obtain ⟨others, last, hlexemes, hremains⟩ := hholds.exists_last
    obtain ⟨token, hlast, hoccurs⟩ := exists_lastToken? htokens hlexemes
    have hopen : token.kind = .lineComment ∨ lacksEnd before token ↔ IsOpenComment last := by
      rw [hoccurs.lacksEnd_iff, hoccurs.stands.kind]
      exact Iff.rfl
    have hiff := hholds.isInComment_iff hdocument hremains
    rw [← hopen, ← hoccurs.stands.kind] at hiff
    constructor
    · intro hcomment
      rcases hiff.mp hcomment with hcaret | ⟨hkind, hhead, _⟩
      · exact .inl ⟨token, hlast, hcaret⟩
      · obtain ⟨earlier, other, later, hsplit, hother, hstart, _⟩ := hholds.exists_token hdocument
        refine .inr ⟨other, ?_, hother ▸ hkind, ?_⟩
        · rw [← Array.mem_toList_iff, hsplit]
          exact List.mem_append_right earlier List.mem_cons_self
        · rw [← hstart, hhead]
          rfl
    · rintro (⟨other, hother, hcaret⟩ | ⟨other, hmem, hkind, hstart⟩)
      · rw [hlast, Option.some.injEq] at hother
        rw [← hother] at hcaret
        exact hiff.mpr (.inl hcaret)
      · rw [← hstart]
        exact isInComment_of_start hdocument hmem hkind

-- One more character, and the caret after the same text is in the comment.
theorem isInComment_before_end :
    Readable (['/', '*', 'a'] ++ ['b']) ∧
      ∃ document, Document.protobuf (['/', '*', 'a'] ++ ['b']) = .ok document ∧
        document.isInComment 3 = true := by
  have hreadable : Readable (['/', '*', 'a'] ++ ['b']) := ⟨by decide, by decide⟩
  have htokens : tokenize ['/', '*', 'a'] = .ok
      #[⟨.blockComment, ⟨0, 3, by decide, by decide⟩, 1, 0⟩,
        ⟨.eof, ⟨3, 3, by decide, by decide⟩, 1, 3⟩] := by cbv
  obtain ⟨document, tokens, hdocument, hbefore, hiff⟩ :=
    isInComment_iff_lastToken ['/', '*', 'a'] ['b'] hreadable
  rw [htokens, Except.ok.injEq] at hbefore
  subst hbefore
  exact ⟨hreadable, document, hdocument, hiff.mpr (.inl ⟨_, rfl, .inr (by decide), by decide⟩)⟩

/-- At the end of a text that stops in a block comment the caret is in no comment. -/
theorem not_isInComment_at_end :
    ∃ document tokens token, Document.protobuf ['/', '*', 'a'] = .ok document ∧
      tokenize ['/', '*', 'a'] = .ok tokens ∧ lastToken? tokens = some token ∧
      lacksEnd ['/', '*', 'a'] token = true ∧ document.isInComment 3 = false := by
  have htokens : tokenize ['/', '*', 'a'] = .ok
      #[⟨.blockComment, ⟨0, 3, by decide, by decide⟩, 1, 0⟩,
        ⟨.eof, ⟨3, 3, by decide, by decide⟩, 1, 3⟩] := by cbv
  have hcaret : (Document.protobuf ['/', '*', 'a']).map (fun document => document.isInComment 3) =
      .ok false := by cbv
  cases hdocument : Document.protobuf ['/', '*', 'a'] with
  | error fault =>
      rw [hdocument] at hcaret
      cases hcaret
  | ok document =>
      rw [hdocument] at hcaret
      exact ⟨document, _, _, rfl, htokens, rfl, by decide, Except.ok.inj hcaret⟩

end Protobuf

end Keystroke
