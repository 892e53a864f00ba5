import Mathlib
import Keystroke.Proofs.ClosingQuotes
import Keystroke.Proofs.Spellings

/-!
# The grammar of strings

After its opening quote a string is read item by item, as far as items go (`ItemRun`). If the quote
follows, the string ends with it; if not, it is cut off by the end of its line, and one backslash
that has nothing to escape may stand before that (`StringEnd`). Every token that starts with a quote
is such a string (`string_follows_grammar`).
-/

namespace Keystroke.Protobuf

/-! ## Runs of items -/

/-- The items of a string are told apart from the left: behind some of them the next one starts. -/
theorem StringBody.of_append {quote : Char} {body more : Text} (h : StringBody quote body)
    (hwhole : StringBody quote (body ++ more)) : StringBody quote more := by
  induction h with
  | nil => exact hwhole
  | @plain c body hc _ ih =>
      rw [List.cons_append] at hwhole
      generalize body ++ more = whole at hwhole ih
      cases hwhole with
      | plain _ hrest => exact ih hrest
      | escape _ _ => exact absurd (by simp) hc
  | escape _ _ ih =>
      rw [List.cons_append, List.cons_append] at hwhole
      cases hwhole with
      | plain hslash _ => exact absurd (by simp) hslash
      | escape _ hrest => exact ih hrest

theorem StringBody.not_isBreak {quote : Char} {body : Text} (h : StringBody quote body) :
    ∀ c ∈ body, isBreak c = false := by
  induction h with
  | nil => exact fun c hc => absurd hc List.not_mem_nil
  | plain hc _ ih =>
      refine List.forall_mem_cons.mpr ⟨?_, ih⟩
      rw [← Bool.not_eq_true, isBreak_iff]
      exact fun hbreak => hc (List.mem_cons_of_mem _ (List.mem_cons_of_mem _ hbreak))
  | escape hc _ ih =>
      exact List.forall_mem_cons.mpr ⟨rfl, List.forall_mem_cons.mpr ⟨hc, ih⟩⟩

/-- No item starts here: what follows, if anything does, is the quote, a line break or a backslash
that has nothing to escape. -/
def StopsItems (quote : Char) (after : Text) : Prop :=
  ∀ c rest, after = c :: rest → c ∈ [quote, '\\', '\n', '\r'] ∧
    (c = '\\' → ∀ d ∈ rest.head?, isBreak d = true)

theorem StopsItems.eq_nil {quote : Char} {after items rest : Text} (h : StopsItems quote after)
    (hafter : after = items ++ rest) (hitems : StringBody quote items) : items = [] := by
  cases hitems with
  | nil => rfl
  | plain hc _ => exact absurd (h _ _ hafter).1 hc
  | escape hd _ =>
      have hbreak := (h _ _ hafter).2 rfl _ rfl
      rw [hd] at hbreak
      cases hbreak

/-- The longest run of items at the start of a text, and what follows it. -/
structure ItemRun (quote : Char) (text body after : Text) : Prop where
  text_eq : text = body ++ after
  items : StringBody quote body
  longest : ∀ front back, text = front ++ back → StringBody quote front →
    front.length ≤ body.length

theorem StopsItems.itemRun {quote : Char} {body after : Text} (h : StopsItems quote after)
    (hbody : StringBody quote body) : ItemRun quote (body ++ after) body after := by
  refine ⟨rfl, hbody, fun front back htext hfront => ?_⟩
  by_contra hlong
  -- A longer run goes on beyond this one with an item.
  obtain ⟨items, rfl⟩ : body <+: front := by
    refine List.prefix_of_prefix_length_le (List.prefix_append body after) ?_ (by omega)
    rw [htext]
    exact List.prefix_append front back
  rw [List.append_assoc, List.append_cancel_left_eq] at htext
  have hnil := h.eq_nil htext (hbody.of_append hfront)
  apply hlong
  rw [hnil, List.append_nil]

theorem stopsItems_quote {quote : Char} (hquote : IsQuote quote) (more : Text) :
    StopsItems quote (quote :: more) := by
  intro c rest hafter
  cases hafter
  exact ⟨List.mem_cons_self, fun heq => absurd heq hquote.ne_backslash⟩

theorem stopsItems_lineEnd (quote : Char) {after : Text}
    (h : ∀ c ∈ after.head?, isBreak c = true) : StopsItems quote after := by
  rintro c rest rfl
  have hbreak := h c rfl
  refine ⟨?_, fun heq => absurd heq (isBreak_ne_backslash hbreak)⟩
  exact List.mem_cons_of_mem _ (List.mem_cons_of_mem _ (isBreak_iff.mp hbreak))

theorem stopsItems_backslash (quote : Char) {after : Text}
    (h : ∀ c ∈ after.head?, isBreak c = true) : StopsItems quote ('\\' :: after) := by
  intro c rest hafter
  cases hafter
  exact ⟨by simp, fun _ => h⟩

/-! ## Strings that are cut off -/

theorem QuotedOpen.exists_body {quote : Char} {s : Text} (h : QuotedOpen quote s) :
    ∃ body lone, s = body ++ lone ∧ StringBody quote body ∧ (lone = [] ∨ lone = ['\\']) := by
  cases s with
  | nil => exact ⟨[], [], rfl, .nil, .inl rfl⟩
  | cons c s =>
      rcases quotedOpen_cons_iff.mp h with ⟨hc, h⟩ | ⟨hc, d, rest, hs, hd, h⟩ | ⟨hc, hs⟩
      · obtain ⟨body, lone, hbody, hitems, hlone⟩ := exists_body h
        exact ⟨c :: body, lone, by rw [hbody, List.cons_append], .plain hc hitems, hlone⟩
      · obtain ⟨body, lone, hbody, hitems, hlone⟩ := exists_body h
        exact ⟨'\\' :: d :: body, lone, by rw [hc, hs, hbody, List.cons_append, List.cons_append],
          .escape hd hitems, hlone⟩
      · exact ⟨[], ['\\'], by rw [hc, hs, List.nil_append], .nil, .inr rfl⟩
termination_by s.length

def untilBreak (text : Text) : Text := text.takeWhile fun c => !isBreak c

theorem untilBreak_append {line after : Text} (hline : ∀ c ∈ line, isBreak c = false)
    (hafter : ∀ c ∈ after.head?, isBreak c = true) : untilBreak (line ++ after) = line := by
  have hnone : after.takeWhile (fun c => !isBreak c) = [] := by
    cases after with
    | nil => rfl
    | cons c rest => rw [List.takeWhile_cons_of_neg (by simp [hafter c rfl])]
  unfold untilBreak
  rw [List.takeWhile_append_of_pos (fun c hc => by simp [hline c hc]), hnone, List.append_nil]

/-! ## The kinds of strings -/

def closedKind (content : Text) : Kind :=
  if content = "\"proto3\"".toList then .proto3Double
  else if content = "'proto3'".toList then .proto3Single
  else .strLit

-- After an opening quote only the rules for strings go on.
theorem isString_of_picks {quote : Char} (hquote : IsQuote quote) {s : Text} {kind : Kind}
    (h : Rule.Picks rules (quote :: s) kind) :
    kind = .unterminatedStrLit ∨ kind ∈ [.strLit, .proto3Double, .proto3Single] := by
  have hkinds : ∀ rule ∈ Rule.advanceAll [quote] rules,
      rule.kind = .unterminatedStrLit ∨ rule.kind ∈ [.strLit, .proto3Double, .proto3Single] := by
    rcases hquote with rfl | rfl <;> decide
  have hadvanced : Rule.Picks (Rule.advanceAll [quote] rules) s kind :=
    Rule.picks_advanceAll_iff.mpr h
  obtain ⟨rule, hmem, _, rfl⟩ := hadvanced.covered
  exact hkinds rule hmem

theorem eq_closedKind {content : Text} {kind : Kind} (h : Rule.Picks rules content kind)
    (hkind : kind ∈ [.strLit, .proto3Double, .proto3Single]) : kind = closedKind content := by
  have hdouble := @picks_iff_spelling .proto3Double _ rfl content
  have hsingle := @picks_iff_spelling .proto3Single _ rfl content
  unfold closedKind
  split
  next hcontent => exact h.unique (hdouble.mpr hcontent)
  next hnotDouble =>
    split
    next hcontent => exact h.unique (hsingle.mpr hcontent)
    next hnotSingle =>
      simp only [List.mem_cons, List.not_mem_nil, or_false] at hkind
      rcases hkind with rfl | rfl | rfl
      · rfl
      · exact absurd (hdouble.mp h) hnotDouble
      · exact absurd (hsingle.mp h) hnotSingle

/-- A string is of one of the closed kinds if it has its closing quote. -/
theorem kind_of_closed {quote : Char} (hquote : IsQuote quote) {s : Text} {kind : Kind}
    (h : Rule.Picks rules (quote :: s) kind) (hclosed : QuotedClosed quote s) :
    kind = closedKind (quote :: s) := by
  have hkind : kind ≠ .unterminatedStrLit := by
    rintro rfl
    exact ((picks_unterminated_iff hquote).mp h).2 hclosed
  exact eq_closedKind h ((isString_of_picks hquote h).resolve_left hkind)

theorem kind_of_open {quote : Char} (hquote : IsQuote quote) {s : Text} {kind : Kind}
    (h : Rule.Picks rules (quote :: s) kind) (hclosed : ¬ QuotedClosed quote s) :
    QuotedOpen quote s ∧ kind = .unterminatedStrLit := by
  have hquoted := (covers_quoted_iff hquote).mp (Rule.covers_iff_picks.mpr ⟨kind, h⟩)
  have hopen := hquoted.resolve_left hclosed
  exact ⟨hopen, h.unique ((picks_unterminated_iff hquote).mpr ⟨hopen, hclosed⟩)⟩

/-! ## How a string ends -/

/-- How a string that starts a text with its quote ends, behind the longest run of its items: with
the quote, or cut off by the end of its line. -/
inductive StringEnd (quote : Char) (rest body : Text) : Text → Lexeme → Prop where
  | closed {more : Text} :
      StringEnd quote rest body (quote :: more)
        ⟨closedKind (quote :: (body ++ [quote])), quote :: (body ++ [quote])⟩
  | cut {after : Text} (hafter : after.head? ≠ some quote)
      (hlone : untilBreak rest = body ∨ untilBreak rest = body ++ ['\\']) :
      StringEnd quote rest body after ⟨.unterminatedStrLit, quote :: untilBreak rest⟩

theorem First.picks_of_isQuote {quote : Char} (hquote : IsQuote quote) {rest : Text}
    {lexeme : Lexeme} (h : First (quote :: rest) lexeme) :
    Rule.Picks rules lexeme.text lexeme.kind := by
  cases h with
  | found hlongest => exact hlongest.picks
  | unknown htext hnone =>
      -- A quote alone is a string that is cut off.
      have hcovers := (covers_quoted_iff hquote).mpr (quoted_nil quote)
      exact absurd hcovers (hnone 1 (by simp))

theorem stringEnd_closed {quote : Char} (hquote : IsQuote quote) {s more : Text} {kind : Kind}
    (h : Rule.Picks rules (quote :: s) kind) (hclosed : QuotedClosed quote s) :
    ∃ body after, ItemRun quote (s ++ more) body after ∧
      StringEnd quote (s ++ more) body after ⟨kind, quote :: s⟩ := by
  have heq := kind_of_closed hquote h hclosed
  obtain ⟨body, rfl, hbody⟩ := hclosed.exists_body
  refine ⟨body, quote :: more, ?_, ?_⟩
  · rw [List.append_assoc, List.singleton_append]
    exact (stopsItems_quote hquote more).itemRun hbody
  · rw [heq]
    exact .closed

theorem stringEnd_cut {quote : Char} (hquote : IsQuote quote) {s more : Text}
    (hopen : QuotedOpen quote s) (hmore : ∀ c ∈ more.head?, isBreak c = true) :
    ∃ body after, ItemRun quote (s ++ more) body after ∧
      StringEnd quote (s ++ more) body after ⟨.unterminatedStrLit, quote :: s⟩ := by
  obtain ⟨body, lone, rfl, hbody, hlone⟩ := hopen.exists_body
  have hline : untilBreak (body ++ lone ++ more) = body ++ lone := by
    refine untilBreak_append (fun c hc => ?_) hmore
    rcases List.mem_append.mp hc with hc | hc
    · exact hbody.not_isBreak c hc
    · rcases hlone with rfl | rfl
      · exact absurd hc List.not_mem_nil
      · rw [List.mem_singleton.mp hc]
        rfl
  refine ⟨body, lone ++ more, ?_, ?_⟩
  · rw [List.append_assoc]
    rcases hlone with rfl | rfl
    · exact (stopsItems_lineEnd quote hmore).itemRun hbody
    · exact (stopsItems_backslash quote hmore).itemRun hbody
  · have hend := @StringEnd.cut quote (body ++ lone ++ more) body (lone ++ more)
    rw [hline] at hend
    rcases hlone with rfl | rfl
    · refine hend (fun hhead => ?_) (.inl (List.append_nil body))
      have hbreak := hmore quote hhead
      rw [hquote.not_isBreak] at hbreak
      cases hbreak
    · exact hend (fun hhead => hquote.ne_backslash (Option.some.inj hhead).symm) (.inr rfl)

theorem First.exists_stringEnd {quote : Char} (hquote : IsQuote quote) {rest : Text}
    {lexeme : Lexeme} (h : First (quote :: rest) lexeme) :
    ∃ body after, ItemRun quote rest body after ∧ StringEnd quote rest body after lexeme := by
  have hpicks := h.picks_of_isQuote hquote
  have hlength := first_quoted hquote h
  obtain ⟨more, hmore⟩ := h.isPrefix
  obtain ⟨kind, content⟩ := lexeme
  generalize rest.take (stringExtent quote rest).length = s at hlength
  cases hlength
  rw [List.cons_append, List.cons.injEq] at hmore
  obtain ⟨_, rfl⟩ := hmore
  by_cases hclosed : QuotedClosed quote s
  · exact stringEnd_closed hquote hpicks hclosed
  · obtain ⟨hopen, rfl⟩ := kind_of_open hquote hpicks hclosed
    refine stringEnd_cut hquote hopen fun c hc => ?_
    -- What does not end the line would have made the string longer.
    obtain ⟨others, rfl⟩ := List.head?_eq_some_iff.mp hc
    exact @First.isBreak_of_open ⟨.unterminatedStrLit, quote :: s⟩ c others h (.inl rfl)

/-- What the walk finds decides the kind, together with the text of a string that is closed. -/
theorem First.kind_of_extent {quote : Char} (hquote : IsQuote quote) {rest : Text}
    {lexeme : Lexeme} (h : First (quote :: rest) lexeme) :
    lexeme.kind =
      if (stringExtent quote rest).isClosed then closedKind lexeme.text
      else .unterminatedStrLit := by
  have hpicks := h.picks_of_isQuote hquote
  have hclosed := (isStringExtent_stringExtent hquote rest).closed_iff
  rw [first_quoted hquote h] at hpicks ⊢
  split
  next hfound => exact kind_of_closed hquote hpicks (hclosed.mp hfound)
  next hmissed => exact (kind_of_open hquote hpicks (hclosed.not.mp hmissed)).2

/-! ## Tokens -/

/-- A token that starts with a quote is a string: the longest run of items, and its end. A walk over
the bytes, which may stop inside a character on the way, comes to the same end, and its kind tells
whether the walk found the closing quote. -/
theorem string_follows_grammar {text before rest : Text} {quote : Char} {tokens : TokenList Kind}
    {token : Token Kind} (htokens : tokenize text = .ok tokens) (hmem : token ∈ tokens)
    (hquote : IsQuote quote) (htext : text = before ++ quote :: rest)
    (hstart : token.span.start = before.byteSize) :
    ∃ body after content, ItemRun quote rest body after ∧
      StringEnd quote rest body after ⟨token.kind, content⟩ ∧
      token.span.stop = Text.byteSize (before ++ content) ∧
      token.span.stop = token.span.start + 1 + (stringBytes quote rest.bytes).length ∧
      token.kind =
        if (stringBytes quote rest.bytes).isClosed then closedKind content
        else .unterminatedStrLit := by
  obtain ⟨body, sentinel, rfl, hsentinel, hbody⟩ := exists_body_of_tokenize htokens
  rcases Array.mem_push.mp hmem with hmem | rfl
  · obtain ⟨front, lexeme, back, hoccurs⟩ := hbody token hmem
    obtain ⟨rfl, hback⟩ := hoccurs.eq_of_start htext hstart
    have hfirst := hoccurs.first
    rw [hback] at hfirst
    obtain ⟨body, after, hrun, hend⟩ := hfirst.exists_stringEnd hquote
    refine ⟨body, after, lexeme.text, hrun, ?_, hoccurs.stands.stop,
      hoccurs.stop_of_isQuote hquote htext hstart, ?_⟩
    · rw [hoccurs.stands.kind]
      exact hend
    · rw [hoccurs.stands.kind, stringBytes_bytes hquote]
      exact hfirst.kind_of_extent hquote
  · -- The sentinel is at the end of the text, behind the quote.
    have hsize := hsentinel.start
    have hpos := quote.utf8Size_pos
    rw [hstart, htext, Text.byteSize_append, Text.byteSize_cons] at hsize
    omega

-- A backslash takes a long character with it, and another one has only a line break to take.
theorem string_cut_after_backslash :
    ∃ tokens token, tokenize ['=', '"', '\\', 'é', '\\', '\n'] = .ok tokens ∧ token ∈ tokens ∧
      token.kind = .unterminatedStrLit ∧ token.span.start = 1 ∧
      ∃ body after content, ItemRun '"' ['\\', 'é', '\\', '\n'] body after ∧
        StringEnd '"' ['\\', 'é', '\\', '\n'] body after ⟨token.kind, content⟩ ∧
        token.span.stop = Text.byteSize (['='] ++ content) ∧
        token.span.stop =
          token.span.start + 1 + (stringBytes '"' (Text.bytes ['\\', 'é', '\\', '\n'])).length ∧
        token.kind =
          if (stringBytes '"' (Text.bytes ['\\', 'é', '\\', '\n'])).isClosed then closedKind content
          else .unterminatedStrLit := by
  have htokens : tokenize ['=', '"', '\\', 'é', '\\', '\n'] = .ok
      #[⟨.assign, ⟨0, 1, by decide, by decide⟩, 1, 0⟩,
        ⟨.unterminatedStrLit, ⟨1, 6, by decide, by decide⟩, 1, 1⟩,
        ⟨.newline, ⟨6, 7, by decide, by decide⟩, 1, 6⟩,
        ⟨.eof, ⟨7, 7, by decide, by decide⟩, 2, 0⟩] := by cbv
  exact ⟨_, _, htokens, Array.mem_of_getElem? (i := 1) rfl, rfl, rfl,
    string_follows_grammar htokens (Array.mem_of_getElem? (i := 1) rfl) (.inl rfl) rfl rfl⟩

end Keystroke.Protobuf
