import Mathlib
import Keystroke.Proofs.CaretContext

/-!
# Tokens of a text in two parts

A text that is cut where a token starts or stops has the tokens of its two parts, those of the
second one moved behind the first (`tokenize_splits`). Nothing is read across such a cut, in either
direction.
-/

namespace Keystroke.Protobuf

/-! ## Places of lexemes -/

def shift (distance : Nat) : Kind × Nat × Nat → Kind × Nat × Nat
  | (kind, start, stop) => (kind, distance + start, distance + stop)

theorem layout_append (offset : Nat) (front back : List Lexeme) :
    layout offset (front ++ back) =
      layout offset front ++ layout (offset + (joined front).byteSize) back := by
  induction front generalizing offset with
  | nil => rfl
  | cons lexeme front ih =>
      rw [List.cons_append, layout, layout, ih, joined_cons, Text.byteSize_append, Nat.add_assoc]
      rfl

theorem layout_add (distance offset : Nat) (lexemes : List Lexeme) :
    layout (distance + offset) lexemes = (layout offset lexemes).map (shift distance) := by
  induction lexemes generalizing offset with
  | nil => rfl
  | cons lexeme lexemes ih =>
      rw [layout, layout, List.map_cons, ← ih, shift, Nat.add_assoc]

/-! ## Places of tokens -/

def extents (tokens : List (Token Kind)) : List (Kind × Nat × Nat) :=
  (tokens.filter (·.kind != .eof)).map fun token =>
    (token.kind, token.span.start, token.span.stop)

theorem kind_ne_eof_of_mem_lexemes {text : Text} {lexeme : Lexeme} (h : lexeme ∈ lexemes text) :
    lexeme.kind ≠ .eof := by
  obtain ⟨front, back, hlexemes⟩ := List.append_of_mem h
  exact (first_of_lexemes_eq_append hlexemes).kind_ne_eof

theorem Placed.extents_eq {before : Text} {lexemes : List Lexeme} {tokens : List (Token Kind)}
    (h : Placed before lexemes tokens) (hkinds : ∀ lexeme ∈ lexemes, lexeme.kind ≠ .eof) :
    extents tokens = layout before.byteSize lexemes := by
  induction h with
  | @sentinel before token hstands =>
      rw [extents, List.filter_cons_of_neg (by simp [hstands.kind])]
      rfl
  | @lexeme before lexeme lexemes token tokens hstands _ ih =>
      have hkind : token.kind ≠ .eof := by
        rw [hstands.kind]
        exact hkinds lexeme List.mem_cons_self
      have hrest := ih fun other hmem => hkinds other (List.mem_cons_of_mem lexeme hmem)
      rw [extents] at hrest ⊢
      rw [List.filter_cons_of_pos (by simp [hkind]), List.map_cons, hrest, layout, hstands.kind,
        hstands.start, hstands.stop, Text.byteSize_append]

theorem extents_of_tokenize {text : Text} {tokens : TokenList Kind}
    (h : tokenize text = .ok tokens) : extents tokens.toList = layout 0 (lexemes text) :=
  (placed_of_tokenize h).extents_eq fun _ hmem => kind_ne_eof_of_mem_lexemes hmem

/-! ## Cuts between tokens -/

/-- Where a token starts or stops, one lexeme is over and the next has not begun. -/
theorem exists_lexemes_split {text : Text} {tokens : TokenList Kind} {token : Token Kind} {p : Nat}
    (h : tokenize text = .ok tokens) (hmem : token ∈ tokens)
    (hp : p = token.span.start ∨ p = token.span.stop) :
    ∃ front back, lexemes text = front ++ back ∧ (joined front).byteSize = p := by
  obtain ⟨body, sentinel, htokens, hsentinel, hbody⟩ := (placed_of_tokenize h).exists_body
  rw [← Array.mem_toList_iff, htokens, List.mem_append, List.mem_singleton] at hmem
  rcases hmem with hmem | rfl
  · obtain ⟨front, lexeme, back, hlexemes, hstands⟩ := hbody token hmem
    rcases hp with rfl | rfl
    · exact ⟨front, lexeme :: back, hlexemes, hstands.start.symm⟩
    · refine ⟨front ++ [lexeme], back, ?_, ?_⟩
      · rw [hlexemes, List.append_assoc, List.singleton_append]
      · rw [hstands.stop, joined_append, joined_cons, joined_nil, List.append_nil, List.nil_append]
  · -- The sentinel is empty, and all lexemes are before it.
    refine ⟨lexemes text, [], (List.append_nil _).symm, ?_⟩
    rw [List.nil_append] at hsentinel
    rcases hp with rfl | rfl
    · exact hsentinel.start.symm
    · rw [hsentinel.stop, List.append_nil]

theorem lexemes_joined {text : Text} {front back : List Lexeme}
    (h : lexemes text = front ++ back) : lexemes (joined front) = front := by
  have hcut := lexemes_cut h List.nil_prefix
  rw [lexemes_nil, List.append_nil, List.append_nil] at hcut
  exact hcut

theorem tokenize_splits (text : Text) (hsize : text.byteSize < 4294967295) :
    ∃ tokens, tokenize text = .ok tokens ∧
      ∀ token ∈ tokens, ∀ p, p = token.span.start ∨ p = token.span.stop →
        ∃ before after, text = before ++ after ∧ before.byteSize = p ∧
          ∃ left right, tokenize before = .ok left ∧ tokenize after = .ok right ∧
            extents tokens.toList =
              extents left.toList ++ (extents right.toList).map (shift p) := by
  have hreadable : Readable text := .of_byteSize (Nat.succ_lt_succ hsize)
  obtain ⟨tokens, htokens⟩ := exists_tokenize_iff.mpr hreadable
  refine ⟨tokens, htokens, fun token hmem p hp => ?_⟩
  obtain ⟨front, back, hlexemes, hfront⟩ := exists_lexemes_split htokens hmem hp
  obtain ⟨htext, hback⟩ := lexemes_append hlexemes
  -- Both parts can be read, because each is a part of the text.
  have hbefore : Readable (joined front) := by
    apply hreadable.of_sublist
    rw [htext]
    exact List.sublist_append_left _ _
  have hafter : Readable (joined back) := by
    apply hreadable.of_sublist
    rw [htext]
    exact List.sublist_append_right _ _
  obtain ⟨left, hleft⟩ := exists_tokenize_iff.mpr hbefore
  obtain ⟨right, hright⟩ := exists_tokenize_iff.mpr hafter
  refine ⟨joined front, joined back, htext, hfront, left, right, hleft, hright, ?_⟩
  calc extents tokens.toList
      = layout 0 (front ++ back) := by rw [extents_of_tokenize htokens, hlexemes]
    _ = layout 0 front ++ layout (p + 0) back := by
        rw [layout_append, hfront, Nat.zero_add, Nat.add_zero]
    _ = extents left.toList ++ (extents right.toList).map (shift p) := by
        rw [layout_add, extents_of_tokenize hleft, extents_of_tokenize hright,
          lexemes_joined hlexemes, hback]

-- A number, a word and a sign: without the sign, what is left of an exponent ends the text.
theorem tokenize_splits_exponent :
    Text.byteSize ['1', 'e', '+'] < 4294967295 ∧
      ∃ tokens, tokenize ['1', 'e', '+'] = .ok tokens ∧
        ∃ token ∈ tokens, token.kind = .ident ∧ token.span.stop = 2 ∧
          ∃ left right, tokenize ['1', 'e'] = .ok left ∧ tokenize ['+'] = .ok right ∧
            extents tokens.toList =
              extents left.toList ++ (extents right.toList).map (shift 2) := by
  have hsize : Text.byteSize ['1', 'e', '+'] < 4294967295 := by decide
  have hvalue : tokenize ['1', 'e', '+'] = .ok
      #[⟨.intLit, ⟨0, 1, by decide, by decide⟩, 1, 0⟩, ⟨.ident, ⟨1, 2, by decide, by decide⟩, 1, 1⟩,
        ⟨.mark .plus, ⟨2, 3, by decide, by decide⟩, 1, 2⟩,
        ⟨.eof, ⟨3, 3, by decide, by decide⟩, 1, 3⟩] := by cbv
  obtain ⟨tokens, htokens, hsplits⟩ := tokenize_splits ['1', 'e', '+'] hsize
  have hsame := htokens
  rw [hvalue, Except.ok.injEq] at hsame
  subst hsame
  obtain ⟨before, after, htext, hbefore, left, right, hleft, hright, hextents⟩ :=
    hsplits _ (Array.mem_of_getElem? (i := 1) rfl) 2 (.inr rfl)
  have hcut : Text.splitAt? ['1', 'e', '+'] 2 = some (before, after) :=
    Text.splitAt?_eq_some_iff.mpr ⟨htext, hbefore⟩
  have hparts : Text.splitAt? ['1', 'e', '+'] 2 = some (['1', 'e'], ['+']) := by decide
  rw [hparts, Option.some.injEq, Prod.mk.injEq] at hcut
  obtain ⟨rfl, rfl⟩ := hcut
  exact ⟨hsize, _, htokens, _, Array.mem_of_getElem? (i := 1) rfl, rfl, rfl, left, right, hleft,
    hright, hextents⟩

end Keystroke.Protobuf
