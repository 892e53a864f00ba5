import Mathlib
import Keystroke.Proofs.TokenLookup

/-!
# Which lists of tokens make a document

A document accepts a list of tokens when each starts where the one before it stops, and the last
marks the end of the text (`ofTokens_accepts_iff`). Spans that run forward then lie side by side
inside the text. Whether they do is not looked at: `ofTokens_accepts_backward` has a list with a
token that ends past the text and one that comes back.
-/

namespace Keystroke.Document

variable {κ : Type}

/-! ## What is asked of a list -/

/-- The last token is of an end kind, and empty at the end of the text. -/
def EndsText (classifier : Classifier κ) (text : Text) (tokens : TokenList κ) : Prop :=
  ∃ last, tokens.back? = some last ∧ classifier.isEnd last.kind ∧
    last.span.start = text.byteSize ∧ last.span.stop = text.byteSize

/-- The first token starts at offset 0, and every other one where its predecessor stops. -/
structure Adjoining (tokens : List (Token κ)) : Prop where
  first : ∀ token, tokens[0]? = some token → token.span.start = 0
  next : ∀ i token later, tokens[i]? = some token → tokens[i + 1]? = some later →
    later.span.start = token.span.stop

def Forward (tokens : TokenList κ) : Prop :=
  ∀ token ∈ tokens, token.span.start ≤ token.span.stop

/-! ## One walk over the list -/

theorem chained_iff {offset : Nat} {tokens : List (Token κ)} :
    Chained offset tokens ↔
      (∀ token, tokens[0]? = some token → token.span.start = offset) ∧
        ∀ i token later, tokens[i]? = some token → tokens[i + 1]? = some later →
          later.span.start = token.span.stop := by
  -- The walk carries the stop of the token before: for the rest of the list it is the offset.
  induction tokens generalizing offset with
  | nil => exact iff_of_true trivial ⟨nofun, nofun⟩
  | cons token rest ih =>
      rw [Chained, ih]
      constructor
      · rintro ⟨hstart, hhead, hnext⟩
        refine ⟨fun first hfirst => ?_, fun i earlier later hearlier hlater => ?_⟩
        · cases hfirst
          exact hstart
        · cases i with
          | zero =>
              cases hearlier
              exact hhead later hlater
          | succ i => exact hnext i earlier later hearlier hlater
      · rintro ⟨hfirst, hnext⟩
        refine ⟨hfirst token rfl, fun later hlater => ?_, fun i earlier later hearlier hlater => ?_⟩
        · exact hnext 0 token later rfl hlater
        · exact hnext (i + 1) earlier later hearlier hlater

theorem adjoining_iff_chained {tokens : List (Token κ)} : Adjoining tokens ↔ Chained 0 tokens := by
  rw [chained_iff]
  exact ⟨fun h => ⟨h.first, h.next⟩, fun h => ⟨h.1, h.2⟩⟩

/-! ## Documents -/

theorem endsText_of_ofTokens {text : Text} {tokens : TokenList κ} {classifier : Classifier κ}
    {document : Document κ} (h : ofTokens text tokens classifier = .ok document) :
    EndsText classifier text tokens := by
  obtain ⟨rfl, rfl, rfl⟩ := ofTokens_eq_ok_iff.mp h
  exact ⟨document.sentinel, Array.back?_push, document.sentinel_isEnd, document.sentinel_start,
    document.sentinel_stop⟩

theorem exists_ofTokens_of_endsText {text : Text} {tokens : TokenList κ}
    {classifier : Classifier κ} (hend : EndsText classifier text tokens)
    (hchained : Chained 0 tokens.toList) :
    ∃ document, ofTokens text tokens classifier = .ok document := by
  obtain ⟨last, hlast, hkind, hstart, hstop⟩ := hend
  obtain ⟨body, rfl⟩ := Array.back?_eq_some_iff.mp hlast
  refine ⟨⟨text, body, last, classifier, hkind, hchained, hstart, hstop⟩, ?_⟩
  exact ofTokens_eq_ok_iff.mpr ⟨rfl, rfl, rfl⟩

/-- Just the lists that end the text and leave no gap are accepted. If their tokens run forward,
these are in order, without an overlap, and inside the text. -/
theorem ofTokens_accepts_iff (text : Text) (tokens : TokenList κ) (classifier : Classifier κ) :
    ((∃ document, ofTokens text tokens classifier = .ok document) ↔
      EndsText classifier text tokens ∧ Adjoining tokens.toList) ∧
    ∀ document, ofTokens text tokens classifier = .ok document → Forward tokens →
      (tokens.toList.Pairwise fun token later => token.span.stop ≤ later.span.start) ∧
        ∀ token ∈ tokens, token.span.stop ≤ text.byteSize := by
  refine ⟨⟨fun ⟨document, h⟩ => ?_, fun ⟨hend, hadjoining⟩ => ?_⟩, fun document h hforward => ?_⟩
  · refine ⟨endsText_of_ofTokens h, adjoining_iff_chained.mpr ?_⟩
    obtain ⟨_, rfl, _⟩ := ofTokens_eq_ok_iff.mp h
    exact document.chained
  · exact exists_ofTokens_of_endsText hend (adjoining_iff_chained.mp hadjoining)
  · obtain ⟨rfl, rfl, rfl⟩ := ofTokens_eq_ok_iff.mp h
    have hordered : document.Ordered := hforward
    exact ⟨hordered.pairwise, fun token hmem => hordered.stop_le_size hmem⟩

theorem zero_lt_bound : 0 < Word.bound := by decide

theorem one_lt_bound : 1 < Word.bound := by decide

def letterTokens : TokenList Kind :=
  #[⟨.ident, ⟨0, 1, zero_lt_bound, one_lt_bound⟩, 1, 0⟩,
    ⟨.eof, ⟨1, 1, one_lt_bound, one_lt_bound⟩, 1, 1⟩]

theorem ofTokens_accepts_letter :
    (∃ document, ofTokens ['a'] letterTokens .protobuf = .ok document) ∧ Forward letterTokens ∧
      (letterTokens.toList.Pairwise fun token later => token.span.stop ≤ later.span.start) ∧
        ∀ token ∈ letterTokens, token.span.stop ≤ Text.byteSize ['a'] := by
  have hforward : Forward letterTokens := by
    intro token hmem
    simp only [letterTokens, List.mem_toArray, List.mem_cons, List.not_mem_nil, or_false] at hmem
    rcases hmem with rfl | rfl <;> decide
  obtain ⟨haccepts, hinside⟩ := ofTokens_accepts_iff ['a'] letterTokens .protobuf
  obtain ⟨document, hdocument⟩ := haccepts.mpr
    ⟨⟨_, rfl, rfl, rfl, rfl⟩, adjoining_iff_chained.mpr ⟨rfl, rfl, trivial⟩⟩
  exact ⟨⟨document, hdocument⟩, hforward, hinside document hdocument hforward⟩

/-- Tokens for the empty text: one that ends past it, and one that comes back. -/
def backwardTokens : TokenList Kind :=
  #[⟨.ident, ⟨0, 1, zero_lt_bound, one_lt_bound⟩, 1, 0⟩,
    ⟨.ident, ⟨1, 0, one_lt_bound, zero_lt_bound⟩, 1, 1⟩,
    ⟨.eof, ⟨0, 0, zero_lt_bound, zero_lt_bound⟩, 1, 0⟩]

theorem ofTokens_accepts_backward :
    (∃ document, ofTokens [] backwardTokens .protobuf = .ok document) ∧
      (∃ token ∈ backwardTokens, token.span.stop < token.span.start) ∧
        ∃ token ∈ backwardTokens, Text.byteSize [] < token.span.stop := by
  refine ⟨exists_ofTokens_of_endsText ⟨_, rfl, rfl, rfl, rfl⟩ ⟨rfl, rfl, rfl, trivial⟩, ?_, ?_⟩
  · exact ⟨_, Array.mem_of_getElem? (i := 1) rfl, by decide⟩
  · exact ⟨_, Array.mem_of_getElem? (i := 0) rfl, by decide⟩

end Keystroke.Document
