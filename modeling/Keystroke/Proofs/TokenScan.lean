import Mathlib
import Keystroke.Proofs.TokenLists

/-!
# Lookup and scan

Halving looks at few of the tokens. Where no span runs backward, it finds the token that looking at
all of them in turn finds first (`Ordered.tokenAt_eq_scan`), also among tokens without width and
past the end of the text.
-/

namespace Keystroke.Document

variable {κ : Type} {document : Document κ}

/-- The place of the first token before the sentinel of which something holds, or else of the
sentinel. -/
def scanIndex (document : Document κ) (holds : Token κ → Bool) : Nat :=
  document.body.toList.findIdx holds

def scan (document : Document κ) (holds : Token κ → Bool) : Token κ :=
  (document.body.toList.find? holds).getD document.sentinel

theorem tokenAtIndex_scanIndex (document : Document κ) (holds : Token κ → Bool) :
    document.tokenAtIndex (document.scanIndex holds) = document.scan holds := by
  rw [tokenAtIndex, scan, scanIndex, List.find?_eq_getElem?_findIdx, Array.getElem?_toList]

/-- No earlier token holds the byte after an offset if one does. -/
theorem Ordered.scanIndex_eq (hordered : document.Ordered) {front back : List (Token κ)}
    {token : Token κ} {offset : Nat} (hbody : document.body.toList = front ++ token :: back)
    (hholds : token.span.holdsAfter offset = true) :
    document.scanIndex (·.span.holdsAfter offset) = front.length := by
  have hstart := (Span.holdsAfter_iff.mp hholds).1
  have hfront : ∀ earlier ∈ front, earlier.span.holdsAfter offset = false := by
    intro earlier hmem
    rw [← Bool.not_eq_true, Span.holdsAfter_iff]
    have hstop := (hordered.pairwise_split hbody).1 earlier hmem
    omega
  rw [scanIndex, hbody, List.findIdx_append, List.findIdx_eq_length.mpr hfront, List.findIdx_cons,
    hholds, if_neg (Nat.lt_irrefl _)]
  exact Nat.zero_add _

theorem Ordered.indexAfter_eq_scanIndex (hordered : document.Ordered) (offset : Nat) :
    document.indexAfter offset = document.scanIndex (·.span.holdsAfter offset) := by
  by_cases hsome : ∃ token ∈ document.body, token.span.holdsAfter offset = true
  · obtain ⟨token, hmem, hholds⟩ := hsome
    obtain ⟨front, back, hbody⟩ := List.append_of_mem (Array.mem_toList_iff.mpr hmem)
    obtain ⟨hstart, hstop⟩ := Span.holdsAfter_iff.mp hholds
    rw [hordered.scanIndex_eq hbody hholds, hordered.indexAfter_eq hbody hstart hstop]
  · have hnone : ∀ token ∈ document.body, ¬ token.span.holdsAfter offset = true :=
      fun token hmem hholds => hsome ⟨token, hmem, hholds⟩
    have hscan : ∀ token ∈ document.body.toList, token.span.holdsAfter offset = false := by
      intro token hmem
      rw [← Bool.not_eq_true]
      exact hnone token (Array.mem_toList_iff.mp hmem)
    rw [indexAfter_of_not_holds hnone, scanIndex, List.findIdx_eq_length.mpr hscan,
      Array.length_toList]

/-- The token after an offset is the first one before the sentinel that has the byte there, and the
token before it the first one that has the byte before it; if there is none, it is the sentinel.
The token before an offset is the one after the offset one less. -/
theorem Ordered.tokenAt_eq_scan (hordered : document.Ordered) (offset : Nat) :
    (document.tokenAt offset .after =
        .ok (document.scan fun token => token.span.start ≤ offset ∧ offset < token.span.stop) ∧
      document.indexAfter offset =
        document.scanIndex fun token => token.span.start ≤ offset ∧ offset < token.span.stop) ∧
    (0 < offset →
      (document.tokenAt offset .before =
          .ok (document.scan fun token => token.span.start < offset ∧ offset ≤ token.span.stop) ∧
        document.indexBefore offset =
          document.scanIndex fun token => token.span.start < offset ∧ offset ≤ token.span.stop) ∧
      document.tokenAt offset .before = document.tokenAt (offset - 1) .after ∧
        document.indexBefore offset = document.indexAfter (offset - 1)) := by
  have hafter : ∀ offset, document.indexAfter offset =
      document.scanIndex fun token => token.span.start ≤ offset ∧ offset < token.span.stop := by
    intro offset
    rw [hordered.indexAfter_eq_scanIndex]
    simp only [Span.holdsAfter, Bool.decide_and]
  refine ⟨⟨?_, hafter offset⟩, fun hpos => ?_⟩
  · rw [tokenAt, tokenAfter, hafter, tokenAtIndex_scanIndex]
  · -- Looking back from an offset is looking ahead from the one before it.
    obtain ⟨earlier, rfl⟩ := Nat.exists_eq_succ_of_ne_zero (Nat.ne_of_gt hpos)
    have hbefore : document.indexBefore (earlier + 1) = document.scanIndex fun token =>
        token.span.start < earlier + 1 ∧ earlier + 1 ≤ token.span.stop := by
      rw [indexBefore_succ, hafter]
      simp only [Nat.lt_succ_iff, Nat.succ_le_iff]
    refine ⟨⟨?_, hbefore⟩, ?_, indexBefore_succ document earlier⟩
    · rw [tokenAt, if_neg (Nat.succ_ne_zero earlier), tokenBefore, hbefore, tokenAtIndex_scanIndex]
    · rw [tokenAt, if_neg (Nat.succ_ne_zero earlier), tokenBefore_succ]
      rfl

/-- Tokens for a text of one letter, with an empty one on either side of it. -/
def widthlessTokens : TokenList Kind :=
  #[⟨.ident, ⟨0, 0, zero_lt_bound, zero_lt_bound⟩, 1, 0⟩,
    ⟨.ident, ⟨0, 1, zero_lt_bound, one_lt_bound⟩, 1, 0⟩,
    ⟨.ident, ⟨1, 1, one_lt_bound, one_lt_bound⟩, 1, 1⟩,
    ⟨.eof, ⟨1, 1, one_lt_bound, one_lt_bound⟩, 1, 1⟩]

theorem tokenAt_beside_widthless :
    ∃ document, ofTokens ['a'] widthlessTokens .protobuf = .ok document ∧ document.Ordered ∧
      document.indexAfter 0 = 1 ∧ document.indexAfter 1 = 3 ∧ document.indexBefore 1 = 1 ∧
      document.tokenAt 1 .before = document.tokenAt 0 .after := by
  have hforward : Forward widthlessTokens := by
    intro token hmem
    simp only [widthlessTokens, List.mem_toArray, List.mem_cons, List.not_mem_nil, or_false] at hmem
    rcases hmem with rfl | rfl | rfl | rfl <;> decide
  have haccepted : ∃ document, ofTokens ['a'] widthlessTokens .protobuf = .ok document :=
    exists_ofTokens_of_endsText ⟨_, rfl, rfl, rfl, rfl⟩ ⟨rfl, rfl, rfl, rfl, trivial⟩
  obtain ⟨document, hdocument⟩ := haccepted
  obtain ⟨_, htokens, _⟩ := ofTokens_eq_ok_iff.mp hdocument
  have hordered : document.Ordered := by
    intro token hmem
    exact hforward token (htokens ▸ hmem)
  have hbody : document.body = widthlessTokens.pop := by
    rw [← htokens, tokens, Array.pop_push]
  obtain ⟨⟨_, hzero⟩, _⟩ := hordered.tokenAt_eq_scan 0
  obtain ⟨⟨_, hone⟩, hpast⟩ := hordered.tokenAt_eq_scan 1
  obtain ⟨⟨_, hbefore⟩, hsame, _⟩ := hpast Nat.one_pos
  refine ⟨document, hdocument, hordered, ?_, ?_, ?_, hsame⟩
  · rw [hzero, scanIndex, hbody]
    rfl
  · rw [hone, scanIndex, hbody]
    rfl
  · rw [hbefore, scanIndex, hbody]
    rfl

end Keystroke.Document
