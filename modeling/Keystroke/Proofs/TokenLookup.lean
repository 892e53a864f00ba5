import Mathlib
import Keystroke.Document.Owner

/-!
# Looking up the token at an offset

In a document whose spans run forward the stops of the tokens grow, so that halving finds the token
that holds an offset (`Ordered.indexAfter_eq`). Every offset inside the text is held by one
(`exists_holder`).
-/

namespace Keystroke

/-! ## Halving -/

theorem bisect_bounds (holds : Nat → Bool) (base size : Nat) :
    base ≤ bisect holds base size ∧ bisect holds base size ≤ base + size := by
  fun_induction bisect holds base size with
  | case1 base => omega
  | case2 base => omega
  | case3 base => omega
  | case4 base size hzero hone ih =>
      by_cases hmid : holds (base + size / 2) = true
      · rw [dif_pos hmid] at ih
        rw [if_pos hmid]
        omega
      · rw [dif_neg hmid] at ih
        rw [if_neg hmid]
        omega

theorem lt_bisect_iff {holds : Nat → Bool} {base size i : Nat}
    (hdown : ∀ i j, i ≤ j → holds j = true → holds i = true)
    (hbase : base ≤ i) (hsize : i < base + size) :
    i < bisect holds base size ↔ holds i = true := by
  fun_induction bisect holds base size with
  | case1 base => omega
  | case2 base hholds =>
      have hi : i = base := by omega
      rw [hi]
      exact iff_of_true (Nat.lt_succ_self base) hholds
  | case3 base hholds =>
      have hi : i = base := by omega
      rw [hi]
      exact iff_of_false (Nat.lt_irrefl base) hholds
  | case4 base size hzero hone ih =>
      by_cases hmid : holds (base + size / 2) = true
      · rw [dif_pos hmid] at ih
        rw [if_pos hmid]
        by_cases hlow : i < base + size / 2
        · -- Up to the middle every place holds, and the search goes on above it.
          have hbounds := bisect_bounds holds (base + size / 2) (size - size / 2)
          exact iff_of_true (by omega) (hdown i _ (Nat.le_of_lt hlow) hmid)
        · exact ih (by omega) (by omega)
      · rw [dif_neg hmid] at ih
        rw [if_neg hmid]
        by_cases hlow : i < base + (size - size / 2)
        · exact ih hbase hlow
        · have hbounds := bisect_bounds holds base (size - size / 2)
          refine iff_of_false (by omega) fun hi => hmid ?_
          exact hdown _ i (by omega) hi

namespace Document

variable {κ : Type} {document : Document κ}

/-! ## Tokens in order -/

/-- No span of the document stops before it starts. -/
def Ordered (document : Document κ) : Prop :=
  ∀ token ∈ document.tokens, token.span.start ≤ token.span.stop

theorem toList_tokens (document : Document κ) :
    document.tokens.toList = document.body.toList ++ [document.sentinel] :=
  Array.toList_push

theorem le_start_of_chained {tokens : List (Token κ)} {offset : Nat}
    (hchained : Chained offset tokens)
    (hordered : ∀ token ∈ tokens, token.span.start ≤ token.span.stop) :
    ∀ token ∈ tokens, offset ≤ token.span.start := by
  induction tokens generalizing offset with
  | nil => exact fun token hmem => absurd hmem List.not_mem_nil
  | cons first rest ih =>
      have hfirst := hordered first List.mem_cons_self
      have hrest := ih hchained.2 fun token hmem => hordered token (List.mem_cons_of_mem first hmem)
      have hstart := hchained.1
      intro token hmem
      rcases List.mem_cons.mp hmem with rfl | hmem
      · omega
      · have hle := hrest token hmem
        omega

theorem pairwise_of_chained {tokens : List (Token κ)} {offset : Nat}
    (hchained : Chained offset tokens)
    (hordered : ∀ token ∈ tokens, token.span.start ≤ token.span.stop) :
    tokens.Pairwise fun token later => token.span.stop ≤ later.span.start := by
  induction tokens generalizing offset with
  | nil => exact .nil
  | cons first rest ih =>
      have hrest := fun token hmem => hordered token (List.mem_cons_of_mem first hmem)
      exact .cons (le_start_of_chained hchained.2 hrest) (ih hchained.2 hrest)

theorem Ordered.pairwise (h : document.Ordered) :
    document.tokens.toList.Pairwise fun token later => token.span.stop ≤ later.span.start :=
  pairwise_of_chained document.chained fun token hmem => h token (Array.mem_toList_iff.mp hmem)

theorem Ordered.stop_le_size (h : document.Ordered) {token : Token κ}
    (hmem : token ∈ document.tokens) : token.span.stop ≤ document.size := by
  have hpairwise := h.pairwise
  rw [toList_tokens, List.pairwise_append] at hpairwise
  have hsentinel := document.sentinel_stop
  rcases Array.mem_push.mp hmem with hmem | rfl
  · have hlast := hpairwise.2.2 token (Array.mem_toList_iff.mpr hmem) document.sentinel
      (List.mem_singleton_self _)
    rw [document.sentinel_start] at hlast
    exact hlast
  · exact Nat.le_of_eq hsentinel

/-! ## The holder of an offset -/

theorem exists_holder_of_chained {body : List (Token κ)} {sentinel : Token κ} {start offset : Nat}
    (hchained : Chained start (body ++ [sentinel])) (hstart : start ≤ offset)
    (hoffset : offset < sentinel.span.start) :
    ∃ front token back, body = front ++ token :: back ∧
      token.span.start ≤ offset ∧ offset < token.span.stop := by
  induction body generalizing start with
  | nil =>
      have hsentinel := hchained.1
      omega
  | cons first rest ih =>
      have hfirst := hchained.1
      by_cases hstop : offset < first.span.stop
      · exact ⟨[], first, rest, rfl, by omega, hstop⟩
      · obtain ⟨front, token, back, rfl, hholds⟩ := ih hchained.2 (by omega)
        exact ⟨first :: front, token, back, rfl, hholds⟩

theorem exists_holder {offset : Nat} (h : offset < document.size) :
    ∃ front token back, document.body.toList = front ++ token :: back ∧
      token.span.start ≤ offset ∧ offset < token.span.stop := by
  have hchained := document.chained
  rw [Array.toList_push] at hchained
  refine exists_holder_of_chained hchained (Nat.zero_le offset) ?_
  rw [document.sentinel_start]
  exact h

theorem getElem?_body_length {front back : List (Token κ)} {token : Token κ}
    (hbody : document.body.toList = front ++ token :: back) :
    document.body[front.length]? = some token := by
  rw [← Array.getElem?_toList, hbody, List.getElem?_append_right (Nat.le_refl _), Nat.sub_self]
  rfl

theorem tokenAtIndex_length {front back : List (Token κ)} {token : Token κ}
    (hbody : document.body.toList = front ++ token :: back) :
    document.tokenAtIndex front.length = token := by
  rw [tokenAtIndex, getElem?_body_length hbody, Option.getD_some]

theorem Ordered.pairwise_split (hordered : document.Ordered) {front back : List (Token κ)}
    {token : Token κ} (hbody : document.body.toList = front ++ token :: back) :
    (∀ earlier ∈ front, earlier.span.stop ≤ token.span.start) ∧
      ∀ later ∈ back ++ [document.sentinel], token.span.stop ≤ later.span.start := by
  have hpairwise := hordered.pairwise
  rw [toList_tokens, hbody, List.append_assoc, List.cons_append, List.pairwise_append,
    List.pairwise_cons] at hpairwise
  obtain ⟨_, ⟨hback, _⟩, hfront⟩ := hpairwise
  exact ⟨fun earlier hmem => hfront earlier hmem token List.mem_cons_self, hback⟩

theorem Ordered.exists_stop_le (hordered : document.Ordered) {i j : Nat} (hij : i ≤ j)
    {later : Token κ} (hlater : document.body[j]? = some later) :
    ∃ token, document.body[i]? = some token ∧ token.span.stop ≤ later.span.stop := by
  by_cases heq : i = j
  · exact ⟨later, heq ▸ hlater, Nat.le_refl _⟩
  · obtain ⟨hj, hget⟩ := Array.getElem?_eq_some_iff.mp hlater
    have hi : i < document.body.size := by omega
    have hpairwise := hordered.pairwise
    rw [toList_tokens, List.pairwise_append, List.pairwise_iff_getElem] at hpairwise
    have hle := hpairwise.1 i j (by simpa using hi) (by simpa using hj) (by omega)
    rw [Array.getElem_toList, Array.getElem_toList, hget] at hle
    have hforward := hordered later (Array.mem_push_of_mem _ (Array.mem_of_getElem? hlater))
    exact ⟨document.body[i], Array.getElem?_eq_getElem hi, by omega⟩

/-- Halving over the tokens finds the first one that stops after an offset. -/
theorem Ordered.bisect_eq (hordered : document.Ordered) {front back : List (Token κ)}
    {token : Token κ} {offset : Nat} (hbody : document.body.toList = front ++ token :: back)
    (hstart : token.span.start ≤ offset) (hstop : offset < token.span.stop) :
    bisect (fun index => document.body[index]?.any (·.span.stop ≤ offset)) 0 document.body.size =
      front.length := by
  have hlength : front.length < document.body.size := by
    rw [← Array.length_toList, hbody, List.length_append, List.length_cons]
    omega
  have hiff : ∀ i, i < document.body.size → (i < bisect (fun index =>
      document.body[index]?.any (·.span.stop ≤ offset)) 0 document.body.size ↔
        document.body[i]?.any (·.span.stop ≤ offset) = true) := by
    intro i hi
    refine lt_bisect_iff (fun i j hij hj => ?_) (Nat.zero_le i) (by omega)
    obtain ⟨later, hlater, hle⟩ := Option.any_eq_true _ _ |>.mp hj
    obtain ⟨token, htoken, hstops⟩ := hordered.exists_stop_le hij hlater
    rw [htoken, Option.any_some, decide_eq_true_eq]
    rw [decide_eq_true_eq] at hle
    omega
  have hbounds := bisect_bounds (fun index => document.body[index]?.any (·.span.stop ≤ offset)) 0
    document.body.size
  generalize bisect (fun index => document.body[index]?.any (·.span.stop ≤ offset)) 0
    document.body.size = found at hiff hbounds ⊢
  -- The token stops after the offset, so the search ends there at the latest.
  have hle : ¬ front.length < found := by
    rw [hiff front.length hlength, getElem?_body_length hbody, Option.any_some, decide_eq_true_eq]
    omega
  have hge : ¬ found < front.length := by
    intro hlt
    have hfound := (hiff found (by omega)).not.mp (Nat.lt_irrefl found)
    have hstops := (hordered.pairwise_split hbody).1 front[found] (List.getElem_mem hlt)
    rw [← Array.getElem?_toList, hbody, List.getElem?_append_left hlt,
      List.getElem?_eq_getElem hlt, Option.any_some, decide_eq_true_eq] at hfound
    omega
  omega

theorem Ordered.indexAfter_eq (hordered : document.Ordered) {front back : List (Token κ)}
    {token : Token κ} {offset : Nat} (hbody : document.body.toList = front ++ token :: back)
    (hstart : token.span.start ≤ offset) (hstop : offset < token.span.stop) :
    document.indexAfter offset = front.length := by
  have hholds : token.span.holdsAfter offset = true := Span.holdsAfter_iff.mpr ⟨hstart, hstop⟩
  rw [indexAfter]
  simp only [hordered.bisect_eq hbody hstart hstop, getElem?_body_length hbody, Option.any_some,
    hholds, if_true]

theorem indexAfter_of_not_holds {offset : Nat}
    (hnone : ∀ token ∈ document.body, ¬ token.span.holdsAfter offset = true) :
    document.indexAfter offset = document.body.size := by
  -- Whatever place the search ends at, the token there does not hold the offset.
  have hfound : ∀ index : Nat, document.body[index]?.any (·.span.holdsAfter offset) = false := by
    intro index
    cases htoken : document.body[index]? with
    | none => rfl
    | some token =>
        rw [Option.any_some, ← Bool.not_eq_true]
        exact hnone token (Array.mem_of_getElem? htoken)
  rw [indexAfter]
  simp only [hfound, Bool.false_eq_true, if_false]

/-! ## The tokens beside an offset -/

theorem indexBefore_succ (document : Document κ) (offset : Nat) :
    document.indexBefore (offset + 1) = document.indexAfter offset := by
  unfold indexBefore indexAfter
  simp only [Span.holdsBefore_succ, Nat.lt_succ_iff]

theorem tokenBefore_succ (document : Document κ) (offset : Nat) :
    document.tokenBefore (offset + 1) = document.tokenAfter offset := by
  rw [tokenBefore, indexBefore_succ, tokenAfter]

theorem Ordered.tokenAfter_eq (hordered : document.Ordered) {front back : List (Token κ)}
    {token : Token κ} {offset : Nat} (htokens : document.tokens.toList = front ++ token :: back)
    (hstart : token.span.start ≤ offset) (hstop : offset < token.span.stop) :
    document.tokenAfter offset = token := by
  rw [toList_tokens] at htokens
  rcases List.eq_nil_or_concat back with rfl | ⟨middle, last, rfl⟩
  · -- The sentinel is empty.
    obtain ⟨_, hsentinel⟩ := List.append_inj' htokens rfl
    cases hsentinel
    rw [document.sentinel_start] at hstart
    rw [document.sentinel_stop] at hstop
    omega
  · rw [List.concat_eq_append, ← List.cons_append, ← List.append_assoc] at htokens
    have hbody := (List.append_inj' htokens rfl).1
    rw [tokenAfter, hordered.indexAfter_eq hbody hstart hstop, tokenAtIndex_length hbody]

theorem Ordered.tokenAfter_of_mem (hordered : document.Ordered) {token : Token κ} {offset : Nat}
    (hmem : token ∈ document.tokens) (hstart : token.span.start ≤ offset)
    (hstop : offset < token.span.stop) : document.tokenAfter offset = token := by
  obtain ⟨front, back, htokens⟩ := List.append_of_mem (Array.mem_toList_iff.mpr hmem)
  exact hordered.tokenAfter_eq htokens hstart hstop

theorem Ordered.tokenAfter_of_size_le (hordered : document.Ordered) {offset : Nat}
    (h : document.size ≤ offset) : document.tokenAfter offset = document.sentinel := by
  have hnone : ∀ token ∈ document.body, ¬ token.span.holdsAfter offset = true := by
    intro token hmem hholds
    have hstop := hordered.stop_le_size (Array.mem_push_of_mem document.sentinel hmem)
    have hlt := (Span.holdsAfter_iff.mp hholds).2
    omega
  rw [tokenAfter, indexAfter_of_not_holds hnone, tokenAtIndex,
    Array.getElem?_eq_none (Nat.le_refl _), Option.getD_none]

end Document

end Keystroke
