import Mathlib
import Keystroke.Document.Brackets

/-!
# Counting depth and keeping a stack

A matcher goes over some offsets once and keeps the open brackets on a stack: a closing bracket takes
the innermost one, and means nothing when none is open. A search that counts how deep it is finds the
same partner, forward from a bracket that opens (`balance?_of_opens`) and backward from one that
closes (`balance?_backward`).
-/

namespace Keystroke

/-! ## The matcher -/

/-- The open brackets, innermost first, and the pairs found so far. -/
structure Matcher where
  stack : List Nat
  pairs : List (Nat × Nat)

namespace Matcher

section Steps

variable (opens closes : Nat → Bool)

def step (matcher : Matcher) (offset : Nat) : Matcher :=
  if opens offset then { matcher with stack := offset :: matcher.stack }
  else if closes offset then
    match matcher.stack with
    | [] => matcher
    | top :: rest => { stack := rest, pairs := (top, offset) :: matcher.pairs }
  else matcher

def run (matcher : Matcher) (offsets : List Nat) : Matcher :=
  offsets.foldl (step opens closes) matcher

end Steps

variable {opens closes : Nat → Bool}

theorem run_nil (matcher : Matcher) : run opens closes matcher [] = matcher := rfl

theorem run_cons (matcher : Matcher) (offset : Nat) (rest : List Nat) :
    run opens closes matcher (offset :: rest) =
      run opens closes (matcher.step opens closes offset) rest := rfl

theorem run_append (matcher : Matcher) (offsets rest : List Nat) :
    run opens closes matcher (offsets ++ rest) =
      run opens closes (run opens closes matcher offsets) rest := List.foldl_append

theorem step_opens (matcher : Matcher) {offset : Nat} (h : opens offset = true) :
    matcher.step opens closes offset = ⟨offset :: matcher.stack, matcher.pairs⟩ := by
  rw [step, if_pos h]

theorem step_closes_nil {offset : Nat} (pairs : List (Nat × Nat)) (hopens : opens offset = false)
    (hcloses : closes offset = true) :
    step opens closes ⟨[], pairs⟩ offset = ⟨[], pairs⟩ := by
  rw [step, hopens, if_neg Bool.false_ne_true, if_pos hcloses]

theorem step_closes_cons {offset top : Nat} (stack : List Nat) (pairs : List (Nat × Nat))
    (hopens : opens offset = false) (hcloses : closes offset = true) :
    step opens closes ⟨top :: stack, pairs⟩ offset = ⟨stack, (top, offset) :: pairs⟩ := by
  rw [step, hopens, if_neg Bool.false_ne_true, if_pos hcloses]

theorem step_other (matcher : Matcher) {offset : Nat} (hopens : opens offset = false)
    (hcloses : closes offset = false) : matcher.step opens closes offset = matcher := by
  rw [step, hopens, if_neg Bool.false_ne_true, hcloses, if_neg Bool.false_ne_true]

/-! ### Offsets that the matcher does not meet -/

theorem mem_step_opened {matcher : Matcher} {p offset : Nat} (hstack : p ∉ matcher.stack)
    (hne : opens p = true → offset ≠ p) :
    p ∉ (matcher.step opens closes offset).stack ∧
      ∀ x, (p, x) ∈ (matcher.step opens closes offset).pairs ↔ (p, x) ∈ matcher.pairs := by
  cases hopens : opens offset with
  | true =>
      have hp : p ≠ offset := fun heq => hne (heq ▸ hopens) heq.symm
      rw [step_opens matcher hopens]
      exact ⟨List.not_mem_cons_of_ne_of_not_mem hp hstack, fun x => Iff.rfl⟩
  | false =>
      cases hcloses : closes offset with
      | false =>
          rw [step_other matcher hopens hcloses]
          exact ⟨hstack, fun x => Iff.rfl⟩
      | true =>
          obtain ⟨stack, pairs⟩ := matcher
          cases stack with
          | nil =>
              rw [step_closes_nil pairs hopens hcloses]
              exact ⟨hstack, fun x => Iff.rfl⟩
          | cons top stack =>
              -- The new pair starts with an offset from the stack, which `p` is not.
              rw [step_closes_cons stack pairs hopens hcloses]
              have htop : p ≠ top := List.ne_of_not_mem_cons hstack
              refine ⟨List.not_mem_of_not_mem_cons hstack, fun x => ?_⟩
              rw [List.mem_cons, Prod.mk.injEq]
              exact or_iff_right fun h => htop h.1

/-- An offset is the first of a pair only if it is on the stack, or is met and opens. -/
theorem mem_run_opened {matcher : Matcher} {p : Nat} {offsets : List Nat}
    (hstack : p ∉ matcher.stack) (hnot : opens p = true → p ∉ offsets) :
    p ∉ (run opens closes matcher offsets).stack ∧
      ∀ x, (p, x) ∈ (run opens closes matcher offsets).pairs ↔ (p, x) ∈ matcher.pairs := by
  induction offsets generalizing matcher with
  | nil => exact ⟨hstack, fun x => Iff.rfl⟩
  | cons offset rest ih =>
      have hstep : p ∉ (matcher.step opens closes offset).stack ∧
          ∀ x, (p, x) ∈ (matcher.step opens closes offset).pairs ↔ (p, x) ∈ matcher.pairs :=
        mem_step_opened hstack fun hp heq => hnot hp (heq ▸ List.mem_cons_self)
      have hrest := ih hstep.1 fun hp hmem => hnot hp (List.mem_cons_of_mem offset hmem)
      exact ⟨hrest.1, fun x => (hrest.2 x).trans (hstep.2 x)⟩

theorem mem_step_closed {matcher : Matcher} {p offset : Nat}
    (hne : opens p = false → closes p = true → offset ≠ p) (x : Nat) :
    (x, p) ∈ (matcher.step opens closes offset).pairs ↔ (x, p) ∈ matcher.pairs := by
  cases hopens : opens offset with
  | true => rw [step_opens matcher hopens]
  | false =>
      cases hcloses : closes offset with
      | false => rw [step_other matcher hopens hcloses]
      | true =>
          obtain ⟨stack, pairs⟩ := matcher
          cases stack with
          | nil => rw [step_closes_nil pairs hopens hcloses]
          | cons top stack =>
              have hp : p ≠ offset := fun heq => hne (heq ▸ hopens) (heq ▸ hcloses) heq.symm
              rw [step_closes_cons stack pairs hopens hcloses, List.mem_cons, Prod.mk.injEq]
              exact or_iff_right fun h => hp h.2

/-- An offset is the second of a pair only if it is met and closes. -/
theorem mem_run_closed {matcher : Matcher} {p : Nat} {offsets : List Nat}
    (hnot : opens p = false → closes p = true → p ∉ offsets) (x : Nat) :
    (x, p) ∈ (run opens closes matcher offsets).pairs ↔ (x, p) ∈ matcher.pairs := by
  induction offsets generalizing matcher with
  | nil => exact Iff.rfl
  | cons offset rest ih =>
      have hstep : (x, p) ∈ (matcher.step opens closes offset).pairs ↔ (x, p) ∈ matcher.pairs :=
        mem_step_closed (fun ho hc heq => hnot ho hc (heq ▸ List.mem_cons_self)) x
      exact (ih fun ho hc hmem => hnot ho hc (List.mem_cons_of_mem offset hmem)).trans hstep

theorem mem_pairs_of_closes {p : Nat} {before after : List Nat} (hopens : opens p = false)
    (hcloses : closes p = true) (hbefore : p ∉ before) (hafter : p ∉ after) (x : Nat) :
    (x, p) ∈ (run opens closes ⟨[], []⟩ (before ++ p :: after)).pairs ↔
      (run opens closes ⟨[], []⟩ before).stack[0]? = some x := by
  have hnone : ∀ x, (x, p) ∉ (run opens closes ⟨[], []⟩ before).pairs := by
    intro x
    rw [mem_run_closed fun _ _ => hbefore]
    exact List.not_mem_nil
  rw [run_append, run_cons, mem_run_closed fun _ _ => hafter]
  generalize run opens closes ⟨[], []⟩ before = matcher at hnone ⊢
  obtain ⟨stack, pairs⟩ := matcher
  cases stack with
  | nil =>
      rw [step_closes_nil pairs hopens hcloses]
      exact iff_of_false (hnone x) nofun
  | cons top stack =>
      rw [step_closes_cons stack pairs hopens hcloses, List.mem_cons, Prod.mk.injEq,
        or_iff_left (hnone x), List.getElem?_cons_zero, Option.some.injEq]
      exact ⟨fun h => h.1.symm, fun h => ⟨h.symm, rfl⟩⟩

end Matcher

/-! ## The search -/

section Search

variable {cells : Array (Option Char)} {bracket partner : Char} {offset : Nat}

theorem balance?_bracket (depth : Nat) (rest : List Nat)
    (hcell : cells[offset]? = some (some bracket)) :
    balance? cells bracket partner depth (offset :: rest) =
      balance? cells bracket partner (depth + 1) rest := by
  rw [balance?, hcell]
  simp only [if_true]
  rfl

theorem balance?_partner (depth : Nat) (rest : List Nat) (hne : partner ≠ bracket)
    (hcell : cells[offset]? = some (some partner)) :
    balance? cells bracket partner (depth + 1) (offset :: rest) =
      if depth = 0 then .ok (some offset) else balance? cells bracket partner depth rest := by
  have hcell' : some partner ≠ some bracket := fun h => hne (Option.some.inj h)
  rw [balance?, hcell]
  simp only [if_neg hcell', if_true]
  rfl

theorem balance?_other (depth : Nat) (rest : List Nat) {cell : Option Char}
    (hcell : cells[offset]? = some cell) (hbracket : cell ≠ some bracket)
    (hpartner : cell ≠ some partner) :
    balance? cells bracket partner (depth + 1) (offset :: rest) =
      balance? cells bracket partner (depth + 1) rest := by
  rw [balance?, hcell]
  simp only [if_neg hbracket, if_neg hpartner]
  rfl

end Search

section Scans

variable {cells : Array (Option Char)} {opener closer : Char} {opens closes : Nat → Bool}
  (hne : closer ≠ opener)
  (hopens : ∀ x, opens x = true ↔ cells[x]? = some (some opener))
  (hcloses : ∀ x, closes x = true ↔ cells[x]? = some (some closer))

include hne hopens hcloses

/-- Searching forward, `inner` being the brackets opened since the one at `p` and still open. -/
theorem balance?_forward {p : Nat} {offsets : List Nat} (inner outer : List Nat)
    (pairs : List (Nat × Nat)) (hrange : ∀ x ∈ offsets, x < cells.size) (hinner : p ∉ inner)
    (houter : p ∉ outer) (hoffsets : p ∉ offsets) (hpairs : ∀ x, (p, x) ∉ pairs) :
    ∃ found?, balance? cells opener closer (inner.length + 1) offsets = .ok found? ∧
      ∀ x, found? = some x ↔
        (p, x) ∈ (Matcher.run opens closes ⟨inner ++ p :: outer, pairs⟩ offsets).pairs := by
  induction offsets generalizing inner pairs with
  | nil => exact ⟨none, rfl, fun x => iff_of_false nofun (hpairs x)⟩
  | cons offset rest ih =>
      have hcell := Array.getElem?_eq_getElem (hrange offset List.mem_cons_self)
      have hp : p ≠ offset := List.ne_of_not_mem_cons hoffsets
      have hrest : p ∉ rest := List.not_mem_of_not_mem_cons hoffsets
      have hrange' := fun x hx => hrange x (List.mem_cons_of_mem offset hx)
      by_cases hopen : cells[offset]? = some (some opener)
      · rw [balance?_bracket _ rest hopen, Matcher.run_cons,
          Matcher.step_opens _ ((hopens offset).mpr hopen)]
        exact ih (offset :: inner) pairs hrange' (List.not_mem_cons_of_ne_of_not_mem hp hinner)
          hrest hpairs
      · have hopen' := Bool.eq_false_iff.mpr ((hopens offset).not.mpr hopen)
        by_cases hclose : cells[offset]? = some (some closer)
        · have hclose' := (hcloses offset).mpr hclose
          rw [balance?_partner _ rest hne hclose, Matcher.run_cons]
          cases inner with
          | nil =>
              -- The bracket at `p` is closed here, and nothing later pairs it again.
              rw [List.nil_append, Matcher.step_closes_cons _ _ hopen' hclose']
              refine ⟨some offset, rfl, fun x => ?_⟩
              rw [(Matcher.mem_run_opened houter fun _ => hrest).2 x, List.mem_cons,
                or_iff_left (hpairs x), Option.some.injEq, Prod.mk.injEq]
              exact ⟨fun h => ⟨rfl, h.symm⟩, fun h => h.2.symm⟩
          | cons top inner =>
              have htop : p ≠ top := List.ne_of_not_mem_cons hinner
              rw [List.cons_append, Matcher.step_closes_cons _ _ hopen' hclose', List.length_cons,
                if_neg (Nat.succ_ne_zero _)]
              refine ih inner _ hrange' (List.not_mem_of_not_mem_cons hinner) hrest fun x hx => ?_
              rcases List.mem_cons.mp hx with heq | hx
              · exact htop (Prod.mk.inj heq).1
              · exact hpairs x hx
        · have hclose' := Bool.eq_false_iff.mpr ((hcloses offset).not.mpr hclose)
          rw [hcell, Option.some.injEq] at hopen hclose
          rw [balance?_other _ rest hcell hopen hclose, Matcher.run_cons,
            Matcher.step_other _ hopen' hclose']
          exact ih inner pairs hrange' hinner hrest hpairs

theorem balance?_of_opens {p : Nat} {before after : List Nat} (hp : opens p = true)
    (hbefore : p ∉ before) (hafter : p ∉ after) (hrange : ∀ x ∈ after, x < cells.size) :
    ∃ found?, balance? cells opener closer 1 after = .ok found? ∧
      ∀ x, found? = some x ↔
        (p, x) ∈ (Matcher.run opens closes ⟨[], []⟩ (before ++ p :: after)).pairs := by
  have hmet : p ∉ (Matcher.run opens closes ⟨[], []⟩ before).stack ∧
      ∀ x, (p, x) ∈ (Matcher.run opens closes ⟨[], []⟩ before).pairs ↔ (p, x) ∈ [] :=
    Matcher.mem_run_opened List.not_mem_nil fun _ => hbefore
  rw [Matcher.run_append, Matcher.run_cons, Matcher.step_opens _ hp]
  exact balance?_forward hne hopens hcloses [] _ _ hrange List.not_mem_nil hmet.1 hafter
    fun x hx => List.not_mem_nil ((hmet.2 x).mp hx)

/-- Searching backward finds the brackets that are open, from the innermost outwards. -/
theorem balance?_backward {offsets : List Nat} (depth : Nat)
    (hrange : ∀ x ∈ offsets, x < cells.size) :
    balance? cells closer opener (depth + 1) offsets.reverse =
      .ok (Matcher.run opens closes ⟨[], []⟩ offsets).stack[depth]? := by
  -- The search meets first what the matcher meets last.
  induction offsets using List.reverseRecOn generalizing depth with
  | nil => rfl
  | append_singleton front offset ih =>
      have hmem : offset ∈ front ++ [offset] := List.mem_append_right front List.mem_cons_self
      have hcell := Array.getElem?_eq_getElem (hrange offset hmem)
      have hfront := fun depth =>
        ih depth fun x hx => hrange x (List.mem_append_left [offset] hx)
      rw [List.reverse_append, List.reverse_singleton, List.singleton_append, Matcher.run_append]
      generalize Matcher.run opens closes ⟨[], []⟩ front = matcher at hfront ⊢
      rw [Matcher.run_cons, Matcher.run_nil]
      by_cases hopen : cells[offset]? = some (some opener)
      · rw [balance?_partner _ _ hne.symm hopen,
          Matcher.step_opens matcher ((hopens offset).mpr hopen)]
        cases depth with
        | zero => rfl
        | succ depth =>
            rw [if_neg (Nat.succ_ne_zero depth), hfront depth]
            rfl
      · have hopen' := Bool.eq_false_iff.mpr ((hopens offset).not.mpr hopen)
        by_cases hclose : cells[offset]? = some (some closer)
        · have hclose' := (hcloses offset).mpr hclose
          rw [balance?_bracket _ _ hclose, hfront (depth + 1)]
          obtain ⟨stack, pairs⟩ := matcher
          cases stack with
          | nil => rw [Matcher.step_closes_nil pairs hopen' hclose']; rfl
          | cons top stack => rw [Matcher.step_closes_cons stack pairs hopen' hclose']; rfl
        · have hclose' := Bool.eq_false_iff.mpr ((hcloses offset).not.mpr hclose)
          rw [hcell, Option.some.injEq] at hopen hclose
          rw [balance?_other _ _ hcell hclose hopen, hfront depth,
            Matcher.step_other matcher hopen' hclose']

end Scans

end Keystroke
