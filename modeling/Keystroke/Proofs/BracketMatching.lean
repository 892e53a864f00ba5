import Mathlib
import Keystroke.Proofs.BracketStack
import Keystroke.Proofs.Text
import Keystroke.Proofs.TokenLookup

/-!
# Matching brackets in a document

For each shape of bracket a matcher goes over the bytes of all tokens that are neither strings nor
comments. What the editor shows for a caret is what the matcher has paired there, and looking from
the partner leads back (`matchingBracket_iff_answer`).
-/

namespace Keystroke

/-! ## Brackets and code of a document -/

inductive BracketShape where
  | round
  | square
  | curly
  | angle
deriving DecidableEq

namespace BracketShape

def all : List BracketShape := [round, square, curly, angle]

theorem mem_all (shape : BracketShape) : shape ∈ all := by
  cases shape <;> decide

def opener : BracketShape → Char
  | round => '('
  | square => '['
  | curly => '\x7b'
  | angle => '<'

def closer : BracketShape → Char
  | round => ')'
  | square => ']'
  | curly => '\x7d'
  | angle => '>'

theorem closer_ne_opener (shape other : BracketShape) : shape.closer ≠ other.opener := by
  cases shape <;> cases other <;> decide

theorem opener_isAscii (shape : BracketShape) : Text.IsAscii shape.opener := by
  cases shape <;> decide

theorem closer_isAscii (shape : BracketShape) : Text.IsAscii shape.closer := by
  cases shape <;> decide

theorem opener_inj {shape other : BracketShape} : shape.opener = other.opener ↔ shape = other := by
  cases shape <;> cases other <;> decide

theorem closer_inj {shape other : BracketShape} : shape.closer = other.closer ↔ shape = other := by
  cases shape <;> cases other <;> decide

theorem partner?_eq_some {bracket partner : Char} {side : Side}
    (h : partner? bracket = some (partner, side)) :
    ∃ shape : BracketShape, (bracket = shape.opener ∧ partner = shape.closer ∧ side = .after) ∨
      (bracket = shape.closer ∧ partner = shape.opener ∧ side = .before) := by
  unfold partner? at h
  split at h
  · cases h; exact ⟨round, .inl ⟨rfl, rfl, rfl⟩⟩
  · cases h; exact ⟨square, .inl ⟨rfl, rfl, rfl⟩⟩
  · cases h; exact ⟨curly, .inl ⟨rfl, rfl, rfl⟩⟩
  · cases h; exact ⟨angle, .inl ⟨rfl, rfl, rfl⟩⟩
  · cases h; exact ⟨round, .inr ⟨rfl, rfl, rfl⟩⟩
  · cases h; exact ⟨square, .inr ⟨rfl, rfl, rfl⟩⟩
  · cases h; exact ⟨curly, .inr ⟨rfl, rfl, rfl⟩⟩
  · cases h; exact ⟨angle, .inr ⟨rfl, rfl, rfl⟩⟩
  · cases h

theorem partner?_opener (shape : BracketShape) :
    partner? shape.opener = some (shape.closer, .after) := by
  cases shape <;> rfl

theorem partner?_closer (shape : BracketShape) :
    partner? shape.closer = some (shape.opener, .before) := by
  cases shape <;> rfl

end BracketShape

def Text.hasByte (text : Text) (c : Char) (offset : Nat) : Bool :=
  text.bytes[offset]? == some (asciiByte c)

theorem Text.hasByte_iff {text : Text} {c : Char} (hc : IsAscii c) (offset : Nat) :
    text.hasByte c offset = true ↔ text.cells.toArray[offset]? = some (some c) := by
  rw [hasByte, beq_iff_eq, getElem?_bytes_eq_iff hc, List.getElem?_toArray]

namespace Document

variable {κ : Type} {document : Document κ}

/-- The offsets of all bytes of the tokens that are neither strings nor comments. -/
def codeOf (classifier : Classifier κ) (tokens : List (Token κ)) : List Nat :=
  (tokens.filter fun token => !classifier.isLiteral token.kind).flatMap fun token =>
    List.range' token.span.start (token.span.stop - token.span.start)

def codeOffsets (document : Document κ) : List Nat :=
  codeOf document.classifier document.tokens.toList

def matcher (document : Document κ) (shape : BracketShape) : Matcher :=
  Matcher.run (document.text.hasByte shape.opener) (document.text.hasByte shape.closer) ⟨[], []⟩
    document.codeOffsets

def Paired (document : Document κ) (a b : Nat) : Prop :=
  ∃ shape, (a, b) ∈ (document.matcher shape).pairs ∨ (b, a) ∈ (document.matcher shape).pairs

instance (document : Document κ) (a b : Nat) : Decidable (document.Paired a b) :=
  decidable_of_iff (∃ shape ∈ BracketShape.all,
      (a, b) ∈ (document.matcher shape).pairs ∨ (b, a) ∈ (document.matcher shape).pairs)
    ⟨fun ⟨shape, _, h⟩ => ⟨shape, h⟩, fun ⟨shape, h⟩ => ⟨shape, shape.mem_all, h⟩⟩

theorem Paired.symm {a b : Nat} (h : document.Paired a b) : document.Paired b a := by
  obtain ⟨shape, h⟩ := h
  exact ⟨shape, h.symm⟩

/-! ### The offsets of the code -/

theorem mem_codeOf_iff {classifier : Classifier κ} {tokens : List (Token κ)} {offset : Nat} :
    offset ∈ codeOf classifier tokens ↔ ∃ token ∈ tokens,
      classifier.isLiteral token.kind = false ∧
        token.span.start ≤ offset ∧ offset < token.span.stop := by
  simp only [codeOf, List.mem_flatMap, List.mem_filter, Bool.not_eq_true', List.mem_range'_1,
    and_assoc]
  refine exists_congr fun token => and_congr_right fun _ => and_congr_right fun _ => ?_
  omega

theorem codeOf_append (classifier : Classifier κ) (tokens rest : List (Token κ)) :
    codeOf classifier (tokens ++ rest) = codeOf classifier tokens ++ codeOf classifier rest := by
  rw [codeOf, List.filter_append, List.flatMap_append]
  rfl

theorem codeOf_cons {classifier : Classifier κ} {token : Token κ} (rest : List (Token κ))
    (h : classifier.isLiteral token.kind = false) :
    codeOf classifier (token :: rest) =
      List.range' token.span.start (token.span.stop - token.span.start) ++
        codeOf classifier rest := by
  rw [codeOf, List.filter_cons_of_pos (by rw [h]; rfl), List.flatMap_cons]
  rfl

theorem Ordered.nodup_codeOffsets (hordered : document.Ordered) : document.codeOffsets.Nodup := by
  have hpairwise := hordered.pairwise.filter fun token =>
    !document.classifier.isLiteral token.kind
  refine List.pairwise_flatMap.mpr ⟨fun token _ => List.nodup_range', ?_⟩
  refine hpairwise.imp fun hstops x hx y hy => ?_
  rw [List.mem_range'_1] at hx hy
  omega

theorem Ordered.lt_size_of_mem (hordered : document.Ordered) {offset : Nat}
    (hmem : offset ∈ document.codeOffsets) : offset < document.size := by
  obtain ⟨token, htoken, _, _, hstop⟩ := mem_codeOf_iff.mp hmem
  have hsize := hordered.stop_le_size (Array.mem_toList_iff.mp htoken)
  omega

theorem Ordered.not_isLiteral_of_mem (hordered : document.Ordered) {offset : Nat}
    (hmem : offset ∈ document.codeOffsets) :
    document.classifier.isLiteral (document.tokenAtIndex (document.indexAfter offset)).kind =
      false := by
  obtain ⟨token, htoken, hliteral, hstart, hstop⟩ := mem_codeOf_iff.mp hmem
  rw [toList_tokens] at htoken
  rcases List.mem_append.mp htoken with htoken | htoken
  · obtain ⟨front, back, hbody⟩ := List.append_of_mem htoken
    rw [hordered.indexAfter_eq hbody hstart hstop, tokenAtIndex_length hbody]
    exact hliteral
  · -- The sentinel is empty.
    rw [List.mem_singleton.mp htoken, document.sentinel_start] at hstart
    rw [List.mem_singleton.mp htoken, document.sentinel_stop] at hstop
    omega

theorem offsets_eq {size start stop : Nat} (h : stop ≤ size) :
    offsets size start stop = List.range' start (stop - start) := by
  rw [offsets, Nat.min_eq_left (by omega)]

theorem flatMap_offsets_after {tokens : List (Token κ)} {size position : Nat}
    {isCode : Token κ → Bool} (hstop : ∀ token ∈ tokens, token.span.stop ≤ size)
    (hstart : ∀ token ∈ tokens, position ≤ token.span.start) :
    ((tokens.filter isCode).flatMap fun token =>
        offsets size (max token.span.start position) token.span.stop) =
      (tokens.filter isCode).flatMap fun token =>
        List.range' token.span.start (token.span.stop - token.span.start) := by
  refine List.flatMap_congr fun token htoken => ?_
  have hmem := List.mem_of_mem_filter htoken
  rw [offsets_eq (hstop token hmem), Nat.max_eq_left (hstart token hmem)]

theorem flatMap_offsets_before {tokens : List (Token κ)} {size position : Nat}
    {isCode : Token κ → Bool} (hsize : ∀ token ∈ tokens, token.span.stop ≤ size)
    (hstop : ∀ token ∈ tokens, token.span.stop ≤ position + 1) :
    ((tokens.reverse.filter isCode).flatMap fun token =>
        (offsets size token.span.start (min token.span.stop (position + 1))).reverse) =
      ((tokens.filter isCode).flatMap fun token =>
        List.range' token.span.start (token.span.stop - token.span.start)).reverse := by
  rw [List.filter_reverse, List.reverse_flatMap]
  refine List.flatMap_congr fun token htoken => ?_
  have hmem := List.mem_of_mem_filter (List.mem_reverse.mp htoken)
  rw [Function.comp_apply, Nat.min_eq_left (hstop token hmem), offsets_eq (hsize token hmem)]

theorem range'_split {start position stop : Nat} (hstart : start ≤ position)
    (hstop : position < stop) :
    List.range' start (stop - start) =
      List.range' start (position - start) ++ List.range' position (stop - position) := by
  have hparts := @List.range'_append_1 start (position - start) (stop - position)
  rw [Nat.add_sub_cancel' hstart] at hparts
  rw [hparts, show position - start + (stop - position) = stop - start by omega]

theorem range'_eq_cons {position stop : Nat} (hstop : position < stop) :
    List.range' position (stop - position) =
      position :: List.range' (position + 1) (stop - (position + 1)) := by
  rw [show stop - position = stop - (position + 1) + 1 by omega, List.range'_succ]

/-- From a byte of the code a search visits the code after it, or the code before it backwards. -/
theorem Ordered.visits_split (hordered : document.Ordered) {front back : List (Token κ)}
    {token : Token κ} {position : Nat} (hbody : document.body.toList = front ++ token :: back)
    (hstart : token.span.start ≤ position) (hstop : position < token.span.stop)
    (hliteral : document.classifier.isLiteral token.kind = false) :
    ∃ before after, document.codeOffsets = before ++ position :: after ∧
      document.visits position front.length .after = position :: after ∧
      document.visits position front.length .before = position :: before.reverse := by
  have htokens : document.tokens.toList = front ++ token :: (back ++ [document.sentinel]) := by
    rw [toList_tokens, hbody, List.append_assoc, List.cons_append]
  have hsize : ∀ other ∈ front ++ token :: (back ++ [document.sentinel]),
      other.span.stop ≤ document.size := by
    intro other hmem
    rw [← htokens] at hmem
    exact hordered.stop_le_size (Array.mem_toList_iff.mp hmem)
  have htoken := hsize token (List.mem_append_right front List.mem_cons_self)
  obtain ⟨hfront, hback⟩ := hordered.pairwise_split hbody
  have hfilter : ∀ rest : List (Token κ),
      (token :: rest).filter (fun token => !document.classifier.isLiteral token.kind) =
        token :: rest.filter fun token => !document.classifier.isLiteral token.kind :=
    fun rest => List.filter_cons_of_pos (by rw [hliteral]; rfl)
  refine ⟨codeOf document.classifier front ++
      List.range' token.span.start (position - token.span.start),
    List.range' (position + 1) (token.span.stop - (position + 1)) ++
      codeOf document.classifier (back ++ [document.sentinel]), ?_, ?_, ?_⟩
  · rw [codeOffsets, htokens, codeOf_append, codeOf_cons _ hliteral, range'_split hstart hstop,
      range'_eq_cons hstop]
    simp only [List.append_assoc, List.cons_append]
  · -- Only the token that holds the position is cut there, all later ones are taken whole.
    rw [visits, htokens, List.drop_left, hfilter, List.flatMap_cons,
      Nat.max_eq_right hstart, offsets_eq htoken, range'_eq_cons hstop, List.cons_append,
      flatMap_offsets_after]
    · rfl
    · exact fun other hmem =>
        hsize other (List.mem_append_right front (List.mem_cons_of_mem token hmem))
    · intro other hmem
      have hle := hback other hmem
      omega
  · have htake : (front ++ token :: (back ++ [document.sentinel])).take (front.length + 1) =
        front ++ [token] := by
      rw [List.take_length_add_append]
      rfl
    rw [visits, htokens, htake, List.reverse_append, List.reverse_singleton,
      List.singleton_append, hfilter, List.flatMap_cons,
      Nat.min_eq_right (show position + 1 ≤ token.span.stop by omega), offsets_eq (by omega),
      flatMap_offsets_before, range'_split hstart (Nat.lt_succ_self position),
      range'_eq_cons (Nat.lt_succ_self position), Nat.sub_self, List.range'_zero,
      List.reverse_append, List.reverse_append]
    · rfl
    · exact fun other hmem => hsize other (List.mem_append_left _ hmem)
    · intro other hmem
      have hle := hfront other hmem
      omega

/-! ### Pairs -/

theorem opener_of_mem_pairs {shape : BracketShape} {a b : Nat}
    (h : (a, b) ∈ (document.matcher shape).pairs) :
    document.text.hasByte shape.opener a = true ∧ a ∈ document.codeOffsets := by
  by_contra hnot
  have hmem := (Matcher.mem_run_opened List.not_mem_nil fun ha hcode => hnot ⟨ha, hcode⟩).2 b |>.mp h
  exact List.not_mem_nil hmem

theorem closer_of_mem_pairs {shape : BracketShape} {a b : Nat}
    (h : (a, b) ∈ (document.matcher shape).pairs) :
    document.text.hasByte shape.closer b = true ∧ b ∈ document.codeOffsets := by
  by_contra hnot
  have hmem := (Matcher.mem_run_closed (fun _ hb hcode => hnot ⟨hb, hcode⟩) a).mp h
  exact List.not_mem_nil hmem

theorem Paired.mem_codeOffsets {a b : Nat} (h : document.Paired a b) :
    a ∈ document.codeOffsets := by
  obtain ⟨shape, h | h⟩ := h
  · exact (opener_of_mem_pairs h).2
  · exact (closer_of_mem_pairs h).2

theorem Paired.exists_partner? {a b : Nat} (h : document.Paired a b) :
    ∃ bracket partner side, document.text.cells.toArray[a]? = some (some bracket) ∧
      partner? bracket = some (partner, side) := by
  obtain ⟨shape, h | h⟩ := h
  · have hbyte := (opener_of_mem_pairs h).1
    rw [Text.hasByte_iff shape.opener_isAscii] at hbyte
    exact ⟨_, _, _, hbyte, shape.partner?_opener⟩
  · have hbyte := (closer_of_mem_pairs h).1
    rw [Text.hasByte_iff shape.closer_isAscii] at hbyte
    exact ⟨_, _, _, hbyte, shape.partner?_closer⟩

-- A bracket that opens is only ever the first of a pair, and only of its own shape.
theorem paired_opener_iff {shape : BracketShape} {a b : Nat}
    (hcell : document.text.cells.toArray[a]? = some (some shape.opener)) :
    document.Paired a b ↔ (a, b) ∈ (document.matcher shape).pairs := by
  refine ⟨fun ⟨other, h⟩ => ?_, fun h => ⟨shape, .inl h⟩⟩
  rcases h with h | h
  · have hbyte := (opener_of_mem_pairs h).1
    rw [Text.hasByte_iff other.opener_isAscii, hcell, Option.some.injEq, Option.some.injEq,
      BracketShape.opener_inj] at hbyte
    rw [hbyte]
    exact h
  · have hbyte := (closer_of_mem_pairs h).1
    rw [Text.hasByte_iff other.closer_isAscii, hcell, Option.some.injEq, Option.some.injEq] at hbyte
    exact absurd hbyte.symm (other.closer_ne_opener shape)

theorem paired_closer_iff {shape : BracketShape} {a b : Nat}
    (hcell : document.text.cells.toArray[a]? = some (some shape.closer)) :
    document.Paired a b ↔ (b, a) ∈ (document.matcher shape).pairs := by
  refine ⟨fun ⟨other, h⟩ => ?_, fun h => ⟨shape, .inr h⟩⟩
  rcases h with h | h
  · have hbyte := (opener_of_mem_pairs h).1
    rw [Text.hasByte_iff other.opener_isAscii, hcell, Option.some.injEq, Option.some.injEq] at hbyte
    exact absurd hbyte (shape.closer_ne_opener other)
  · have hbyte := (closer_of_mem_pairs h).1
    rw [Text.hasByte_iff other.closer_isAscii, hcell, Option.some.injEq, Option.some.injEq,
      BracketShape.closer_inj] at hbyte
    rw [hbyte]
    exact h

/-! ## The search and the matcher -/

theorem Ordered.balance?_visits (hordered : document.Ordered) {position : Nat}
    {bracket partner : Char} {side : Side}
    (hcell : document.text.cells.toArray[position]? = some (some bracket))
    (hpartner : partner? bracket = some (partner, side))
    (hliteral : document.classifier.isLiteral
      (document.tokenAtIndex (document.indexAfter position)).kind = false) :
    ∃ found?, balance? document.text.cells.toArray bracket partner 0
        (document.visits position (document.indexAfter position) side) = .ok found? ∧
      ∀ x, found? = some x ↔ document.Paired position x := by
  have hcells : document.text.cells.toArray.size = document.size := by
    rw [List.size_toArray, Text.length_cells]
    rfl
  have hposition : position < document.size := by
    rw [← hcells]
    exact (Array.getElem?_eq_some_iff.mp hcell).1
  obtain ⟨front, token, back, hbody, hstart, hstop⟩ := exists_holder hposition
  have hindex := hordered.indexAfter_eq hbody hstart hstop
  rw [hindex, tokenAtIndex_length hbody] at hliteral
  obtain ⟨before, after, hcode, hvisitsAfter, hvisitsBefore⟩ :=
    hordered.visits_split hbody hstart hstop hliteral
  have hnodup := hordered.nodup_codeOffsets
  have hrange : ∀ x ∈ document.codeOffsets, x < document.text.cells.toArray.size := by
    intro x hx
    rw [hcells]
    exact hordered.lt_size_of_mem hx
  rw [hcode] at hnodup hrange
  -- The matcher meets each offset once.
  have hbefore : position ∉ before := fun hmem =>
    (List.nodup_append.mp hnodup).2.2 position hmem position List.mem_cons_self rfl
  have hafter : position ∉ after := (List.nodup_cons.mp (List.nodup_append.mp hnodup).2.1).1
  obtain ⟨shape, ⟨rfl, rfl, rfl⟩ | ⟨rfl, rfl, rfl⟩⟩ := BracketShape.partner?_eq_some hpartner
  · have hopen := (Text.hasByte_iff shape.opener_isAscii position).mpr hcell
    rw [hindex, hvisitsAfter, balance?_bracket 0 _ hcell]
    simp only [paired_opener_iff hcell, matcher, hcode]
    exact balance?_of_opens (shape.closer_ne_opener shape) (Text.hasByte_iff shape.opener_isAscii)
      (Text.hasByte_iff shape.closer_isAscii) hopen hbefore hafter
      fun x hx => hrange x (List.mem_append_right _ (List.mem_cons_of_mem position hx))
  · have hclose := (Text.hasByte_iff shape.closer_isAscii position).mpr hcell
    have hopen : document.text.hasByte shape.opener position = false := by
      rw [Bool.eq_false_iff, Ne, Text.hasByte_iff shape.opener_isAscii, hcell, Option.some.injEq,
        Option.some.injEq]
      exact shape.closer_ne_opener shape
    have hsearch := balance?_backward (shape.closer_ne_opener shape)
      (Text.hasByte_iff shape.opener_isAscii) (Text.hasByte_iff shape.closer_isAscii) 0
      fun x hx => hrange x (List.mem_append_left _ hx)
    rw [hindex, hvisitsBefore, balance?_bracket 0 _ hcell]
    refine ⟨_, hsearch, fun x => ?_⟩
    rw [paired_closer_iff hcell, matcher, hcode,
      Matcher.mem_pairs_of_closes hopen hclose hbefore hafter]

/-- A pair of one-byte spans, the first at a position and the second at its partner. -/
structure Joins (document : Document κ) (position : Nat) (pair : BracketPair) : Prop where
  origin_start : pair.origin.start = position
  origin_stop : pair.origin.stop = position + 1
  partner_stop : pair.partner.stop = pair.partner.start + 1
  paired : document.Paired position pair.partner.start

theorem size_lt_bound (document : Document κ) : document.size < Word.bound := by
  have hstop := document.sentinel.span.stop_lt
  rw [document.sentinel_stop] at hstop
  exact hstop

section Result

variable {position : Nat} {bracket partner : Char} {side : Side}
  (hcell : document.text.cells.toArray[position]? = some (some bracket))
  (hpartner : partner? bracket = some (partner, side))
  (hliteral : document.classifier.isLiteral
    (document.tokenAtIndex (document.indexAfter position)).kind = false)

include hcell hpartner hliteral

theorem pairAt_eq_none
    (hfound : balance? document.text.cells.toArray bracket partner 0
      (document.visits position (document.indexAfter position) side) = .ok none) :
    document.pairAt position = .ok none := by
  simp only [pairAt, hcell, Option.join_some, hpartner, hliteral, Bool.false_eq_true, if_false]
  exact Fault.bind_eq_ok_iff.mpr ⟨none, hfound, rfl⟩

theorem pairAt_eq_some {found : Nat} {origin other : Span}
    (hfound : balance? document.text.cells.toArray bracket partner 0
      (document.visits position (document.indexAfter position) side) = .ok (some found))
    (horigin : Span.ofRange position (position + 1) = .ok origin)
    (hother : Span.ofRange found (found + 1) = .ok other) :
    document.pairAt position = .ok (some ⟨origin, other⟩) := by
  simp only [pairAt, hcell, Option.join_some, hpartner, hliteral, Bool.false_eq_true, if_false]
  apply Fault.bind_eq_ok_iff.mpr ⟨some found, hfound, ?_⟩
  apply Fault.bind_eq_ok_iff.mpr ⟨origin, horigin, ?_⟩
  exact Fault.bind_eq_ok_iff.mpr ⟨other, hother, rfl⟩

end Result

theorem exists_byteSpan {offset : Nat} (h : offset < document.size) :
    ∃ span : Span, span.start = offset ∧ span.stop = offset + 1 := by
  have hbound := document.size_lt_bound
  exact ⟨⟨offset, offset + 1, by omega, by omega⟩, rfl, rfl⟩

theorem Ordered.exists_joins (hordered : document.Ordered) {a b : Nat}
    (h : document.Paired a b) : ∃ pair, document.Joins a pair ∧ pair.partner.start = b := by
  obtain ⟨origin, hostart, hostop⟩ :=
    exists_byteSpan (hordered.lt_size_of_mem h.mem_codeOffsets)
  obtain ⟨other, hpstart, hpstop⟩ :=
    exists_byteSpan (hordered.lt_size_of_mem h.symm.mem_codeOffsets)
  exact ⟨⟨origin, other⟩, ⟨hostart, hostop, by rw [hpstart, hpstop], hpstart.symm ▸ h⟩, hpstart⟩

theorem Joins.eq_of_start_eq {position : Nat} {pair other : BracketPair}
    (h : document.Joins position pair) (h' : document.Joins position other)
    (hstart : pair.partner.start = other.partner.start) : pair = other := by
  have horigin : pair.origin = other.origin :=
    Span.ext (h.origin_start.trans h'.origin_start.symm) (h.origin_stop.trans h'.origin_stop.symm)
  have hpartner : pair.partner = other.partner := by
    refine Span.ext hstart ?_
    rw [h.partner_stop, h'.partner_stop, hstart]
  cases pair
  cases other
  rw [BracketPair.mk.injEq]
  exact ⟨horigin, hpartner⟩

theorem Joins.partner?_ne_none {position : Nat} {pair : BracketPair}
    (h : document.Joins position pair) :
    ∃ bracket partner side, document.text.cells.toArray[position]?.join = some bracket ∧
      partner? bracket = some (partner, side) := by
  obtain ⟨bracket, partner, side, hcell, hpartner⟩ := h.paired.exists_partner?
  exact ⟨bracket, partner, side, by rw [hcell]; rfl, hpartner⟩

/-- The search at one position finds what the matcher has there, and always ends well. -/
theorem Ordered.pairAt_spec (hordered : document.Ordered) (position : Nat) :
    ∃ result, document.pairAt position = .ok result ∧
      ∀ pair, result = some pair ↔ document.Joins position pair := by
  -- Without a bracket in the code there is no search, and the matcher has no pair either.
  cases hjoin : document.text.cells.toArray[position]?.join with
  | none =>
      refine ⟨none, by simp only [pairAt, hjoin], fun pair => iff_of_false nofun fun h => ?_⟩
      obtain ⟨bracket, partner, side, hcell, _⟩ := h.partner?_ne_none
      rw [hjoin] at hcell
      cases hcell
  | some bracket =>
      have hcell := Option.join_eq_some_iff.mp hjoin
      cases hpartner : partner? bracket with
      | none =>
          refine ⟨none, by simp only [pairAt, hjoin, hpartner], fun pair => ?_⟩
          refine iff_of_false nofun fun h => ?_
          obtain ⟨other, partner, side, hother, hsome⟩ := h.partner?_ne_none
          rw [hjoin, Option.some.injEq] at hother
          rw [← hother, hpartner] at hsome
          cases hsome
      | some found =>
          obtain ⟨partner, side⟩ := found
          by_cases hliteral : document.classifier.isLiteral
              (document.tokenAtIndex (document.indexAfter position)).kind = true
          · refine ⟨none, by simp only [pairAt, hjoin, hpartner, hliteral, if_true], fun pair => ?_⟩
            refine iff_of_false nofun fun h => ?_
            rw [hordered.not_isLiteral_of_mem h.paired.mem_codeOffsets] at hliteral
            cases hliteral
          · rw [Bool.not_eq_true] at hliteral
            obtain ⟨found?, hfound, hpaired⟩ := hordered.balance?_visits hcell hpartner hliteral
            cases found? with
            | none =>
                refine ⟨none, pairAt_eq_none hcell hpartner hliteral hfound, fun pair => ?_⟩
                refine iff_of_false nofun fun h => ?_
                cases (hpaired _).mpr h.paired
            | some x =>
                have hx := (hpaired x).mp rfl
                obtain ⟨pair, hpair, hstart⟩ := hordered.exists_joins hx
                have horigin := Span.ofRange_eq_ok_iff.mpr ⟨hpair.origin_start, hpair.origin_stop⟩
                have hother : Span.ofRange x (x + 1) = .ok pair.partner :=
                  Span.ofRange_eq_ok_iff.mpr ⟨hstart, by rw [hpair.partner_stop, hstart]⟩
                refine ⟨some pair, pairAt_eq_some hcell hpartner hliteral hfound horigin hother,
                  fun other => ?_⟩
                rw [Option.some.injEq]
                refine ⟨fun heq => heq ▸ hpair, fun h => hpair.eq_of_start_eq h ?_⟩
                rw [hstart]
                exact Option.some.inj ((hpaired _).mpr h.paired)

/-! ## The bracket at a caret -/

/-- What the matcher says about a caret: the pair of the bracket after it or, if that one has no
partner, of the bracket before it. -/
inductive Answer (document : Document κ) (caret : Nat) : Option BracketPair → Prop where
  | after {pair : BracketPair} (h : document.Joins caret pair) : Answer document caret (some pair)
  | before {position : Nat} {pair : BracketPair} (hcaret : caret = position + 1)
      (hunpaired : ∀ b, ¬ document.Paired caret b) (h : document.Joins position pair) :
      Answer document caret (some pair)
  | none (hunpaired : ∀ b, ¬ document.Paired caret b)
      (hbefore : ∀ position b, caret = position + 1 → ¬ document.Paired position b) :
      Answer document caret none

theorem Ordered.not_paired_of_pairAt (hordered : document.Ordered) {position : Nat}
    (h : document.pairAt position = .ok none) (b : Nat) : ¬ document.Paired position b := by
  intro hpaired
  obtain ⟨result, hresult, hjoins⟩ := hordered.pairAt_spec position
  obtain ⟨pair, hpair, _⟩ := hordered.exists_joins hpaired
  have hsome := (hjoins pair).mpr hpair
  rw [h, Except.ok.injEq] at hresult
  rw [← hresult] at hsome
  cases hsome

theorem Ordered.pairAt_eq_some_iff (hordered : document.Ordered) {position : Nat}
    {pair : BracketPair} :
    document.pairAt position = .ok (some pair) ↔ document.Joins position pair := by
  obtain ⟨result, hresult, hjoins⟩ := hordered.pairAt_spec position
  rw [hresult, Except.ok.injEq]
  exact hjoins pair

theorem matchingBracket_after {caret : Nat} {pair : BracketPair}
    (h : document.pairAt caret = .ok (some pair)) :
    document.matchingBracket caret = .ok (some pair) :=
  Fault.bind_eq_ok_iff.mpr ⟨some pair, h, rfl⟩

theorem matchingBracket_before {position : Nat}
    (h : document.pairAt (position + 1) = .ok none) :
    document.matchingBracket (position + 1) = document.pairAt position := by
  rw [matchingBracket, h]
  rfl

theorem matchingBracket_zero (h : document.pairAt 0 = .ok none) :
    document.matchingBracket 0 = .ok none := by
  rw [matchingBracket, h]
  rfl

theorem Ordered.exists_answer (hordered : document.Ordered) (caret : Nat) :
    ∃ result, document.matchingBracket caret = .ok result ∧ document.Answer caret result := by
  obtain ⟨result, hresult, hjoins⟩ := hordered.pairAt_spec caret
  cases result with
  | some pair => exact ⟨_, matchingBracket_after hresult, .after ((hjoins pair).mp rfl)⟩
  | none =>
      have hunpaired := hordered.not_paired_of_pairAt hresult
      cases caret with
      | zero => exact ⟨_, matchingBracket_zero hresult, .none hunpaired nofun⟩
      | succ position =>
          obtain ⟨result, hbefore, hjoins⟩ := hordered.pairAt_spec position
          refine ⟨result, (matchingBracket_before hresult).trans hbefore, ?_⟩
          cases result with
          | some pair => exact .before rfl hunpaired ((hjoins pair).mp rfl)
          | none =>
              refine .none hunpaired fun other b heq => ?_
              cases heq
              exact hordered.not_paired_of_pairAt hbefore b

/-- The matcher has one answer for each caret. -/
theorem Ordered.answer_unique (hordered : document.Ordered) {caret : Nat}
    {first second : Option BracketPair} (hfirst : document.Answer caret first)
    (hsecond : document.Answer caret second) : first = second := by
  have hjoins : ∀ {position : Nat} {pair other : BracketPair}, document.Joins position pair →
      document.Joins position other → pair = other := by
    intro position pair other hpair hother
    have hsome := hordered.pairAt_eq_some_iff.mpr hpair
    rw [hordered.pairAt_eq_some_iff.mpr hother, Except.ok.injEq, Option.some.injEq] at hsome
    exact hsome.symm
  cases hfirst with
  | after h =>
      cases hsecond with
      | after h' => rw [hjoins h h']
      | before _ hunpaired _ => exact absurd h.paired (hunpaired _)
      | none hunpaired _ => exact absurd h.paired (hunpaired _)
  | before hcaret hunpaired h =>
      cases hsecond with
      | after h' => exact absurd h'.paired (hunpaired _)
      | before hcaret' _ h' =>
          rw [hcaret, Nat.add_right_cancel_iff] at hcaret'
          rw [hjoins h (hcaret' ▸ h')]
      | none _ hbefore => exact absurd h.paired (hbefore _ _ hcaret)
  | none hunpaired hbefore =>
      cases hsecond with
      | after h' => exact absurd h'.paired (hunpaired _)
      | before hcaret _ h' => exact absurd h'.paired (hbefore _ _ hcaret)
      | none _ _ => rfl

theorem Joins.swap {position : Nat} {pair : BracketPair} (h : document.Joins position pair) :
    document.Joins pair.partner.start ⟨pair.partner, pair.origin⟩ := by
  refine ⟨rfl, h.partner_stop, ?_, ?_⟩
  · rw [h.origin_stop, h.origin_start]
  · rw [h.origin_start]
    exact h.paired.symm

theorem matchingBracket_iff_answer (document : Document κ) (hordered : document.Ordered)
    (caret : Nat) :
    (∃ result, document.matchingBracket caret = .ok result) ∧
      (∀ result, document.matchingBracket caret = .ok result ↔ document.Answer caret result) ∧
      ∀ origin partner, document.matchingBracket caret = .ok (some ⟨origin, partner⟩) →
        document.matchingBracket partner.start = .ok (some ⟨partner, origin⟩) := by
  obtain ⟨result, hresult, hanswer⟩ := hordered.exists_answer caret
  have hiff : ∀ other, document.matchingBracket caret = .ok other ↔
      document.Answer caret other := by
    intro other
    rw [hresult, Except.ok.injEq]
    exact ⟨fun heq => heq ▸ hanswer, hordered.answer_unique hanswer⟩
  refine ⟨⟨result, hresult⟩, hiff, fun origin partner hpair => ?_⟩
  -- Both brackets of a pair lie in the code, so the search from the partner does not fall back.
  have hjoins : ∃ position, document.Joins position ⟨origin, partner⟩ := by
    cases (hiff _).mp hpair with
    | after h => exact ⟨caret, h⟩
    | before _ _ h => exact ⟨_, h⟩
  obtain ⟨position, hjoins⟩ := hjoins
  exact matchingBracket_after (hordered.pairAt_eq_some_iff.mpr hjoins.swap)

-- The bracket inside the string has no part in the pair around it.
theorem matchingBracket_around_string :
    ∃ document : Document Kind, document.text = ['(', '"', 'é', ')', '"', ')'] ∧
      document.Ordered ∧
      document.matchingBracket 0 =
        .ok (some ⟨⟨0, 1, by decide, by decide⟩, ⟨6, 7, by decide, by decide⟩⟩) ∧
      document.matchingBracket 6 =
        .ok (some ⟨⟨6, 7, by decide, by decide⟩, ⟨0, 1, by decide, by decide⟩⟩) := by
  let document : Document Kind := {
    text := ['(', '"', 'é', ')', '"', ')']
    body := #[⟨.mark .lParen, ⟨0, 1, by decide, by decide⟩, 1, 0⟩,
      ⟨.strLit, ⟨1, 6, by decide, by decide⟩, 1, 1⟩,
      ⟨.mark .rParen, ⟨6, 7, by decide, by decide⟩, 1, 6⟩]
    sentinel := ⟨.eof, ⟨7, 7, by decide, by decide⟩, 1, 7⟩
    classifier := .protobuf
    sentinel_isEnd := rfl
    chained := ⟨rfl, rfl, rfl, rfl, trivial⟩
    sentinel_start := by decide
    sentinel_stop := by decide }
  have hordered : document.Ordered := by
    intro token hmem
    simp only [document, tokens, List.push_toArray, List.cons_append, List.nil_append,
      List.mem_toArray, List.mem_cons, List.not_mem_nil, or_false] at hmem
    rcases hmem with rfl | rfl | rfl | rfl <;> decide
  have hjoins : document.Joins 0
      ⟨⟨0, 1, by decide, by decide⟩, ⟨6, 7, by decide, by decide⟩⟩ :=
    ⟨rfl, rfl, rfl, by decide⟩
  obtain ⟨_, hiff, hback⟩ := matchingBracket_iff_answer document hordered 0
  have hpair := (hiff _).mpr (.after hjoins)
  exact ⟨document, rfl, hordered, hpair, hback _ _ hpair⟩

end Document

end Keystroke
