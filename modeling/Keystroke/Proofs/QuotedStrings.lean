import Mathlib
import Keystroke.Proofs.Placement

/-!
# Where a string ends

`quotedExtent` walks over what follows an opening quote: a backslash takes the next item with it
unless a line break does. It says how far the string goes and whether it is closed. The longest
match of the rules for strings is what the walk over the characters finds (`first_quoted`). A walk
over the bytes of the text finds the same, although after a backslash it may land inside a character
(`stringBytes_bytes`).
-/

namespace Keystroke.Protobuf

/-! ## The walk -/

/-- How far a string goes after its opening quote, the closing quote included if there is one. -/
@[ext] structure QuotedExtent where
  length : Nat
  isClosed : Bool
deriving DecidableEq

namespace QuotedExtent

/-- The same end, some items farther away. -/
def shift (extent : QuotedExtent) (n : Nat) : QuotedExtent := ⟨extent.length + n, extent.isClosed⟩

@[simp] theorem shift_length (extent : QuotedExtent) (n : Nat) :
    (extent.shift n).length = extent.length + n := rfl

@[simp] theorem shift_isClosed (extent : QuotedExtent) (n : Nat) :
    (extent.shift n).isClosed = extent.isClosed := rfl

theorem shift_shift (extent : QuotedExtent) (m n : Nat) :
    (extent.shift m).shift n = extent.shift (m + n) := by
  ext
  · exact Nat.add_assoc extent.length m n
  · rfl

end QuotedExtent

def quotedExtent {α : Type} [DecidableEq α] (quote backslash : α) (isBreak : α → Bool) :
    List α → QuotedExtent
  | [] => ⟨0, false⟩
  | [c] =>
    if isBreak c then ⟨0, false⟩
    else if c = quote then ⟨1, true⟩
    else ⟨1, false⟩
  | c :: d :: rest =>
    if c = backslash ∧ isBreak d = false then (quotedExtent quote backslash isBreak rest).shift 2
    else if isBreak c then ⟨0, false⟩
    else if c = quote then ⟨1, true⟩
    else (quotedExtent quote backslash isBreak (d :: rest)).shift 1

section Walk

variable {α : Type} [DecidableEq α] {quote backslash : α} {isBreak : α → Bool}

theorem quotedExtent_escape {d : α} (rest : List α) (hd : isBreak d = false) :
    quotedExtent quote backslash isBreak (backslash :: d :: rest) =
      (quotedExtent quote backslash isBreak rest).shift 2 := by
  rw [quotedExtent, if_pos ⟨rfl, hd⟩]

theorem quotedExtent_break {c : α} (rest : List α) (hc : isBreak c = true) (hne : c ≠ backslash) :
    quotedExtent quote backslash isBreak (c :: rest) = ⟨0, false⟩ := by
  cases rest with
  | nil => rw [quotedExtent, if_pos hc]
  | cons d rest => rw [quotedExtent, if_neg (fun h => hne h.1), if_pos hc]

theorem quotedExtent_quote (rest : List α) (hc : isBreak quote = false) (hne : quote ≠ backslash) :
    quotedExtent quote backslash isBreak (quote :: rest) = ⟨1, true⟩ := by
  cases rest with
  | nil => rw [quotedExtent, hc, if_neg Bool.false_ne_true, if_pos rfl]
  | cons d rest =>
      rw [quotedExtent, if_neg (fun h => hne h.1), hc, if_neg Bool.false_ne_true, if_pos rfl]

theorem quotedExtent_other {c : α} (rest : List α) (hc : isBreak c = false) (hquote : c ≠ quote)
    (hescape : c = backslash → ∀ d ∈ rest.head?, isBreak d = true) :
    quotedExtent quote backslash isBreak (c :: rest) =
      (quotedExtent quote backslash isBreak rest).shift 1 := by
  cases rest with
  | nil =>
      have hlast : quotedExtent quote backslash isBreak [c] = ⟨1, false⟩ := by
        rw [quotedExtent, hc, if_neg Bool.false_ne_true, if_neg hquote]
      exact hlast
  | cons d rest =>
      have hplain : ¬ (c = backslash ∧ isBreak d = false) := by
        intro h
        have hd := hescape h.1 d rfl
        rw [h.2] at hd
        cases hd
      rw [quotedExtent, if_neg hplain, hc, if_neg Bool.false_ne_true, if_neg hquote]

-- Items that mean nothing to the walk are passed one by one.
theorem quotedExtent_append {plain : List α} (rest : List α)
    (h : ∀ c ∈ plain, isBreak c = false ∧ c ≠ quote ∧ c ≠ backslash) :
    quotedExtent quote backslash isBreak (plain ++ rest) =
      (quotedExtent quote backslash isBreak rest).shift plain.length := by
  induction plain with
  | nil => rfl
  | cons c plain ih =>
      obtain ⟨hbreak, hquote, hescape⟩ := h c List.mem_cons_self
      have hrest := ih fun d hd => h d (List.mem_cons_of_mem c hd)
      rw [List.cons_append, quotedExtent_other _ hbreak hquote (fun heq => absurd heq hescape),
        hrest, QuotedExtent.shift_shift, List.length_cons]

end Walk

/-! ## The walk over characters -/

def isBreak (c : Char) : Bool := c == '\n' || c == '\r'

def IsQuote (c : Char) : Prop := c = '"' ∨ c = '\''

def stringExtent (quote : Char) (text : Text) : QuotedExtent :=
  quotedExtent quote '\\' isBreak text

theorem IsQuote.ne_backslash {c : Char} (h : IsQuote c) : c ≠ '\\' := by
  rcases h with rfl | rfl <;> decide

theorem IsQuote.not_isBreak {c : Char} (h : IsQuote c) : isBreak c = false := by
  rcases h with rfl | rfl <;> decide

theorem isBreak_iff {c : Char} : isBreak c ↔ c ∈ ['\n', '\r'] := by
  simp [isBreak]

theorem isBreak_ne_backslash {c : Char} (h : isBreak c = true) : c ≠ '\\' := by
  intro heq
  rw [heq] at h
  cases h

theorem matches_item_cons_iff {quote c : Char} {s : Text} :
    (Pattern.alt (.seq (.char '\\') (.noneOf ['\n', '\r']))
        (.noneOf [quote, '\\', '\n', '\r'])).Matches (c :: s) ↔
      (c = '\\' ∧ ∃ d, isBreak d = false ∧ s = [d]) ∨
        (c ∉ [quote, '\\', '\n', '\r'] ∧ s = []) := by
  have hescape : (Pattern.seq (.char '\\') (.noneOf ['\n', '\r'])).Matches (c :: s) ↔
      c = '\\' ∧ ∃ d, isBreak d = false ∧ s = [d] := by
    rw [← Pattern.derivative_iff]
    by_cases hc : c = '\\'
    · subst hc
      show (Pattern.one _).Matches s ↔ _
      rw [Pattern.matches_one_iff]
      simp [isBreak]
    · have hnever : (Pattern.seq (.char '\\') (.noneOf ['\n', '\r'])).derivative c = .never := by
        simp [Pattern.derivative, Pattern.char, Pattern.nullable, hc, Pattern.andThen]
      rw [hnever]
      exact iff_of_false Pattern.not_matches_never fun h => hc h.1
  have hplain : (Pattern.noneOf [quote, '\\', '\n', '\r']).Matches (c :: s) ↔
      c ∉ [quote, '\\', '\n', '\r'] ∧ s = [] := by
    rw [Pattern.noneOf, Pattern.matches_one_iff]
    simp
  rw [Pattern.matches_alt_iff, hescape, hplain]

theorem matches_items_cons_iff {quote c : Char} {s : Text} {p : Pattern} :
    (Pattern.seq (stringItems quote) p).Matches (c :: s) ↔
      (c ∉ [quote, '\\', '\n', '\r'] ∧ (Pattern.seq (stringItems quote) p).Matches s) ∨
        (c = '\\' ∧ ∃ d rest, s = d :: rest ∧ isBreak d = false ∧
          (Pattern.seq (stringItems quote) p).Matches rest) ∨
        p.Matches (c :: s) := by
  rw [Pattern.matches_seq_iff]
  refine ⟨fun ⟨items, last, hs, hitems, hlast⟩ => ?_, fun h => ?_⟩
  · cases items with
    | nil => exact .inr (.inr (hs ▸ hlast))
    | cons e items =>
        rw [List.cons_append, List.cons.injEq] at hs
        obtain ⟨rfl, rfl⟩ := hs
        obtain ⟨item, more, rfl, hitem, hmore⟩ := Pattern.matches_star_cons_iff.mp hitems
        rcases matches_item_cons_iff.mp hitem with ⟨hc, d, hd, rfl⟩ | ⟨hc, rfl⟩
        · exact .inr (.inl ⟨hc, d, more ++ last, rfl, hd, .seq hmore hlast⟩)
        · exact .inl ⟨hc, .seq hmore hlast⟩
  · rcases h with ⟨hc, h⟩ | ⟨hc, d, rest, rfl, hd, h⟩ | h
    · obtain ⟨items, last, rfl, hitems, hlast⟩ := Pattern.matches_seq_iff.mp h
      have hitem := matches_item_cons_iff.mpr (.inr ⟨hc, rfl⟩)
      exact ⟨c :: items, last, rfl, .more hitem hitems, hlast⟩
    · obtain ⟨items, last, rfl, hitems, hlast⟩ := Pattern.matches_seq_iff.mp h
      have hitem := (@matches_item_cons_iff quote c [d]).mpr (.inl ⟨hc, d, hd, rfl⟩)
      exact ⟨c :: d :: items, last, rfl, .more hitem hitems, hlast⟩
    · exact ⟨[], c :: s, rfl, .done, h⟩

/-- What may follow an opening quote in a string that is closed. -/
def QuotedClosed (quote : Char) (s : Text) : Prop :=
  (Pattern.seq (stringItems quote) (.char quote)).Matches s

def QuotedOpen (quote : Char) (s : Text) : Prop :=
  (Pattern.seq (stringItems quote) (.optional (.char '\\'))).Matches s

theorem not_quotedClosed_nil (quote : Char) : ¬ QuotedClosed quote [] := by
  intro h
  have hnull := Pattern.nullable_iff.mpr h
  cases hnull

theorem quotedOpen_nil (quote : Char) : QuotedOpen quote [] := .seq .done (.right .empty)

theorem quotedClosed_cons_iff {quote c : Char} {s : Text} :
    QuotedClosed quote (c :: s) ↔
      (c ∉ [quote, '\\', '\n', '\r'] ∧ QuotedClosed quote s) ∨
        (c = '\\' ∧ ∃ d rest, s = d :: rest ∧ isBreak d = false ∧ QuotedClosed quote rest) ∨
        (c = quote ∧ s = []) := by
  have hclose : (Pattern.char quote).Matches (c :: s) ↔ c = quote ∧ s = [] := by
    rw [Pattern.char, Pattern.matches_one_iff]
    simp
  rw [QuotedClosed, matches_items_cons_iff, hclose]
  exact Iff.rfl

theorem quotedOpen_cons_iff {quote c : Char} {s : Text} :
    QuotedOpen quote (c :: s) ↔
      (c ∉ [quote, '\\', '\n', '\r'] ∧ QuotedOpen quote s) ∨
        (c = '\\' ∧ ∃ d rest, s = d :: rest ∧ isBreak d = false ∧ QuotedOpen quote rest) ∨
        (c = '\\' ∧ s = []) := by
  have hlone : (Pattern.optional (.char '\\')).Matches (c :: s) ↔ c = '\\' ∧ s = [] := by
    rw [Pattern.optional, Pattern.matches_alt_iff, Pattern.matches_empty_iff, Pattern.char,
      Pattern.matches_one_iff]
    simp
  rw [QuotedOpen, matches_items_cons_iff, hlone]
  exact Iff.rfl

def Quoted (quote : Char) (s : Text) : Prop := QuotedClosed quote s ∨ QuotedOpen quote s

theorem quoted_nil (quote : Char) : Quoted quote [] := .inr (quotedOpen_nil quote)

theorem quoted_cons_iff {quote c : Char} {s : Text} :
    Quoted quote (c :: s) ↔
      (c ∉ [quote, '\\', '\n', '\r'] ∧ Quoted quote s) ∨
        (c = '\\' ∧ ∃ d rest, s = d :: rest ∧ isBreak d = false ∧ Quoted quote rest) ∨
        (c = quote ∧ s = []) ∨ (c = '\\' ∧ s = []) := by
  unfold Quoted
  rw [quotedClosed_cons_iff, quotedOpen_cons_iff]
  grind

/-- The start of a text up to the extent can follow an opening quote, closed or not as the extent
says, and no longer one can. -/
structure IsStringExtent (quote : Char) (text : Text) (extent : QuotedExtent) : Prop where
  le : extent.length ≤ text.length
  quoted : Quoted quote (text.take extent.length)
  closed_iff : extent.isClosed = true ↔ QuotedClosed quote (text.take extent.length)
  maximal : ∀ m, extent.length < m → m ≤ text.length → ¬ Quoted quote (text.take m)

namespace IsStringExtent

variable {quote : Char} {rest : Text} {extent : QuotedExtent}

theorem nil (quote : Char) : IsStringExtent quote [] ⟨0, false⟩ where
  le := Nat.le_refl 0
  quoted := quoted_nil quote
  closed_iff := iff_of_false Bool.false_ne_true (not_quotedClosed_nil quote)
  maximal _ hlt hle := absurd hle (Nat.not_le_of_lt hlt)

theorem plain {c : Char} (hc : c ∉ [quote, '\\', '\n', '\r'])
    (h : IsStringExtent quote rest extent) :
    IsStringExtent quote (c :: rest) (extent.shift 1) := by
  have hnot := hc
  simp only [List.mem_cons, not_or] at hnot
  have hstep : ∀ s, Quoted quote (c :: s) ↔ Quoted quote s := by
    intro s
    rw [quoted_cons_iff]
    simp [hnot]
  have hclosed : ∀ s, QuotedClosed quote (c :: s) ↔ QuotedClosed quote s := by
    intro s
    rw [quotedClosed_cons_iff]
    simp [hnot]
  refine ⟨Nat.succ_le_succ h.le, (hstep _).mpr h.quoted, h.closed_iff.trans (hclosed _).symm,
    fun m hlt hle hm => ?_⟩
  cases m with
  | zero => exact absurd hlt (Nat.not_lt_zero _)
  | succ m =>
      exact h.maximal m (Nat.lt_of_succ_lt_succ hlt) (Nat.le_of_succ_le_succ hle)
        ((hstep _).mp hm)

theorem escape {d : Char} (hquote : quote ≠ '\\') (hd : isBreak d = false)
    (h : IsStringExtent quote rest extent) :
    IsStringExtent quote ('\\' :: d :: rest) (extent.shift 2) := by
  have hstep : ∀ s, Quoted quote ('\\' :: d :: s) ↔ Quoted quote s := by
    intro s
    rw [quoted_cons_iff]
    simp [hd, hquote.symm]
  have hclosed : ∀ s, QuotedClosed quote ('\\' :: d :: s) ↔ QuotedClosed quote s := by
    intro s
    rw [quotedClosed_cons_iff]
    simp [hd, hquote.symm]
  refine ⟨Nat.succ_le_succ (Nat.succ_le_succ h.le), (hstep _).mpr h.quoted,
    h.closed_iff.trans (hclosed _).symm, fun m hlt hle hm => ?_⟩
  rw [QuotedExtent.shift_length] at hlt
  obtain ⟨k, rfl⟩ : ∃ k, m = k + 2 := ⟨m - 2, by omega⟩
  simp only [List.length_cons] at hle
  exact h.maximal k (by omega) (by omega) ((hstep _).mp hm)

theorem lineBreak {c : Char} (hquote : IsQuote quote) (hc : isBreak c = true) :
    IsStringExtent quote (c :: rest) ⟨0, false⟩ := by
  refine ⟨Nat.zero_le _, quoted_nil quote,
    iff_of_false Bool.false_ne_true (not_quotedClosed_nil quote), fun m hlt hle hm => ?_⟩
  obtain ⟨k, rfl⟩ := Nat.exists_eq_succ_of_ne_zero (Nat.ne_of_gt hlt)
  rw [List.take_succ_cons, quoted_cons_iff] at hm
  have hbreak := isBreak_iff.mp hc
  have hescape := isBreak_ne_backslash hc
  rcases hm with ⟨hplain, _⟩ | ⟨heq, _⟩ | ⟨heq, _⟩ | ⟨heq, _⟩
  · exact hplain (List.mem_cons_of_mem _ (List.mem_cons_of_mem _ hbreak))
  · exact hescape heq
  · rw [heq, hquote.not_isBreak] at hc
    cases hc
  · exact hescape heq

theorem close (hquote : IsQuote quote) : IsStringExtent quote (quote :: rest) ⟨1, true⟩ := by
  have hclosed : QuotedClosed quote [quote] :=
    quotedClosed_cons_iff.mpr (.inr (.inr ⟨rfl, rfl⟩))
  refine ⟨by simp, .inl hclosed, iff_of_true rfl hclosed, fun m hlt hle hm => ?_⟩
  change 1 < m at hlt
  obtain ⟨k, rfl⟩ : ∃ k, m = k + 2 := ⟨m - 2, by omega⟩
  -- At least one more character follows the closing quote.
  cases rest with
  | nil => simp at hle
  | cons d rest =>
      rw [List.take_succ_cons, quoted_cons_iff] at hm
      simp [hquote.ne_backslash] at hm

theorem lone (hquote : IsQuote quote) (h : ∀ d ∈ rest.head?, isBreak d = true) :
    IsStringExtent quote ('\\' :: rest) ⟨1, false⟩ := by
  have hopen : ¬ QuotedClosed quote ['\\'] := by
    rw [quotedClosed_cons_iff]
    simp [hquote.ne_backslash.symm]
  refine ⟨by simp, quoted_cons_iff.mpr (.inr (.inr (.inr ⟨rfl, rfl⟩))),
    iff_of_false Bool.false_ne_true hopen, fun m hlt hle hm => ?_⟩
  change 1 < m at hlt
  obtain ⟨k, rfl⟩ : ∃ k, m = k + 2 := ⟨m - 2, by omega⟩
  cases rest with
  | nil => simp at hle
  | cons d rest =>
      have hd := h d rfl
      rw [List.take_succ_cons, quoted_cons_iff] at hm
      simp [hquote.ne_backslash.symm, hd] at hm

end IsStringExtent

theorem isStringExtent_stringExtent {quote : Char} (hquote : IsQuote quote) (text : Text) :
    IsStringExtent quote text (stringExtent quote text) := by
  have hne := hquote.ne_backslash
  have hplain : ∀ c, isBreak c = false → c ≠ quote → c ≠ '\\' →
      c ∉ [quote, '\\', '\n', '\r'] := by
    intro c hbreak hquote hescape
    simp_all [isBreak]
  unfold stringExtent
  fun_induction quotedExtent quote '\\' isBreak text with
  | case1 => exact .nil quote
  | case2 c hbreak => exact .lineBreak hquote hbreak
  | case3 hbreak => exact .close hquote
  | case4 c hbreak hclose =>
      rw [Bool.not_eq_true] at hbreak
      by_cases hescape : c = '\\'
      · rw [hescape]
        exact .lone hquote nofun
      · exact .plain (hplain c hbreak hclose hescape) (.nil quote)
  | case5 c d rest hescape ih =>
      rw [hescape.1]
      exact .escape hne hescape.2 ih
  | case6 c d rest hescape hbreak => exact .lineBreak hquote hbreak
  | case7 d rest hescape hbreak => exact .close hquote
  | case8 c d rest hescape hbreak hclose ih =>
      rw [Bool.not_eq_true] at hbreak
      by_cases hc : c = '\\'
      · -- A backslash before a line break ends the string.
        have hd : isBreak d = true := by
          rw [← Bool.not_eq_false]
          exact fun hd => hescape ⟨hc, hd⟩
        rw [hc, quotedExtent_break rest hd (isBreak_ne_backslash hd)]
        refine .lone hquote fun e he => ?_
        cases he
        exact hd
      · exact .plain (hplain c hbreak hclose hc) ih

/-! ## The first lexeme -/

-- After an opening quote only the rules for strings go on, and the one for the version literal.
theorem advanceAll_quote {quote : Char} (hquote : IsQuote quote) :
    ∃ kind, Rule.advanceAll [quote] rules =
      [⟨kind, (Pattern.word [quote, 'p', 'r', 'o', 't', 'o', '3', quote]).derivative quote⟩,
        ⟨.strLit, (Pattern.alt (closedString '"') (closedString '\'')).derivative quote⟩,
        ⟨.unterminatedStrLit,
          (Pattern.alt (openString '"') (openString '\'')).derivative quote⟩] := by
  rcases hquote with rfl | rfl
  · exact ⟨.proto3Double, rfl⟩
  · exact ⟨.proto3Single, rfl⟩

theorem matches_char_seq_iff {c d : Char} {s : Text} {p : Pattern} :
    (Pattern.seq (.char c) p).Matches (d :: s) ↔ d = c ∧ p.Matches s := by
  rw [Pattern.matches_seq_iff]
  refine ⟨fun ⟨first, rest, hs, hfirst, hrest⟩ => ?_, fun ⟨hd, hs⟩ => ?_⟩
  · obtain ⟨e, he, rfl⟩ := Pattern.matches_one_iff.mp hfirst
    rw [List.singleton_append, List.cons.injEq] at hs
    exact ⟨hs.1.trans (beq_iff_eq.mp he), hs.2 ▸ hrest⟩
  · exact ⟨[d], s, rfl, .one (beq_iff_eq.mpr hd), hs⟩

-- The two version literals are closed strings like any other.
theorem quotedClosed_version {quote : Char} (hquote : IsQuote quote) :
    QuotedClosed quote ['p', 'r', 'o', 't', 'o', '3', quote] := by
  rcases hquote with rfl | rfl <;> simp [quotedClosed_cons_iff]

theorem matches_quotes_iff {quote : Char} (hquote : IsQuote quote) {s : Text}
    (inside : Char → Pattern) :
    (Pattern.alt (.seq (.char '"') (inside '"')) (.seq (.char '\'') (inside '\''))).Matches
        (quote :: s) ↔ (inside quote).Matches s := by
  rw [Pattern.matches_alt_iff, matches_char_seq_iff, matches_char_seq_iff]
  rcases hquote with rfl | rfl
  · simp [show ¬ '"' = '\'' by decide]
  · simp [show ¬ '\'' = '"' by decide]

theorem covers_quoted_iff {quote : Char} (hquote : IsQuote quote) {s : Text} :
    Rule.Covers rules (quote :: s) ↔ Quoted quote s := by
  obtain ⟨kind, hrules⟩ := advanceAll_quote hquote
  have hclosed := @matches_quotes_iff quote hquote s fun q => .seq (stringItems q) (.char q)
  have hopen := @matches_quotes_iff quote hquote s fun q =>
    .seq (stringItems q) (.optional (.char '\\'))
  rw [show quote :: s = [quote] ++ s from rfl, Rule.covers_iff_picks]
  simp only [← Rule.picks_advanceAll_iff]
  rw [← Rule.covers_iff_picks, hrules, Quoted, QuotedClosed, QuotedOpen]
  simp only [Rule.Covers, List.mem_cons, List.not_mem_nil, or_false, exists_eq_or_imp,
    exists_eq_left, Pattern.derivative_iff, Pattern.word_iff, closedString, openString, hclosed,
    hopen, List.cons.injEq, true_and]
  -- The version literal is a closed string too, so its rule adds nothing.
  refine or_iff_right_of_imp fun h => ?_
  rw [h]
  exact .inl (quotedClosed_version hquote)

/-- A string is as long as the walk over its characters says. -/
theorem first_quoted {quote : Char} (hquote : IsQuote quote) {rest : Text} {lexeme : Lexeme}
    (h : First (quote :: rest) lexeme) :
    lexeme.text = quote :: rest.take (stringExtent quote rest).length := by
  have hextent := isStringExtent_stringExtent hquote rest
  generalize stringExtent quote rest = extent at hextent
  obtain ⟨n, isClosed⟩ := extent
  dsimp only
  have hsplit : First (quote :: rest.take n ++ rest.drop n) lexeme := by
    rw [List.cons_append, List.take_append_drop]
    exact h
  refine (hsplit.eq_of_longest ((covers_quoted_iff hquote).mpr hextent.quoted) ?_).1
  -- A longer match would be a longer string.
  intro more others hmore hne hcovers
  have htake : rest.take n ++ more = rest.take (n + more.length) := by
    rw [List.take_add, hmore, List.take_left]
  have hbound : n + more.length ≤ rest.length := by
    have hdrop := congrArg List.length hmore
    rw [List.length_drop, List.length_append] at hdrop
    have hle : n ≤ rest.length := hextent.le
    omega
  have hpos := List.length_pos_iff.mpr hne
  rw [List.cons_append, covers_quoted_iff hquote, htake] at hcovers
  exact hextent.maximal (n + more.length) (Nat.lt_add_of_pos_right hpos) hbound hcovers

/-! ## The walk over bytes -/

def isBreakByte (b : UInt8) : Bool := b == Text.asciiByte '\n' || b == Text.asciiByte '\r'

def stringBytes (quote : Char) (bytes : List UInt8) : QuotedExtent :=
  quotedExtent (Text.asciiByte quote) (Text.asciiByte '\\') isBreakByte bytes

theorem isBreakByte_asciiByte {c : Char} (hc : Text.IsAscii c) :
    isBreakByte (Text.asciiByte c) = isBreak c := by
  have hnewline := Text.asciiByte_inj hc (show Text.IsAscii '\n' by decide)
  have hreturn := Text.asciiByte_inj hc (show Text.IsAscii '\r' by decide)
  rw [Bool.eq_iff_iff]
  simp only [isBreakByte, isBreak, Bool.or_eq_true, beq_iff_eq, hnewline, hreturn]

theorem ne_asciiByte_of_le {b : UInt8} (h : 128 ≤ b.toNat) {c : Char} (hc : Text.IsAscii c) :
    b ≠ Text.asciiByte c := by
  intro heq
  have hnat := Text.asciiByte_toNat hc
  unfold Text.IsAscii at hc
  rw [heq] at h
  omega

theorem isBreakByte_of_le {b : UInt8} (h : 128 ≤ b.toNat) : isBreakByte b = false := by
  have hnewline := ne_asciiByte_of_le h (show Text.IsAscii '\n' by decide)
  have hreturn := ne_asciiByte_of_le h (show Text.IsAscii '\r' by decide)
  rw [isBreakByte, Bool.or_eq_false_iff, beq_eq_false_iff_ne, beq_eq_false_iff_ne]
  exact ⟨hnewline, hreturn⟩

theorem IsQuote.isAscii {c : Char} (h : IsQuote c) : Text.IsAscii c := by
  rcases h with rfl | rfl <;> decide

theorem isAscii_of_isBreak {c : Char} (h : isBreak c = true) : Text.IsAscii c := by
  rcases Bool.or_eq_true_iff.mp h with h | h <;> rw [beq_iff_eq.mp h] <;> decide

theorem stringBytes_break (quote : Char) {c : Char} (rest : Text) (h : isBreak c = true) :
    stringBytes quote (Text.bytes (c :: rest)) = ⟨0, false⟩ := by
  have hc := isAscii_of_isBreak h
  have hne := (Text.asciiByte_inj hc (show Text.IsAscii '\\' by decide)).not.mpr
    (isBreak_ne_backslash h)
  rw [Text.bytes_cons_ascii hc, stringBytes,
    quotedExtent_break _ (by rw [isBreakByte_asciiByte hc, h]) hne]

section Bytes

variable {quote : Char} (hquote : IsQuote quote)

include hquote

theorem stringBytes_append_wide {bytes : List UInt8} (rest : List UInt8)
    (h : ∀ b ∈ bytes, 128 ≤ b.toNat) :
    stringBytes quote (bytes ++ rest) = (stringBytes quote rest).shift bytes.length := by
  refine quotedExtent_append rest fun b hb => ⟨isBreakByte_of_le (h b hb), ?_, ?_⟩
  · exact ne_asciiByte_of_le (h b hb) hquote.isAscii
  · exact ne_asciiByte_of_le (h b hb) (by decide)

theorem stringBytes_close (rest : Text) :
    stringBytes quote (Text.bytes (quote :: rest)) = ⟨1, true⟩ := by
  have hne := (Text.asciiByte_inj hquote.isAscii (show Text.IsAscii '\\' by decide)).not.mpr
    hquote.ne_backslash
  rw [Text.bytes_cons_ascii hquote.isAscii, stringBytes,
    quotedExtent_quote _ (by rw [isBreakByte_asciiByte hquote.isAscii, hquote.not_isBreak]) hne]

theorem stringBytes_plain {c : Char} (rest : Text) (hbreak : isBreak c = false)
    (hclose : c ≠ quote) (hescape : c ≠ '\\') :
    stringBytes quote (Text.bytes (c :: rest)) =
      (stringBytes quote rest.bytes).shift c.utf8Size := by
  by_cases hc : Text.IsAscii c
  · have hquote' := (Text.asciiByte_inj hc hquote.isAscii).not.mpr hclose
    have hescape' := (Text.asciiByte_inj hc (show Text.IsAscii '\\' by decide)).not.mpr hescape
    rw [Text.bytes_cons_ascii hc, Text.utf8Size_ascii hc]
    exact quotedExtent_other _ (by rw [isBreakByte_asciiByte hc, hbreak]) hquote'
      fun heq => absurd heq hescape'
  · rw [Text.bytes_cons, stringBytes_append_wide hquote, String.length_utf8EncodeChar]
    exact fun b hb => Text.le_of_mem_utf8EncodeChar hc hb

-- The walk jumps over the backslash and one byte more. If the escaped character is a long one, the
-- rest of its bytes mean nothing to the walk.
theorem stringBytes_escape {d : Char} (rest : Text) (hd : isBreak d = false) :
    stringBytes quote (Text.bytes ('\\' :: d :: rest)) =
      (stringBytes quote rest.bytes).shift (d.utf8Size + 1) := by
  rw [Text.bytes_cons_ascii (by decide)]
  by_cases hc : Text.IsAscii d
  · rw [Text.bytes_cons_ascii hc, Text.utf8Size_ascii hc]
    exact quotedExtent_escape _ (by rw [isBreakByte_asciiByte hc, hd])
  · have hwide := fun b hb => Text.le_of_mem_utf8EncodeChar (b := b) hc hb
    have hsize := String.length_utf8EncodeChar d
    rw [Text.bytes_cons]
    cases hbytes : String.utf8EncodeChar d with
    | nil => exact absurd hbytes String.utf8EncodeChar_ne_nil
    | cons b bytes =>
        rw [hbytes] at hwide hsize
        rw [List.length_cons] at hsize
        have hrest := stringBytes_append_wide hquote (Text.bytes rest)
          fun e he => hwide e (List.mem_cons_of_mem b he)
        have hjump : stringBytes quote (Text.asciiByte '\\' :: b :: (bytes ++ Text.bytes rest)) =
            (stringBytes quote (bytes ++ Text.bytes rest)).shift 2 :=
          quotedExtent_escape _ (isBreakByte_of_le (hwide b List.mem_cons_self))
        rw [List.cons_append, hjump, hrest, QuotedExtent.shift_shift, ← hsize]

theorem stringBytes_lone (rest : Text) (h : ∀ d ∈ rest.head?, isBreak d = true) :
    stringBytes quote (Text.bytes ('\\' :: rest)) = ⟨1, false⟩ := by
  have hclose := (Text.asciiByte_inj (show Text.IsAscii '\\' by decide) hquote.isAscii).not.mpr
    hquote.ne_backslash.symm
  cases rest with
  | nil =>
      rw [Text.bytes_cons_ascii (by decide), Text.bytes_nil, stringBytes,
        quotedExtent_other _ (by decide) hclose]
      · rfl
      · intro _ b hb
        cases hb
  | cons d rest =>
      have hd := h d rfl
      have hc := isAscii_of_isBreak hd
      have hstop := stringBytes_break quote rest hd
      rw [Text.bytes_cons_ascii hc] at hstop
      rw [Text.bytes_cons_ascii (by decide), Text.bytes_cons_ascii hc, stringBytes,
        quotedExtent_other _ (by decide) hclose]
      · exact congrArg (QuotedExtent.shift · 1) hstop
      · intro _ b hb
        cases hb
        rw [isBreakByte_asciiByte hc, hd]

/-- Over the bytes of a text the walk stops after a whole number of characters, and it finds the
closing quote if the walk over the characters does. -/
theorem stringBytes_bytes (text : Text) :
    stringBytes quote text.bytes =
      ⟨Text.byteSize (text.take (stringExtent quote text).length),
        (stringExtent quote text).isClosed⟩ := by
  have hone := Text.utf8Size_ascii hquote.isAscii
  have hslash : '\\'.utf8Size = 1 := by decide
  have hclosed : ∀ rest, stringBytes quote (Text.bytes (quote :: rest)) =
      ⟨Text.byteSize ((quote :: rest).take 1), true⟩ := by
    intro rest
    rw [stringBytes_close hquote, List.take_succ_cons, List.take_zero, Text.byteSize_cons, hone,
      Text.byteSize_nil]
  unfold stringExtent
  fun_induction quotedExtent quote '\\' isBreak text with
  | case1 => rfl
  | case2 c hbreak => exact stringBytes_break quote [] hbreak
  | case3 hbreak => exact hclosed []
  | case4 c hbreak hclose =>
      rw [Bool.not_eq_true] at hbreak
      by_cases hescape : c = '\\'
      · rw [hescape]
        exact stringBytes_lone hquote [] nofun
      · rw [stringBytes_plain hquote [] hbreak hclose hescape, Text.bytes_nil]
        ext
        · exact Nat.add_comm 0 c.utf8Size
        · rfl
  | case5 c d rest hescape ih =>
      rw [hescape.1, stringBytes_escape hquote rest hescape.2, ih, QuotedExtent.shift_length,
        List.take_succ_cons, List.take_succ_cons, Text.byteSize_cons, Text.byteSize_cons, hslash]
      ext
      · simp only [QuotedExtent.shift_length]
        omega
      · rfl
  | case6 c d rest hescape hbreak => exact stringBytes_break quote (d :: rest) hbreak
  | case7 d rest hescape hbreak => exact hclosed (d :: rest)
  | case8 c d rest hescape hbreak hclose ih =>
      rw [Bool.not_eq_true] at hbreak
      by_cases hc : c = '\\'
      · -- A backslash before a line break is the last character of the string.
        have hd : isBreak d = true := by
          rw [← Bool.not_eq_false]
          exact fun hd => hescape ⟨hc, hd⟩
        rw [hc, quotedExtent_break rest hd (isBreak_ne_backslash hd), stringBytes_lone hquote]
        · rfl
        · intro e he
          cases he
          exact hd
      · rw [stringBytes_plain hquote _ hbreak hclose hc, ih, QuotedExtent.shift_length,
          List.take_succ_cons, Text.byteSize_cons, Nat.add_comm c.utf8Size]
        rfl

end Bytes

end Keystroke.Protobuf
