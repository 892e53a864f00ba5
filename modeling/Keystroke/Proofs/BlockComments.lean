import Mathlib
import Keystroke.Proofs.Placement
import Keystroke.Proofs.RuleLanguages

/-!
# Where a block comment ends

The patterns of block comments say in a regular way that the end mark is not inside the comment
(`openTail_iff`, `closedTail_iff`). So the longest match ends right after the first end mark or, if
there is none, with the text (`first_blockComment`).
-/

namespace Keystroke

theorem Pattern.matches_star_one_iff {accepts : Char → Bool} {s : Text} :
    (star (one accepts)).Matches s ↔ ∀ c ∈ s, accepts c := by
  induction s with
  | nil => simp [Matches.done]
  | cons c s ih =>
      rw [matches_star_cons_iff, List.forall_mem_cons, ← ih]
      refine ⟨fun ⟨a, b, hs, hone, hrest⟩ => ?_, fun ⟨hc, hrest⟩ => ?_⟩
      · obtain ⟨d, hd, hd'⟩ := matches_one_iff.mp hone
        cases hd'
        exact ⟨hd, hs ▸ hrest⟩
      · exact ⟨[], s, rfl, .one hc, hrest⟩

theorem Pattern.matches_word_seq_iff {opening s : Text} {p : Pattern} :
    (seq (word opening) p).Matches (opening ++ s) ↔ p.Matches s := by
  rw [matches_seq_iff]
  refine ⟨fun ⟨a, b, hs, ha, hb⟩ => ?_, fun h => ⟨opening, s, rfl, word_iff.mpr rfl, h⟩⟩
  rw [word_iff.mp ha, List.append_cancel_left_eq] at hs
  exact hs ▸ hb

namespace Protobuf

/-! ## Texts without an end mark -/

def NoEnd (s : Text) : Prop := ¬ ['*', '/'] <:+: s

theorem noEnd_nil : NoEnd [] := by
  intro h
  exact absurd (List.eq_nil_of_infix_nil h) (List.cons_ne_nil _ _)

theorem noEnd_cons_iff {c : Char} {s : Text} :
    NoEnd (c :: s) ↔ ¬ (c = '*' ∧ s.head? = some '/') ∧ NoEnd s := by
  have hstart : ['*', '/'] <+: c :: s ↔ c = '*' ∧ s.head? = some '/' := by
    cases s with
    | nil => simp
    | cons d s => simp [List.cons_prefix_cons, eq_comm]
  rw [NoEnd, List.infix_cons_iff, hstart, not_or]
  exact Iff.rfl

theorem NoEnd.of_suffix {s t : Text} (h : NoEnd t) (hsuffix : s <:+ t) : NoEnd s :=
  fun hs => h (hs.trans hsuffix.isInfix)

/-- No end mark arises where two texts meet, unless the second begins with a slash. -/
theorem NoEnd.append_cons {s t : Text} {c : Char} (hs : NoEnd s) (ht : NoEnd (c :: t))
    (hc : c ≠ '/') : NoEnd (s ++ c :: t) := by
  induction s with
  | nil => exact ht
  | cons d s ih =>
      obtain ⟨hstart, hrest⟩ := noEnd_cons_iff.mp hs
      rw [List.cons_append, noEnd_cons_iff]
      refine ⟨fun hmark => ?_, ih hrest⟩
      cases s with
      | nil => exact hc (Option.some.inj hmark.2)
      | cons e s => exact hstart hmark

/-- A text with an end mark has a first one. -/
theorem exists_first_end {s : Text} (h : ¬ NoEnd s) :
    ∃ body tail, s = body ++ '*' :: '/' :: tail ∧ NoEnd (body ++ ['*']) := by
  induction s with
  | nil => exact absurd noEnd_nil h
  | cons c s ih =>
      by_cases hhere : c = '*' ∧ s.head? = some '/'
      · obtain ⟨rfl, hs⟩ := hhere
        obtain ⟨tail, rfl⟩ := List.head?_eq_some_iff.mp hs
        refine ⟨[], tail, rfl, ?_⟩
        rw [List.nil_append, noEnd_cons_iff]
        exact ⟨by simp, noEnd_nil⟩
      · have hlater : ¬ NoEnd s := fun hs => h (noEnd_cons_iff.mpr ⟨hhere, hs⟩)
        obtain ⟨body, tail, rfl, hbody⟩ := ih hlater
        refine ⟨c :: body, tail, rfl, ?_⟩
        rw [List.cons_append, noEnd_cons_iff]
        refine ⟨fun ⟨hc, hhead⟩ => hhere ⟨hc, ?_⟩, hbody⟩
        -- The two texts begin with the same character.
        cases body with
        | nil => exact hhead
        | cons d body => exact hhead

/-- The first end mark is not after any other. -/
theorem length_le_of_noEnd {body tail front back : Text} (h : NoEnd (body ++ ['*']))
    (heq : body ++ '*' :: '/' :: tail = front ++ '*' :: '/' :: back) :
    body.length ≤ front.length := by
  by_contra hlt
  have hfront : front ++ ['*', '/'] <+: front ++ '*' :: '/' :: back := ⟨back, by simp⟩
  have hbody : body ++ ['*'] <+: front ++ '*' :: '/' :: back := ⟨'/' :: tail, by simp [← heq]⟩
  have hlength : (front ++ ['*', '/']).length ≤ (body ++ ['*']).length := by
    simp only [List.length_append, List.length_cons, List.length_nil]
    omega
  have hinside := List.prefix_of_prefix_length_le hfront hbody hlength
  exact h ((List.suffix_append front ['*', '/']).isInfix.trans hinside.isInfix)

theorem first_end_unique {body tail other rest : Text} (hbody : NoEnd (body ++ ['*']))
    (hother : NoEnd (other ++ ['*']))
    (h : body ++ '*' :: '/' :: tail = other ++ '*' :: '/' :: rest) :
    body = other ∧ tail = rest := by
  have hle := length_le_of_noEnd hbody h
  have hge := length_le_of_noEnd hother h.symm
  obtain ⟨hfront, hback⟩ := List.append_inj h (Nat.le_antisymm hle hge)
  simp only [List.cons.injEq, true_and] at hback
  exact ⟨hfront, hback⟩

/-! ## The patterns -/

/-- One round of the inside: stars, and a character that does not end the comment. -/
def commentRound : Pattern :=
  .alt (.noneOf ['*']) (.seq (.plus (.char '*')) (.noneOf ['*', '/']))

theorem matches_stars_iff {s : Text} :
    (Pattern.star (.char '*')).Matches s ↔ s = List.replicate s.length '*' := by
  rw [Pattern.char, Pattern.matches_star_one_iff, List.eq_replicate_iff]
  simp

theorem matches_noneOf_iff {chars s : Text} :
    (Pattern.noneOf chars).Matches s ↔ ∃ d, d ∉ chars ∧ s = [d] := by
  rw [Pattern.noneOf, Pattern.matches_one_iff]
  simp

theorem matches_commentRound_iff {s : Text} :
    commentRound.Matches s ↔
      ∃ n d, s = List.replicate n '*' ++ [d] ∧ d ≠ '*' ∧ (n ≠ 0 → d ≠ '/') := by
  rw [commentRound, Pattern.matches_alt_iff, Pattern.matches_seq_iff]
  refine ⟨fun h => ?_, fun ⟨n, d, hs, hstar, hslash⟩ => ?_⟩
  · rcases h with h | ⟨stars, last, hs, hstars, hlast⟩
    · obtain ⟨d, hd, hs⟩ := matches_noneOf_iff.mp h
      exact ⟨0, d, hs, by simpa using hd, fun h => absurd rfl h⟩
    · obtain ⟨d, hd, rfl⟩ := matches_noneOf_iff.mp hlast
      obtain ⟨a, b, rfl, ha, hb⟩ := Pattern.matches_seq_iff.mp hstars
      obtain ⟨c, hc, rfl⟩ := Pattern.matches_one_iff.mp ha
      have hd' : d ≠ '*' ∧ d ≠ '/' := by simpa using hd
      refine ⟨b.length + 1, d, ?_, hd'.1, fun _ => hd'.2⟩
      rw [hs, beq_iff_eq.mp hc, List.replicate_succ, ← matches_stars_iff.mp hb]
      rfl
  · cases n with
    | zero => exact .inl (matches_noneOf_iff.mpr ⟨d, by simpa using hstar, hs⟩)
    | succ n =>
        have hd : d ∉ ['*', '/'] := by simp [hstar, hslash (Nat.succ_ne_zero n)]
        refine .inr ⟨'*' :: List.replicate n '*', [d], hs, ?_, matches_noneOf_iff.mpr ⟨d, hd, rfl⟩⟩
        have hone : (Pattern.char '*').Matches ['*'] := .one (by decide)
        exact .seq hone (matches_stars_iff.mpr (by rw [List.length_replicate]))

/-- Stars and a character that does not end the comment can stand before any inside. -/
theorem noEnd_round_append {n : Nat} {d : Char} {s : Text} (hstar : d ≠ '*')
    (hslash : n ≠ 0 → d ≠ '/') (h : NoEnd s) : NoEnd (List.replicate n '*' ++ d :: s) := by
  have hd : NoEnd (d :: s) := noEnd_cons_iff.mpr ⟨fun hc => hstar hc.1, h⟩
  induction n with
  | zero => exact hd
  | succ n ih =>
      rw [List.replicate_succ, List.cons_append, noEnd_cons_iff]
      refine ⟨fun ⟨_, hhead⟩ => ?_, ih fun _ => hslash (Nat.succ_ne_zero n)⟩
      cases n with
      | zero => exact hslash (Nat.succ_ne_zero 0) (by simpa using hhead)
      | succ n => simp [List.replicate_succ] at hhead

theorem noEnd_stars (n : Nat) : NoEnd (List.replicate n '*') := by
  induction n with
  | zero => exact noEnd_nil
  | succ n ih =>
      rw [List.replicate_succ, noEnd_cons_iff]
      refine ⟨fun ⟨_, hhead⟩ => ?_, ih⟩
      cases n with
      | zero => cases hhead
      | succ n => simp [List.replicate_succ] at hhead

theorem noEnd_of_rounds {rounds : List Text} (n : Nat)
    (h : ∀ round ∈ rounds, commentRound.Matches round) :
    NoEnd (rounds.flatten ++ List.replicate n '*') := by
  induction rounds with
  | nil => exact noEnd_stars n
  | cons round rounds ih =>
      have hround := h round List.mem_cons_self
      obtain ⟨k, d, rfl, hstar, hslash⟩ := matches_commentRound_iff.mp hround
      have hrest := ih fun other hmem => h other (List.mem_cons_of_mem _ hmem)
      have hshape : (List.replicate k '*' ++ [d]) ++ rounds.flatten ++ List.replicate n '*' =
          List.replicate k '*' ++ d :: (rounds.flatten ++ List.replicate n '*') := by
        simp only [List.append_assoc, List.cons_append, List.nil_append]
      rw [List.flatten_cons, hshape]
      exact noEnd_round_append hstar hslash hrest

/-- A text without an end mark is an inside; stars that have been read wait for what follows. -/
theorem openTail_of_noEnd {s : Text} (n : Nat) (h : NoEnd (List.replicate n '*' ++ s)) :
    (Pattern.seq commentBody (.star (.char '*'))).Matches (List.replicate n '*' ++ s) := by
  induction s generalizing n with
  | nil =>
      rw [List.append_nil]
      exact .seq .done (matches_stars_iff.mpr (by rw [List.length_replicate]))
  | cons d s ih =>
      by_cases hd : d = '*'
      · have hshift : List.replicate n '*' ++ d :: s = List.replicate (n + 1) '*' ++ s := by
          rw [hd, List.replicate_succ', List.append_assoc]
          rfl
        rw [hshift] at h ⊢
        exact ih (n + 1) h
      · have hslash : n ≠ 0 → d ≠ '/' := by
          intro hn hd'
          obtain ⟨k, rfl⟩ := Nat.exists_eq_succ_of_ne_zero hn
          apply h
          rw [hd', List.replicate_succ', List.append_assoc]
          exact ⟨List.replicate k '*', s, by simp⟩
        have hround : commentRound.Matches (List.replicate n '*' ++ [d]) :=
          matches_commentRound_iff.mpr ⟨n, d, rfl, hd, hslash⟩
        have hrest : NoEnd s := h.of_suffix ⟨List.replicate n '*' ++ [d], by simp⟩
        obtain ⟨body, stars, hs, hbody, hstars⟩ := Pattern.matches_seq_iff.mp (ih 0 hrest)
        rw [List.replicate_zero, List.nil_append] at hs
        have hshape : List.replicate n '*' ++ d :: s =
            (List.replicate n '*' ++ [d] ++ body) ++ stars := by
          rw [hs]
          simp only [List.append_assoc, List.cons_append, List.nil_append]
        rw [hshape]
        exact .seq (.more hround hbody) hstars

theorem openTail_iff {s : Text} :
    (Pattern.seq commentBody (.star (.char '*'))).Matches s ↔ NoEnd s := by
  refine ⟨fun h => ?_, openTail_of_noEnd 0⟩
  obtain ⟨body, stars, rfl, hbody, hstars⟩ := Pattern.matches_seq_iff.mp h
  obtain ⟨rounds, rfl, hrounds⟩ := Language.mem_kstar.mp (Pattern.mem_language_of_matches hbody)
  rw [matches_stars_iff.mp hstars]
  exact noEnd_of_rounds _ fun round hmem => Pattern.matches_of_mem_language (hrounds round hmem)

theorem getLast?_ne_star {s : Text} (h : commentBody.Matches s) : s.getLast? ≠ some '*' := by
  obtain ⟨rounds, rfl, hrounds⟩ := Language.mem_kstar.mp (Pattern.mem_language_of_matches h)
  rcases List.eq_nil_or_concat rounds with rfl | ⟨front, round, rfl⟩
  · simp
  · have hmem : round ∈ front.concat round := by simp
    have hround := Pattern.matches_of_mem_language (hrounds round hmem)
    obtain ⟨n, d, rfl, hstar, _⟩ := matches_commentRound_iff.mp hround
    simpa [List.concat_eq_append] using hstar

/-- The inside of a closed comment, with its end: the end mark comes for the first time. -/
theorem closedTail_iff {s : Text} :
    (Pattern.seq commentBody (.seq (.plus (.char '*')) (.char '/'))).Matches s ↔
      ∃ body, s = body ++ ['*', '/'] ∧ NoEnd (body ++ ['*']) := by
  refine ⟨fun h => ?_, fun ⟨body, hs, hbody⟩ => ?_⟩
  · obtain ⟨body, tail, rfl, hbody, htail⟩ := Pattern.matches_seq_iff.mp h
    obtain ⟨stars, slash, rfl, hstars, hslash⟩ := Pattern.matches_seq_iff.mp htail
    obtain ⟨star, more, rfl, hstar, hmore⟩ := Pattern.matches_seq_iff.mp hstars
    obtain ⟨c, hc, rfl⟩ := Pattern.matches_one_iff.mp hslash
    obtain ⟨d, hd, rfl⟩ := Pattern.matches_one_iff.mp hstar
    have hopen : NoEnd (body ++ ([d] ++ more)) := by
      refine openTail_iff.mp (.seq hbody ?_)
      exact .more hstar hmore
    -- The last star belongs to the end mark.
    have hlast : [d] ++ more = more ++ ['*'] := by
      rw [beq_iff_eq.mp hd, matches_stars_iff.mp hmore, List.singleton_append,
        ← List.replicate_succ, ← List.replicate_succ']
    refine ⟨body ++ more, ?_, ?_⟩
    · rw [beq_iff_eq.mp hc, hlast]
      simp only [List.append_assoc, List.singleton_append]
    · rw [List.append_assoc, ← hlast]
      exact hopen
  · obtain ⟨inner, stars, hshape, hinner, hstars⟩ :=
      Pattern.matches_seq_iff.mp (openTail_iff.mpr hbody)
    have hne : stars ≠ [] := by
      intro hnil
      rw [hnil, List.append_nil] at hshape
      apply getLast?_ne_star hinner
      rw [← hshape]
      simp
    obtain ⟨k, hk⟩ := Nat.exists_eq_succ_of_ne_zero (fun h => hne (List.eq_nil_of_length_eq_zero h))
    have hstars' := matches_stars_iff.mp hstars
    rw [hk, List.replicate_succ'] at hstars'
    have hbody' : body = inner ++ List.replicate k '*' := by
      rw [hstars', ← List.append_assoc] at hshape
      exact List.append_cancel_right hshape
    have hs' : s = inner ++ ('*' :: List.replicate k '*' ++ ['/']) := by
      rw [hs, hbody', ← List.replicate_succ, List.replicate_succ']
      simp only [List.append_assoc, List.cons_append, List.nil_append]
    have hstar : (Pattern.char '*').Matches ['*'] := .one (by decide)
    have hplus : (Pattern.plus (.char '*')).Matches ('*' :: List.replicate k '*') :=
      .seq hstar (matches_stars_iff.mpr (by rw [List.length_replicate]))
    have hslash : (Pattern.char '/').Matches ['/'] := .one (by decide)
    rw [hs']
    exact .seq hinner (.seq hplus hslash)

/-! ## The first lexeme -/

/-- Only the rule of block comments goes on after their opening mark. -/
theorem advanceAll_comment :
    Rule.advanceAll ['/', '*'] rules =
      [⟨.blockComment, ((Pattern.alt closedComment openComment).derivative '/').derivative '*'⟩] :=
  rfl

theorem picks_comment_iff {s : Text} {kind : Kind} :
    Rule.Picks rules ('/' :: '*' :: s) kind ↔
      kind = .blockComment ∧
        (NoEnd s ∨ ∃ body, s = body ++ ['*', '/'] ∧ NoEnd (body ++ ['*'])) := by
  have hopen : openComment.Matches ('/' :: '*' :: s) ↔ NoEnd s := by
    rw [← openTail_iff]
    exact Pattern.matches_word_seq_iff
  have hclosed : closedComment.Matches ('/' :: '*' :: s) ↔
      ∃ body, s = body ++ ['*', '/'] ∧ NoEnd (body ++ ['*']) := by
    rw [← closedTail_iff]
    exact Pattern.matches_word_seq_iff
  rw [show '/' :: '*' :: s = ['/', '*'] ++ s from rfl, ← Rule.picks_advanceAll_iff,
    advanceAll_comment]
  simp only [Rule.Picks, Pattern.derivative_iff, Pattern.matches_alt_iff, hopen, hclosed, and_false,
    or_false]
  rw [and_comm, or_comm, eq_comm]

theorem covers_comment_iff {s : Text} :
    Rule.Covers rules ('/' :: '*' :: s) ↔
      NoEnd s ∨ ∃ body, s = body ++ ['*', '/'] ∧ NoEnd (body ++ ['*']) := by
  rw [Rule.covers_iff_picks]
  simp only [picks_comment_iff, exists_eq_left]

/-- A block comment ends right after its first end mark or, if there is none, with the text. -/
theorem first_blockComment {rest : Text} {lexeme : Lexeme}
    (h : First ('/' :: '*' :: rest) lexeme) :
    lexeme.kind = .blockComment ∧
      ((∃ body tail, rest = body ++ '*' :: '/' :: tail ∧ NoEnd (body ++ ['*']) ∧
          lexeme.text = '/' :: '*' :: (body ++ ['*', '/'])) ∨
        (NoEnd rest ∧ lexeme.text = '/' :: '*' :: rest)) := by
  by_cases hend : NoEnd rest
  · have hwhole : First ('/' :: '*' :: rest ++ []) lexeme := by
      rw [List.append_nil]
      exact h
    have hmaximal : ∀ more others, [] = more ++ others → more ≠ [] →
        ¬ Rule.Covers rules ('/' :: '*' :: rest ++ more) := by
      intro more others hmore hne
      exact absurd (List.append_eq_nil_iff.mp hmore.symm).1 hne
    obtain ⟨htext, hpicks⟩ :=
      hwhole.eq_of_longest (covers_comment_iff.mpr (.inl hend)) hmaximal
    exact ⟨(picks_comment_iff.mp hpicks).1, .inr ⟨hend, htext⟩⟩
  · obtain ⟨body, tail, rfl, hbody⟩ := exists_first_end hend
    have hsplit : First ('/' :: '*' :: (body ++ ['*', '/']) ++ tail) lexeme := by
      simpa using h
    have hmaximal : ∀ more others, tail = more ++ others → more ≠ [] →
        ¬ Rule.Covers rules ('/' :: '*' :: (body ++ ['*', '/']) ++ more) := by
      intro more others _ hne hcovers
      rcases covers_comment_iff.mp hcovers with hopen | ⟨other, hother, hfirst⟩
      · exact hopen ⟨body, more, rfl⟩
      · -- Two end marks, and the text stops after the first.
        have heq : other ++ '*' :: '/' :: [] = body ++ '*' :: '/' :: more := by
          rw [← hother]
          simp
        have hle := length_le_of_noEnd hfirst heq
        have hlength := congrArg List.length heq
        simp only [List.length_append, List.length_cons, List.length_nil] at hlength
        exact hne (List.eq_nil_of_length_eq_zero (by omega))
    obtain ⟨htext, hpicks⟩ :=
      hsplit.eq_of_longest (covers_comment_iff.mpr (.inr ⟨body, rfl, hbody⟩)) hmaximal
    exact ⟨(picks_comment_iff.mp hpicks).1, .inl ⟨body, tail, rfl, hbody, htext⟩⟩

end Protobuf

end Keystroke
