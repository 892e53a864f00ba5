import Mathlib
import Keystroke.Proofs.TokenPartition
import Keystroke.Proofs.RuleLanguages

/-!
# Kinds with a fixed spelling

The scanner has its own list of fixed texts, and it agrees with the table of spellings
(`mem_literals_iff`). Their rules come first, and no two kinds are spelled alike. So among all texts
the rules give such a kind to its spelling and to nothing else (`picks_iff_spelling`), and the
tokens of a text agree with the table of spellings in both directions (`kind_iff_spelling`).
-/

namespace Keystroke

namespace Rule

variable {κ : Type}

/-- What the first rules of a list decide, the others do not change. -/
theorem Picks.append {front back : List (Rule κ)} {s : Text} {kind : κ} (h : Picks front s kind) :
    Picks (front ++ back) s kind := by
  induction front with
  | nil => exact h.elim
  | cons rule front ih =>
      rcases h with hhere | ⟨hnot, hrest⟩
      · exact .inl hhere
      · exact .inr ⟨hnot, ih hrest⟩

end Rule

namespace Protobuf

/-! ## The table and the rules -/

-- Computed: the spellings of all kinds that have one.
private theorem nodup_spellings :
    ((Kind.all.filter (·.spelling?.isSome)).map Kind.spelling?).Nodup := by
  decide

theorem spelling?_inj {kind other : Kind} {word : String} (h : kind.spelling? = some word)
    (hother : other.spelling? = some word) : kind = other := by
  have hmem : ∀ {kind : Kind}, kind.spelling? = some word →
      kind ∈ Kind.all.filter (·.spelling?.isSome) := by
    intro kind hkind
    rw [List.mem_filter, hkind]
    exact ⟨Kind.mem_all kind, rfl⟩
  exact List.inj_on_of_nodup_map nodup_spellings (hmem h) (hmem hother) (h.trans hother.symm)

theorem picks_spelling {kind : Kind} {word : String} (h : kind.spelling? = some word) :
    Rule.Picks rules word.toList kind := by
  have hcovers : Rule.Covers fixedRules word.toList :=
    ⟨⟨kind, .word word.toList⟩, mem_fixedRules_iff.mpr ⟨word, h, rfl⟩, Pattern.word_iff.mpr rfl⟩
  obtain ⟨found, hfound⟩ := hcovers.picks
  -- The rule that is found is for a kind with the same spelling, so it is for the same kind.
  obtain ⟨rule, hmem, hmatches, rfl⟩ := hfound.covered
  obtain ⟨other, hother, hpattern⟩ := mem_fixedRules_iff.mp hmem
  rw [hpattern, Pattern.word_iff, String.toList_inj] at hmatches
  rw [← hmatches] at hother
  rw [spelling?_inj h hother]
  exact hfound.append

theorem pattern_of_spelling? {rule : Rule Kind} (hmem : rule ∈ rules) {word : String}
    (h : rule.kind.spelling? = some word) : rule.pattern = .word word.toList := by
  rcases List.mem_append.mp hmem with hfixed | hother
  · obtain ⟨other, hother, hpattern⟩ := mem_fixedRules_iff.mp hfixed
    rw [h, Option.some.injEq] at hother
    rw [hpattern, hother]
  · -- The other rules are for kinds whose texts vary.
    simp only [List.mem_cons, List.not_mem_nil, or_false] at hother
    rcases hother with rfl | rfl | rfl | rfl | rfl | rfl | rfl | rfl | rfl | rfl <;> cases h

/-- The rules give a kind with a spelling to that text alone. -/
theorem picks_iff_spelling {kind : Kind} {word : String} (h : kind.spelling? = some word)
    {s : Text} : Rule.Picks rules s kind ↔ s = word.toList := by
  constructor
  · intro hpicks
    obtain ⟨rule, hmem, hmatches, rfl⟩ := hpicks.covered
    rw [pattern_of_spelling? hmem h, Pattern.word_iff] at hmatches
    exact hmatches
  · rintro rfl
    exact picks_spelling h

theorem First.kind_iff_text {text : Text} {lexeme : Lexeme} (h : First text lexeme) {kind : Kind}
    {word : String} (hword : kind.spelling? = some word) :
    lexeme.kind = kind ↔ lexeme.text = word.toList := by
  cases h with
  | found hlongest =>
      constructor
      · rintro rfl
        exact (picks_iff_spelling hword).mp hlongest.picks
      · intro htext
        exact hlongest.picks.unique ((picks_iff_spelling hword).mpr htext)
  | @unknown c rest htext hnone =>
      constructor
      · rintro rfl
        cases hword
      · -- A character that no rule matches is not the whole of a spelling.
        intro hspelled
        have hlength : 1 ≤ text.length := by
          rw [htext, List.length_cons]
          omega
        apply absurd (Rule.covers_iff_picks.mpr ⟨kind, picks_spelling hword⟩)
        rw [← hspelled]
        have hone := hnone 1 hlength
        rw [htext] at hone
        exact hone

/-! ## Tokens -/

theorem Stands.slice?_eq {before : Text} {lexeme : Lexeme} {token : Token Kind}
    (h : Stands before lexeme token) (after : Text) :
    (before ++ lexeme.text ++ after).slice? token.span.start token.span.stop =
      some lexeme.text := by
  rw [h.start, h.stop, Text.byteSize_append]
  exact Text.slice?_append before lexeme.text after

/-- The scanner knows the spellings, all of them and nothing else, and a token has a kind with a
spelling exactly if it is spelled so. In particular no token of another kind is spelled like one of
these. -/
theorem kind_iff_spelling {text : Text} {tokens : TokenList Kind} {token : Token Kind}
    (htokens : tokenize text = .ok tokens) (hmem : token ∈ tokens) :
    (∀ kind word, (kind, word) ∈ literals ↔ kind.spelling? = some word) ∧
    ∃ part, text.slice? token.span.start token.span.stop = some part ∧
      (∀ kind word, kind.spelling? = some word → (token.kind = kind ↔ part = word.toList)) ∧
      (token.kind.spelling? = none →
        ∀ (kind : Kind) (word : String), kind.spelling? = some word → part ≠ word.toList) := by
  refine ⟨fun kind word => mem_literals_iff, ?_⟩
  -- That other kinds are spelled otherwise is a consequence of the rest, for the sentinel too.
  suffices hiff : ∃ part, text.slice? token.span.start token.span.stop = some part ∧
      ∀ kind word, kind.spelling? = some word → (token.kind = kind ↔ part = word.toList) by
    obtain ⟨part, hslice, hspelled⟩ := hiff
    refine ⟨part, hslice, hspelled, fun hnone kind word hword hpart => ?_⟩
    rw [(hspelled kind word hword).mpr hpart, hword] at hnone
    cases hnone
  obtain ⟨body, sentinel, rfl, hsentinel, hbody⟩ := exists_body_of_tokenize htokens
  rcases Array.mem_push.mp hmem with hmem | rfl
  · obtain ⟨before, lexeme, after, hoccurs⟩ := hbody token hmem
    refine ⟨lexeme.text, ?_, fun kind word hword => ?_⟩
    · rw [hoccurs.text_eq]
      exact hoccurs.stands.slice?_eq after
    · rw [hoccurs.stands.kind]
      exact hoccurs.first.kind_iff_text hword
  · have hslice := hsentinel.slice?_eq []
    rw [List.append_nil, List.append_nil] at hslice
    refine ⟨[], hslice, fun kind word hword => ?_⟩
    rw [hsentinel.kind]
    refine iff_of_false ?_ fun hnil => ?_
    · rintro rfl
      cases hword
    · -- No rule describes the empty text.
      apply not_covers_nil
      rw [hnil]
      exact Rule.covers_iff_picks.mpr ⟨kind, picks_spelling hword⟩

-- A word, and the same word glued to an underscore.
theorem kind_iff_spelling_glued :
    ∃ tokens token, tokenize ['t', 'o', '=', 't', 'o', '_'] = .ok tokens ∧ token ∈ tokens ∧
      token.kind = .ident ∧
      (∀ kind word, (kind, word) ∈ literals ↔ kind.spelling? = some word) ∧
      ∃ part, Text.slice? ['t', 'o', '=', 't', 'o', '_'] token.span.start token.span.stop =
          some part ∧
        (∀ kind word, kind.spelling? = some word → (token.kind = kind ↔ part = word.toList)) ∧
        (token.kind.spelling? = none →
          ∀ (kind : Kind) (word : String), kind.spelling? = some word → part ≠ word.toList) := by
  have htokens : tokenize ['t', 'o', '=', 't', 'o', '_'] = .ok
      #[⟨.keyword .toWord, ⟨0, 2, by decide, by decide⟩, 1, 0⟩,
        ⟨.assign, ⟨2, 3, by decide, by decide⟩, 1, 2⟩,
        ⟨.ident, ⟨3, 6, by decide, by decide⟩, 1, 3⟩,
        ⟨.eof, ⟨6, 6, by decide, by decide⟩, 1, 6⟩] := by cbv
  exact ⟨_, _, htokens, Array.mem_of_getElem? (i := 2) rfl, rfl,
    kind_iff_spelling htokens (Array.mem_of_getElem? (i := 2) rfl)⟩

end Protobuf

end Keystroke
