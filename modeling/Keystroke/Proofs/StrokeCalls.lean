import Mathlib
import Keystroke.Proofs.Strokes

/-!
# Any number of calls on one stroke

A stroke can be paired more than once, and asked to pair as a bracket or a quote that it is not.
Which effect pairing has is decided by what no call changes, so it is the same each time
(`exists_effect`), and a run of calls repeats that effect as often as a call fits the typed
character (`run_eq`). So no partner is ever brought after the typed character has been taken out,
and the caret stays inside the text that the stroke leaves behind (`calls_stay_in_bounds`).
-/

namespace Keystroke.Stroke

variable {κ : Type}

/-! ## The effect of pairing -/

def closer? (typed : Char) : Option Char :=
  match KeyClass.of typed with
  | .opening closing => some closing
  | .quote => some typed
  | .closing | .plain => none

inductive Effect where
  | keeps
  | brings (c : Char)
  | typesOver
deriving DecidableEq

namespace Effect

def apply : Effect → Text → Text
  | keeps, insertion => insertion
  | brings c, insertion => insertion ++ [c]
  | typesOver, _ => []

theorem iterate_keeps (n : Nat) (insertion : Text) : keeps.apply^[n] insertion = insertion := by
  induction n with
  | zero => rfl
  | succ n ih => exact ih

theorem iterate_brings (c : Char) (n : Nat) (insertion : Text) :
    (brings c).apply^[n] insertion = insertion ++ List.replicate n c := by
  induction n generalizing insertion with
  | zero => exact (List.append_nil insertion).symm
  | succ n ih =>
      rw [Function.iterate_succ_apply, ih, List.replicate_succ, apply, List.append_assoc,
        List.singleton_append]

theorem iterate_typesOver (n : Nat) (insertion : Text) :
    typesOver.apply^[n] insertion = insertion ∨ typesOver.apply^[n] insertion = [] := by
  cases n with
  | zero => exact .inl rfl
  | succ n =>
      rw [Function.iterate_succ_apply']
      exact .inr rfl

end Effect

/-- An effect that a stroke can have: it brings the partner of the typed character, and it types
over that character only where it stands. -/
structure Allows (stroke : Stroke κ) (effect : Effect) : Prop where
  closer : ∀ c, effect = .brings c → closer? stroke.typed = some c
  ahead : effect = .typesOver → stroke.isAhead = true

theorem allows_keeps (stroke : Stroke κ) : stroke.Allows .keeps := ⟨nofun, nofun⟩

theorem allows_brings {stroke : Stroke κ} {c : Char} (h : closer? stroke.typed = some c) :
    stroke.Allows (.brings c) := by
  refine ⟨fun d hd => ?_, nofun⟩
  cases hd
  exact h

theorem allows_typesOver {stroke : Stroke κ} (h : stroke.isAhead = true) :
    stroke.Allows .typesOver :=
  ⟨nofun, fun _ => h⟩

/-- Pairing has one effect, whatever is inserted so far. -/
theorem exists_effect (stroke : Stroke κ) :
    ∃ effect, stroke.Allows effect ∧ ∀ insertion,
      (pair { stroke with insertion }).2 = { stroke with insertion := effect.apply insertion } := by
  unfold pair
  dsimp only
  cases hclass : KeyClass.of stroke.typed with
  | opening closing =>
      by_cases hcode : stroke.isInCode = true
      · refine ⟨.brings closing, allows_brings ?_, fun insertion => if_pos hcode⟩
        rw [closer?, hclass]
      · exact ⟨.keeps, stroke.allows_keeps, fun insertion => if_neg hcode⟩
  | closing =>
      by_cases hover : (stroke.isAhead && stroke.isInCode) = true
      · have hahead := (Bool.and_eq_true_iff.mp hover).1
        exact ⟨.typesOver, allows_typesOver hahead, fun insertion => if_pos hover⟩
      · exact ⟨.keeps, stroke.allows_keeps, fun insertion => if_neg hover⟩
  | quote =>
      by_cases hescaped : stroke.isEscaped = true
      · exact ⟨.keeps, stroke.allows_keeps, fun insertion => if_pos hescaped⟩
      · by_cases hstring : stroke.document.isInString stroke.offset = true
        · by_cases hahead : stroke.isAhead = true
          · refine ⟨.typesOver, allows_typesOver hahead, fun insertion => ?_⟩
            exact (if_neg hescaped).trans ((if_pos hstring).trans (if_pos hahead))
          · refine ⟨.keeps, stroke.allows_keeps, fun insertion => ?_⟩
            exact (if_neg hescaped).trans ((if_pos hstring).trans (if_neg hahead))
        · by_cases hplain : (stroke.document.isInComment stroke.offset || stroke.waitsAhead) = true
          · refine ⟨.keeps, stroke.allows_keeps, fun insertion => ?_⟩
            exact (if_neg hescaped).trans ((if_neg hstring).trans (if_pos hplain))
          · refine ⟨.brings stroke.typed, allows_brings ?_, fun insertion => ?_⟩
            · rw [closer?, hclass]
            · exact (if_neg hescaped).trans ((if_neg hstring).trans (if_neg hplain))
  | plain => exact ⟨.keeps, stroke.allows_keeps, fun insertion => rfl⟩

/-! ## Calls -/

inductive Call where
  | pair
  | asOpening
  | asClosing
  | asQuote
deriving DecidableEq

def Call.perform (stroke : Stroke κ) : Call → Except Fault (Stroke κ)
  | pair => .ok stroke.pair.2
  | asOpening => stroke.asOpening
  | asClosing => stroke.asClosing
  | asQuote => stroke.asQuote

/-- Whether a call is for characters of the typed one's class. -/
def Call.fits (typed : Char) : Call → Bool
  | pair => true
  | asOpening => match KeyClass.of typed with
    | .opening _ => true
    | _ => false
  | asClosing => KeyClass.of typed == .closing
  | asQuote => KeyClass.of typed == .quote

/-- The stroke after a call. A call that fails leaves it as it is. -/
def call (stroke : Stroke κ) (call : Call) : Stroke κ := (call.perform stroke).toOption.getD stroke

def run (stroke : Stroke κ) (calls : List Call) : Stroke κ := calls.foldl Stroke.call stroke

/-- A call that fits pairs the typed character, and one that does not fails. -/
theorem call_eq (stroke : Stroke κ) (k : Call) :
    stroke.call k = if k.fits stroke.typed then stroke.pair.2 else stroke := by
  unfold call
  cases k with
  | pair => rfl
  | asOpening =>
      unfold Call.perform asOpening Call.fits pair
      cases KeyClass.of stroke.typed <;> rfl
  | asClosing =>
      unfold Call.perform asClosing Call.fits pair
      cases KeyClass.of stroke.typed <;> rfl
  | asQuote =>
      unfold Call.perform asQuote Call.fits pair
      cases KeyClass.of stroke.typed <;> rfl

/-- A run of calls repeats the effect of pairing, once for each call that fits. -/
theorem run_eq {stroke : Stroke κ} {effect : Effect}
    (h : ∀ insertion,
      (pair { stroke with insertion }).2 = { stroke with insertion := effect.apply insertion })
    (calls : List Call) (insertion : Text) :
    run { stroke with insertion } calls =
      { stroke with
        insertion := effect.apply^[calls.countP (·.fits stroke.typed)] insertion } := by
  induction calls generalizing insertion with
  | nil => rfl
  | cons k calls ih =>
      change run (call { stroke with insertion } k) calls = _
      rw [call_eq]
      by_cases hfits : k.fits stroke.typed = true
      · rw [if_pos hfits, h, ih, List.countP_cons_of_pos hfits, Function.iterate_succ_apply]
      · rw [if_neg hfits, ih, List.countP_cons_of_neg hfits]

/-! ## Bounds -/

/-- What a stroke may insert: the typed character and copies of its partner, or nothing where the
character stands already. -/
theorem Allows.insertion_cases {stroke : Stroke κ} {effect : Effect} (h : stroke.Allows effect)
    (n : Nat) :
    (∃ closers, effect.apply^[n] [stroke.typed] = stroke.typed :: closers ∧
        ∀ c ∈ closers, closer? stroke.typed = some c) ∨
      (effect.apply^[n] [stroke.typed] = [] ∧ stroke.isAhead = true) := by
  cases effect with
  | keeps => exact .inl ⟨[], Effect.iterate_keeps n _, nofun⟩
  | brings c =>
      refine .inl ⟨List.replicate n c, Effect.iterate_brings c n _, fun d hd => ?_⟩
      rw [List.eq_of_mem_replicate hd]
      exact h.closer c rfl
  | typesOver =>
      rcases Effect.iterate_typesOver n [stroke.typed] with hkept | hover
      · exact .inl ⟨[], hkept, nofun⟩
      · exact .inr ⟨hover, h.ahead rfl⟩

theorem calls_stay_in_bounds (document : Document κ) (offset : Nat) (typed : Char)
    (h : document.text.Boundary offset) (calls : List Call) :
    ∃ stroke, start document offset typed = .ok stroke ∧
      (stroke.run calls).caret = offset + typed.utf8Size ∧
      ((stroke.run calls).insertion = [] ∨
        ∃ closers, (stroke.run calls).insertion = typed :: closers ∧
          ∀ c ∈ closers, closer? typed = some c) ∧
      ((stroke.run calls).insertion = [] → ∃ before after,
        document.text = before ++ typed :: after ∧ before.byteSize = offset) ∧
      (stroke.run calls).caret ≤
        document.text.byteSize + (stroke.run calls).insertion.byteSize := by
  obtain ⟨before, after, htext, rfl⟩ := h
  have hsize : document.text.byteSize = before.byteSize + after.byteSize := by
    rw [htext, Text.byteSize_append]
  obtain ⟨effect, hallows, heffect⟩ := exists_effect
    (⟨document, before.byteSize, typed, before, after, [typed],
      before.byteSize + typed.utf8Size⟩ : Stroke κ)
  have hrun := run_eq heffect calls [typed]
  refine ⟨_, start_eq htext typed, ?_⟩
  rw [hrun]
  dsimp only
  refine ⟨rfl, ?_⟩
  rcases hallows.insertion_cases (calls.countP (·.fits typed)) with
    ⟨closers, hinsertion, hclosers⟩ | ⟨hnil, hahead⟩
  · -- The caret is behind the first character of what is inserted.
    dsimp only at hinsertion
    rw [hinsertion, Text.byteSize_cons]
    exact ⟨.inr ⟨closers, rfl, hclosers⟩, nofun, by omega⟩
  · -- Nothing is inserted, and the caret is behind a character of the text.
    dsimp only at hnil
    obtain ⟨rest, hafter⟩ := List.head?_eq_some_iff.mp (beq_iff_eq.mp hahead)
    dsimp only at hafter
    rw [hnil, Text.byteSize_nil, hsize, hafter, Text.byteSize_cons]
    exact ⟨.inl rfl, fun _ => ⟨before, rest, by rw [htext, hafter], rfl⟩, by omega⟩

-- The second quote is typed over as often as it is asked for, and a call for brackets fails.
theorem calls_over_closing_quote :
    ∃ document : Document Kind, Document.protobuf ['"', '"'] = .ok document ∧
      document.text.Boundary 1 ∧
      ∃ stroke, start document 1 '"' = .ok stroke ∧
        (stroke.run [.pair, .asOpening, .asQuote]).caret = 1 + '"'.utf8Size ∧
        (stroke.run [.pair, .asOpening, .asQuote]).insertion = [] ∧
        ((stroke.run [.pair, .asOpening, .asQuote]).insertion = [] → ∃ before after,
          document.text = before ++ '"' :: after ∧ before.byteSize = 1) ∧
        (stroke.run [.pair, .asOpening, .asQuote]).caret ≤ document.text.byteSize +
          (stroke.run [.pair, .asOpening, .asQuote]).insertion.byteSize := by
  have hreadable : Protobuf.Readable ['"', '"'] := ⟨by decide, by decide⟩
  obtain ⟨_, document, _, _, hdocument, htext, _⟩ := hreadable.exists_document
  have hboundary : document.text.Boundary 1 := by
    rw [htext]
    exact Text.boundary_append ['"'] ['"']
  obtain ⟨stroke, hstart, hcaret, _, hempty, hbound⟩ :=
    calls_stay_in_bounds document 1 '"' hboundary [.pair, .asOpening, .asQuote]
  have hinsertion : (stroke.run [.pair, .asOpening, .asQuote]).insertion = [] := by
    have hvalue : (Document.protobuf ['"', '"'] >>= fun document =>
        start document 1 '"' >>= fun stroke =>
          .ok (stroke.run [.pair, .asOpening, .asQuote]).insertion) = .ok [] := by cbv
    obtain ⟨_, hsame, hrest⟩ := Fault.bind_eq_ok_iff.mp hvalue
    rw [hdocument] at hsame
    cases hsame
    obtain ⟨_, hsame, hrest⟩ := Fault.bind_eq_ok_iff.mp hrest
    rw [hstart] at hsame
    cases hsame
    exact Except.ok.inj hrest
  exact ⟨document, hdocument, hboundary, stroke, hstart, hcaret, hinsertion, hempty, hbound⟩

end Keystroke.Stroke
