import Mathlib
import Keystroke.Proofs.Strokes
import Keystroke.Proofs.TokenPartition
import Keystroke.Session

/-!
# Typing sessions

Someone who only types characters and line breaks never gets stuck, as long as the text stays small
enough to be read: the caret stays between two characters, and each character typed stands right
before it, and nothing is lost (`run_typing`). One key at a time (`exists_press`), and from that any
number of them.
-/

namespace Keystroke

inductive TypingKey where
  | char (c : Char)
  | enter
deriving DecidableEq

def TypingKey.key : TypingKey → Key
  | char c => .type c
  | enter => .enter

namespace Session

def run (session : Session) (keys : List TypingKey) : Except Fault Session :=
  keys.foldlM (fun session key => session.press key.key) session

theorem run_nil (session : Session) : session.run [] = .ok session := rfl

theorem run_snoc (session : Session) (keys : List TypingKey) (key : TypingKey) :
    session.run (keys ++ [key]) = session.run keys >>= fun reached => reached.press key.key := by
  rw [run, List.foldlM_append]
  simp only [List.foldlM_cons, List.foldlM_nil, bind_pure]
  rfl

/-- The caret is between two characters, and right after a key that typed a character the bytes
before it are those of that character. -/
structure Settled (session : Session) (last? : Option TypingKey) : Prop where
  boundary : session.text.Boundary session.caret
  typed : ∀ c, last? = some (.char c) →
    String.utf8EncodeChar c <:+ session.text.bytes.take session.caret

/-! ## One key -/

theorem settled_of_typed {before rest : Text} {c : Char} {session : Session}
    (htext : session.text = before ++ c :: rest)
    (hcaret : session.caret = Text.byteSize (before ++ [c])) :
    session.Settled (some (.char c)) := by
  have hsplit : session.text = (before ++ [c]) ++ rest := by
    rw [htext, List.append_assoc, List.singleton_append]
  refine ⟨⟨before ++ [c], rest, hsplit, hcaret.symm⟩, fun d hd => ?_⟩
  cases hd
  have htake : session.text.bytes.take session.caret = Text.bytes (before ++ [c]) := by
    rw [hsplit, hcaret, Text.bytes_append, List.take_left' (Text.length_bytes _)]
  rw [htake, Text.bytes_append]
  exact ⟨before.bytes, by rw [Text.bytes_cons, Text.bytes_nil, List.append_nil]⟩

theorem press_type {session : Session} {document : Document Kind} {stroke : Stroke Kind} {c : Char}
    (hdocument : Document.protobuf session.text = .ok document)
    (hstart : Stroke.start document session.caret c = .ok stroke) :
    session.press (.type c) = .ok (ofStroke stroke.pair.2) := by
  apply Fault.bind_eq_ok_iff.mpr ⟨document, hdocument, ?_⟩
  exact Fault.bind_eq_ok_iff.mpr ⟨stroke, hstart, rfl⟩

theorem exists_press_char {session : Session} (hboundary : session.text.Boundary session.caret)
    (hsize : session.text.byteSize + 1 < Word.bound) (c : Char) :
    ∃ next, session.press (.type c) = .ok next ∧ next.Settled (some (.char c)) ∧
      session.text.Sublist next.text := by
  obtain ⟨_, document, _, _, hdocument, htext, _⟩ := Protobuf.exists_document hsize
  rw [← htext] at hboundary ⊢
  obtain ⟨stroke, hstart, haligned, rfl, rfl, hinsertion⟩ := Stroke.exists_start hboundary c
  have hpair : stroke.pair.2.Aligned :=
    haligned.pair (by rw [hinsertion]; exact List.cons_ne_nil _ _)
  have hsublist := Stroke.sublist_result hpair.cut
  obtain ⟨rest, hresult, hcaret⟩ := hpair.exists_result
  -- The rules for pairs leave the document and the typed character as they are.
  obtain ⟨insertion, heq⟩ := stroke.exists_pair_eq
  have htyped : stroke.pair.2.typed = stroke.typed := by rw [heq]
  have hsame : stroke.pair.2.document = stroke.document := by rw [heq]
  rw [htyped] at hresult hcaret
  rw [hsame] at hsublist
  exact ⟨ofStroke stroke.pair.2, press_type hdocument hstart, settled_of_typed hresult hcaret,
    hsublist⟩

theorem exists_press_enter {session : Session} (hboundary : session.text.Boundary session.caret)
    (hsize : session.text.byteSize + 1 < Word.bound) :
    ∃ next, session.press .enter = .ok next ∧ next.Settled (some .enter) ∧
      session.text.Sublist next.text := by
  obtain ⟨_, document, _, _, hdocument, htext, _⟩ := Protobuf.exists_document hsize
  rw [← htext] at hboundary ⊢
  obtain ⟨stroke, hstart, haligned, rfl, htyped, hinsertion⟩ :=
    Stroke.exists_start hboundary '\n'
  rw [← htyped] at hinsertion
  obtain ⟨front, back, caret, hlaid, hcaret⟩ := Stroke.exists_layOut haligned hinsertion
  have hsublist := @Stroke.sublist_result _
    { stroke with insertion := front ++ back, caret } haligned.cut
  refine ⟨ofStroke { stroke with insertion := front ++ back, caret }, ?_,
    ⟨Stroke.boundary_result haligned.cut hcaret, nofun⟩, hsublist⟩
  apply Fault.bind_eq_ok_iff.mpr ⟨stroke.document, hdocument, ?_⟩
  apply Fault.bind_eq_ok_iff.mpr ⟨stroke, hstart, ?_⟩
  exact Fault.bind_eq_ok_iff.mpr ⟨_, hlaid, rfl⟩

theorem exists_press {session : Session} (hboundary : session.text.Boundary session.caret)
    (hsize : session.text.byteSize + 1 < Word.bound) (key : TypingKey) :
    ∃ next, session.press key.key = .ok next ∧ next.Settled (some key) ∧
      session.text.Sublist next.text := by
  cases key with
  | char c => exact exists_press_char hboundary hsize c
  | enter => exact exists_press_enter hboundary hsize

/-! ## Any number of keys -/

theorem run_typing (session : Session) (keys : List TypingKey)
    (hboundary : session.text.Boundary session.caret)
    (hsizes : ∀ front key back reached, keys = front ++ key :: back →
      session.run front = .ok reached → reached.text.byteSize < 4294967295) :
    ∀ front back, keys = front ++ back → ∃ reached, session.run front = .ok reached ∧
      reached.text.Boundary reached.caret ∧ reached.caret ≤ reached.text.byteSize ∧
      (∀ c, front.getLast? = some (.char c) →
        String.utf8EncodeChar c <:+ reached.text.bytes.take reached.caret) ∧
      session.text.Sublist reached.text := by
  intro front back hkeys
  -- The invariant is carried from each part of the run to the part with one key more.
  induction front using List.reverseRecOn generalizing back with
  | nil =>
      exact ⟨session, session.run_nil, hboundary, hboundary.le, nofun, List.Sublist.refl _⟩
  | append_singleton front key ih =>
      rw [List.append_assoc, List.singleton_append] at hkeys
      obtain ⟨reached, hreached, hcaret, _, _, hkept⟩ := ih (key :: back) hkeys
      have hsize := hsizes front key back reached hkeys hreached
      obtain ⟨next, hnext, hsettled, hgrown⟩ :=
        exists_press hcaret (Nat.succ_lt_succ hsize) key
      refine ⟨next, ?_, hsettled.boundary, hsettled.boundary.le, fun c hc => ?_,
        hkept.trans hgrown⟩
      · rw [run_snoc]
        exact Fault.bind_eq_ok_iff.mpr ⟨reached, hreached, hnext⟩
      · rw [List.getLast?_concat] at hc
        exact hsettled.typed c hc

-- A bracket that brings its partner, a long character between them, and the partner typed over.
theorem run_typing_over_partner :
    ∃ reached, Session.run ⟨[], 0⟩ [.char '(', .char 'é', .char ')'] = .ok reached ∧
      reached = ⟨['(', 'é', ')'], 4⟩ ∧ reached.text.Boundary reached.caret ∧
      String.utf8EncodeChar ')' <:+ reached.text.bytes.take reached.caret := by
  have hone : Session.run ⟨[], 0⟩ [.char '('] = .ok ⟨['(', ')'], 1⟩ := by cbv
  have htwo : Session.run ⟨[], 0⟩ [.char '(', .char 'é'] = .ok ⟨['(', 'é', ')'], 3⟩ := by cbv
  have hall : Session.run ⟨[], 0⟩ [.char '(', .char 'é', .char ')'] =
      .ok ⟨['(', 'é', ')'], 4⟩ := by cbv
  have hsizes : ∀ front key back reached,
      [TypingKey.char '(', .char 'é', .char ')'] = front ++ key :: back →
      Session.run ⟨[], 0⟩ front = .ok reached → reached.text.byteSize < 4294967295 := by
    intro front key back reached hkeys hrun
    -- The texts that are read are those before each of the three keys.
    cases front with
    | nil =>
        cases hrun
        decide
    | cons a front =>
        cases front with
        | nil =>
            cases hkeys
            rw [hone] at hrun
            cases hrun
            decide
        | cons b front =>
            cases front with
            | nil =>
                cases hkeys
                rw [htwo] at hrun
                cases hrun
                decide
            | cons d front =>
                have hlength := congrArg List.length hkeys
                simp at hlength
  obtain ⟨reached, hreached, hboundary, _, htyped, _⟩ := run_typing ⟨[], 0⟩
    [.char '(', .char 'é', .char ')'] (by decide) hsizes [.char '(', .char 'é', .char ')'] [] rfl
  have heq : reached = ⟨['(', 'é', ')'], 4⟩ := by
    rw [hall] at hreached
    exact (Except.ok.inj hreached).symm
  exact ⟨reached, hreached, heq, hboundary, htyped ')' rfl⟩

end Session

end Keystroke
