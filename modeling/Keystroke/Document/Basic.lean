import Keystroke.Protobuf.Report

/-!
# Documents

A text together with tokens that cover it. Each token starts where the one before it stops, the
first at offset 0, and a last empty token, the sentinel, stands at the end of the text.
-/

namespace Keystroke

def Chained {κ : Type} : Nat → List (Token κ) → Prop
  | _, [] => True
  | offset, token :: rest => token.span.start = offset ∧ Chained token.span.stop rest

structure Document (κ : Type) where
  text : Text
  /-- The tokens before the sentinel. -/
  body : TokenList κ
  sentinel : Token κ
  classifier : Classifier κ
  sentinel_isEnd : classifier.isEnd sentinel.kind
  chained : Chained 0 (body.push sentinel).toList
  sentinel_start : sentinel.span.start = text.byteSize
  sentinel_stop : sentinel.span.stop = text.byteSize

namespace Document

variable {κ : Type}

/-! ## Construction -/

/-- The first token, the first of them having number `index`, that does not start where the one
before it stops. -/
def firstGap? (index offset : Nat) : List (Token κ) → Option Fault
  | [] => none
  | token :: rest =>
    if token.span.start = offset then firstGap? (index + 1) token.span.stop rest
    else some (.tokenGap index token.span.start offset)

theorem firstGap?_eq_none_iff {index offset : Nat} {tokens : List (Token κ)} :
    firstGap? index offset tokens = none ↔ Chained offset tokens := by
  induction tokens generalizing index offset with
  | nil => simp [firstGap?, Chained]
  | cons token rest ih =>
    unfold firstGap? Chained
    split
    next h => simp [ih, h]
    next h => simp [h]

/-- The document with a given list of tokens, the last of which is to be the sentinel. -/
def ofTokens (text : Text) (tokens : TokenList κ) (classifier : Classifier κ) :
    Except Fault (Document κ) :=
  match tokens.back? with
  | none => .error .noTokens
  | some sentinel =>
    let body := tokens.pop
    if hend : classifier.isEnd sentinel.kind then
      match hgap : firstGap? 0 0 (body.push sentinel).toList with
      | some gap => .error gap
      | none =>
        if hspan : sentinel.span.start = text.byteSize ∧ sentinel.span.stop = text.byteSize then
          .ok {
            text, body, sentinel, classifier
            sentinel_isEnd := hend
            chained := firstGap?_eq_none_iff.mp hgap
            sentinel_start := hspan.1
            sentinel_stop := hspan.2 }
        else .error (.sentinelOffset sentinel.span.start text.byteSize)
    else .error .noEndSentinel

def protobuf (text : Text) : Except Fault (Document Kind) := do
  let tokens ← Protobuf.tokenize text
  ofTokens text tokens .protobuf

def protobufReporting (text : Text) (report : Report) :
    Except Fault (Document Kind × Report) := do
  let (tokens, report) ← Protobuf.tokenizeReporting text report
  let document ← ofTokens text tokens .protobuf
  .ok (document, report)

/-! ## Parts -/

/-- All tokens, the sentinel last. -/
def tokens (document : Document κ) : TokenList κ := document.body.push document.sentinel

/-- A document is made from a text, a list of tokens and a classifier just when these are its
parts. -/
theorem ofTokens_eq_ok_iff {text : Text} {tokens : TokenList κ} {classifier : Classifier κ}
    {document : Document κ} :
    ofTokens text tokens classifier = .ok document ↔
      document.text = text ∧ document.tokens = tokens ∧ document.classifier = classifier := by
  constructor
  · intro h
    unfold ofTokens at h
    split at h
    · cases h
    next sentinel hback =>
      dsimp only at h
      split at h
      next hend =>
        split at h
        · cases h
        next hgap =>
          split at h
          next hspan =>
            cases h
            refine ⟨rfl, ?_, rfl⟩
            obtain ⟨body, rfl⟩ := Array.back?_eq_some_iff.mp hback
            simp only [Document.tokens, Array.pop_push]
          next => cases h
      next => cases h
  · rintro ⟨rfl, rfl, rfl⟩
    obtain ⟨text, body, sentinel, classifier, hend, hchained, hstart, hstop⟩ := document
    unfold ofTokens Document.tokens
    split
    next hnone => simp at hnone
    next last hlast =>
      rw [Array.back?_push, Option.some.injEq] at hlast
      subst hlast
      simp only [Array.pop_push, hend, dite_true]
      split
      next gap hgap =>
        rw [Array.pop_push, firstGap?_eq_none_iff.mpr hchained] at hgap
        cases hgap
      next => rw [dif_pos ⟨hstart, hstop⟩]

def size (document : Document κ) : Nat := document.text.byteSize

def isUnclosedBlockComment (document : Document κ) (token : Token κ) : Bool :=
  document.classifier.isUnclosedBlockComment token document.text

def cut (document : Document κ) (caret : Nat) : Except Fault (Text × Text) :=
  if document.size < caret then .error (.offsetOutOfRange caret document.size)
  else
    match document.text.splitAt? caret with
    | some parts => .ok parts
    | none => .error (.insideCharacter caret)

theorem cut_eq_ok_iff {document : Document κ} {caret : Nat} {before after : Text} :
    document.cut caret = .ok (before, after) ↔
      document.text = before ++ after ∧ before.byteSize = caret := by
  rw [← Text.splitAt?_eq_some_iff]
  unfold cut
  split
  next hpast =>
    -- A cut inside the text leaves a first part that is no longer than the text.
    refine iff_of_false nofun fun hsplit => ?_
    obtain ⟨htext, hsize⟩ := Text.splitAt?_eq_some_iff.mp hsplit
    rw [size, htext, Text.byteSize_append] at hpast
    omega
  next => cases document.text.splitAt? caret <;> simp

def render (document : Document κ) : String :=
  let text := document.text.quote
  let count := document.tokens.size
  "Document \x7b " ++ s!"text: {text}, tokens: {count}, .." ++ " \x7d"

end Document

end Keystroke
