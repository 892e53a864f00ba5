import Keystroke.Document.Basic

/-!
# The token at an offset

An offset between two tokens belongs to the one before it or to the one after it, as the side says.
An offset that no token holds belongs to the sentinel.
-/

namespace Keystroke

inductive Side where
  | before
  | after
deriving DecidableEq

/-- The first place from `base` on, among `size` many, where `holds` fails, found by halving. It is
the first such place when the places where it holds come before all others. -/
def bisect (holds : Nat → Bool) (base size : Nat) : Nat :=
  if size = 0 then base
  else if size = 1 then if holds base then base + 1 else base
  else bisect holds (if holds (base + size / 2) then base + size / 2 else base) (size - size / 2)
termination_by size
decreasing_by omega

namespace Document

variable {κ : Type}

/-- The place of the token that holds the byte after an offset, in the list of all tokens. -/
def indexAfter (document : Document κ) (offset : Nat) : Nat :=
  let isBefore index := document.body[index]?.any (·.span.stop ≤ offset)
  let index := bisect isBefore 0 document.body.size
  if document.body[index]?.any (·.span.holdsAfter offset) then index else document.body.size

def indexBefore (document : Document κ) (offset : Nat) : Nat :=
  let isBefore index := document.body[index]?.any (·.span.stop < offset)
  let index := bisect isBefore 0 document.body.size
  if document.body[index]?.any (·.span.holdsBefore offset) then index
  else document.body.size

/-- The token at a place, the sentinel being the last. -/
def tokenAtIndex (document : Document κ) (index : Nat) : Token κ :=
  document.body[index]?.getD document.sentinel

def tokenAfter (document : Document κ) (offset : Nat) : Token κ :=
  document.tokenAtIndex (document.indexAfter offset)

def tokenBefore (document : Document κ) (offset : Nat) : Token κ :=
  document.tokenAtIndex (document.indexBefore offset)

/-- The token to which an offset belongs. Nothing is before offset 0. -/
def tokenAt (document : Document κ) (offset : Nat) : Side → Except Fault (Token κ)
  | .before =>
    if offset = 0 then .error .nothingBefore else .ok (document.tokenBefore offset)
  | .after => .ok (document.tokenAfter offset)

theorem tokenAt_after (document : Document κ) (offset : Nat) :
    document.tokenAt offset .after = .ok (document.tokenAfter offset) := rfl

theorem tokenAt_before (document : Document κ) {offset : Nat} (h : offset ≠ 0) :
    document.tokenAt offset .before = .ok (document.tokenBefore offset) := if_neg h

theorem tokenAt_before_ne_error (document : Document κ) {offset : Nat} (h : offset ≠ 0)
    (fault : Fault) : document.tokenAt offset .before ≠ .error fault := by
  rw [document.tokenAt_before h]
  exact nofun

theorem tokenAt_after_ne_error (document : Document κ) (offset : Nat) (fault : Fault) :
    document.tokenAt offset .after ≠ .error fault := by
  rw [document.tokenAt_after]
  exact nofun

/-- Whether what is typed at an offset becomes part of a token of some kinds: of one that goes on
there or, if it is still open, of one that stops there. The lookup before the offset is made only
where it cannot fail. -/
def isInside (document : Document κ) (isPart isOpen : κ → Bool) (offset : Nat) : Bool :=
  let after :=
    Fault.valueOf (document.tokenAt offset .after) (document.tokenAt_after_ne_error offset)
  if isPart after.kind then offset != after.span.start
  else if h : offset = 0 then false
  else
    let before :=
      Fault.valueOf (document.tokenAt offset .before) (document.tokenAt_before_ne_error h)
    isOpen before.kind

theorem isInside_eq (document : Document κ) (isPart isOpen : κ → Bool) (offset : Nat) :
    document.isInside isPart isOpen offset =
      if isPart (document.tokenAfter offset).kind then
        offset != (document.tokenAfter offset).span.start
      else offset != 0 && isOpen (document.tokenBefore offset).kind := by
  unfold isInside
  rw [Fault.valueOf_eq (document.tokenAt_after offset)]
  by_cases hzero : offset = 0
  · rw [dif_pos hzero, bne_eq_false_iff_eq.mpr hzero, Bool.false_and]
  · rw [dif_neg hzero, Fault.valueOf_eq (document.tokenAt_before hzero), bne_iff_ne.mpr hzero,
      Bool.true_and]

def isInString (document : Document κ) (offset : Nat) : Bool :=
  document.isInside document.classifier.isString document.classifier.isUnterminatedString offset

/-- After a line comment an offset is still in it, but after a block comment without an end it is
not. -/
def isInComment (document : Document κ) (offset : Nat) : Bool :=
  document.isInside document.classifier.isComment document.classifier.isLineComment offset

def isInCode (document : Document κ) (offset : Nat) : Bool :=
  !document.isInString offset && !document.isInComment offset

end Document

end Keystroke
