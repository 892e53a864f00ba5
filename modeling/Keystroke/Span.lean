import Keystroke.Word

/-!
# Spans

A span is a pair of 32-bit byte offsets. It usually runs forward, but nothing here asks it to: a
span that stops before it starts holds no offset and has no length.
-/

namespace Keystroke

@[ext] structure Span where
  start : Nat
  stop : Nat
  start_lt : start < Word.bound
  stop_lt : stop < Word.bound

instance : DecidableEq Span := fun _ _ => decidable_of_iff _ Span.ext_iff.symm

namespace Span

def ofRange (start stop : Nat) : Except Fault Span :=
  if hstart : start < Word.bound then
    if hstop : stop < Word.bound then .ok ⟨start, stop, hstart, hstop⟩
    else .error (.spanStopTooLarge stop)
  else .error (.spanStartTooLarge start)

instance : Inhabited Span := ⟨⟨0, 0, by decide, by decide⟩⟩

def length (span : Span) : Except Fault Nat := Word.sub span.stop span.start

def isEmpty (span : Span) : Bool := span.start == span.stop

def holdsAfter (span : Span) (offset : Nat) : Bool :=
  span.start ≤ offset && offset < span.stop

def holdsBefore (span : Span) (offset : Nat) : Bool :=
  span.start < offset && offset ≤ span.stop

/-- The offset of the last byte, or 0 where there is none before the stop. -/
def last (span : Span) : Nat := span.stop - 1

def render (span : Span) : String :=
  let start := span.start
  let stop := span.stop
  s!"{start}..{stop}"

theorem ofRange_eq_ok_iff {start stop : Nat} {span : Span} :
    ofRange start stop = .ok span ↔ span.start = start ∧ span.stop = stop := by
  unfold ofRange
  split
  · split
    · simp only [Except.ok.injEq]
      constructor
      · intro h
        subst h
        exact ⟨rfl, rfl⟩
      · rintro ⟨rfl, rfl⟩
        rfl
    · have := span.stop_lt
      simp only [reduceCtorEq, false_iff]
      omega
  · have := span.start_lt
    simp only [reduceCtorEq, false_iff]
    omega

theorem holdsAfter_iff {span : Span} {offset : Nat} :
    span.holdsAfter offset = true ↔ span.start ≤ offset ∧ offset < span.stop := by
  rw [holdsAfter, Bool.and_eq_true, decide_eq_true_eq, decide_eq_true_eq]

/-- The byte before an offset is the byte after the offset one less. -/
theorem holdsBefore_succ (span : Span) (offset : Nat) :
    span.holdsBefore (offset + 1) = span.holdsAfter offset := by
  rw [Bool.eq_iff_iff]
  simp only [holdsBefore, holdsAfter, Bool.and_eq_true, decide_eq_true_eq]
  omega

end Span

end Keystroke
