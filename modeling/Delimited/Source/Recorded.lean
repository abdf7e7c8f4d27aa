import Delimited.Source.Basic

/-!
# Sources that keep their answers

A source is recorded by keeping what it has answered. The record shows how often it was read, and
what came of each read.
-/

namespace Delimited

/-- The byte that is answered, if it is one. -/
def Answer.byte? {ε : Type} : Answer ε → Option UInt8
  | .byte b => some b
  | .stop _ => none

/-- A source with its answers so far. -/
structure Recorded (σ ε : Type) where
  source : σ
  /-- One answer for each read, earliest first. -/
  answers : List (Answer ε) := []

namespace Recorded

variable {σ ε : Type} [Source σ ε]

/-- Reads once, and keeps the answer. -/
def read (r : Recorded σ ε) : Answer ε × Recorded σ ε :=
  let answered := Source.read r.source
  (answered.1, ⟨answered.2, r.answers ++ [answered.1]⟩)

theorem left_read {r t : Recorded σ ε} {b : UInt8} (h : r.read = (.byte b, t)) :
    Source.left t.source < Source.left r.source := by
  obtain ⟨hanswer, rfl⟩ := Prod.mk.inj h
  exact Source.left_read (Prod.ext hanswer rfl)

instance : Source (Recorded σ ε) ε where
  read := read
  left r := Source.left r.source
  left_read := left_read

end Recorded
end Delimited
