import Delimited.Source.Basic

/-!
# Scripted sources

A script lists what the reads answer, one after the other. When it is over the stream is done,
and stays so.
-/

namespace Delimited

/-- The answers to the reads to come: a byte each, or a failure. -/
structure Script (ε : Type) where
  answers : List (Except ε UInt8)

namespace Script

variable {ε : Type}

/-- Part of a script: bytes in a row, or one failure. -/
inductive Part (ε : Type) where
  | run (bytes : List UInt8)
  | failure (cause : ε)

/-- The answers of one part. -/
def Part.answers : Part ε → List (Except ε UInt8)
  | .run bytes => bytes.map .ok
  | .failure cause => [.error cause]

/-- The script that plays its parts in order. -/
def ofParts (parts : List (Part ε)) : Script ε := ⟨parts.flatMap Part.answers⟩

/-- Gives the next answer. -/
def read (s : Script ε) : Answer ε × Script ε :=
  match s.answers with
  | [] => (.stop .done, s)
  | .ok b :: answers => (.byte b, ⟨answers⟩)
  | .error cause :: answers => (.stop (.failure cause), ⟨answers⟩)

theorem length_answers_read {s t : Script ε} {b : UInt8} (h : s.read = (.byte b, t)) :
    t.answers.length < s.answers.length := by
  unfold read at h
  split at h
  · cases h
  · next hs => cases h; simp [hs]
  · cases h

instance : Source (Script ε) ε where
  read := read
  left s := s.answers.length
  left_read := length_answers_read

end Script
end Delimited
