import Delimited.Scan.Progress

/-!
# Reading a row

A row is read field by field until one closes the record. Every field is handed over as soon as it
is read, so that a row that is cut off by an error has been handed over in part.
-/

namespace Delimited.Scanner

variable {σ ε β : Type} [Source σ ε]

/-- Reads the rest of a row, handing each field to `take`, whose state runs along. Gives the number
of fields, on top of those counted before. This loop is common to the operations `read_list`,
`read_record` and `infer_keys`. -/
def readRow (alloc : Allocator) (take : List UInt8 → β → EStateM.Result GrowthError β Unit)
    (fields : Nat) (s : Scanner σ) (taken : β) : EStateM.Result (ReadError ε) (Scanner σ × β) Nat :=
  match _h : readField alloc s with
  | .error e t => .error e (t, taken)
  | .ok .record t =>
    match take t.field.toList taken with
    | .error e taken => .error (.buffer e) (t, taken)
    | .ok () taken => .ok (fields + 1) (t, taken)
  | .ok .field t =>
    match take t.field.toList taken with
    | .error e taken => .error (.buffer e) (t, taken)
    | .ok () taken => readRow alloc take (fields + 1) t taken
termination_by s.pending
decreasing_by exact pending_lt_of_readField_field _h

/-- A row that is read to its end consumes at least the byte that was in view. -/
theorem pending_lt_of_readRow {alloc : Allocator}
    {take : List UInt8 → β → EStateM.Result GrowthError β Unit} {fields count : Nat}
    {s t : Scanner σ} {taken taken' : β}
    (h : readRow alloc take fields s taken = .ok count (t, taken')) (hs : s.ahead ≠ none) :
    t.pending < s.pending := by
  have hle : ∀ {fields : Nat} {s : Scanner σ} {taken : β},
      readRow alloc take fields s taken = .ok count (t, taken') → t.pending ≤ s.pending := by
    intro fields s taken h
    fun_induction readRow alloc take fields s taken with
    | case1 => cases h
    | case2 => cases h
    | case3 _ _ _ _ hfield => cases h; exact pending_le_of_readField hfield
    | case4 => cases h
    | case5 _ _ _ _ hfield _ _ ih =>
      exact Nat.le_trans (ih h) (Nat.le_of_lt (pending_lt_of_readField_field hfield))
  unfold readRow at h
  split at h
  · cases h
  · next hfield =>
    split at h
    · cases h
    · cases h
      exact pending_lt_of_readField hfield hs
  · next hfield =>
    split at h
    · cases h
    · exact Nat.lt_of_le_of_lt (hle h) (pending_lt_of_readField hfield hs)

end Delimited.Scanner
