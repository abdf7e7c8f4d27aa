import Delimited.Scan.Scanner

/-!
# Scanning step by step

What a scan does next, for every action that the phase and the byte in view call for.
-/

namespace Delimited.Scanner

variable {σ ε : Type} [Source σ ε]
variable {alloc : Allocator} {phase next : Phase} {s t : Scanner σ} {b : UInt8}

/-- At the end of the stream there are no line endings to skip. -/
theorem skipLineEndings_of_ahead_eq_none (h : s.ahead = none) : skipLineEndings s = .ok () s := by
  rw [skipLineEndings]
  split
  · rfl
  · next hb =>
    rw [h] at hb
    cases hb

/-- A line ending is consumed, if the byte in view belongs to one. -/
theorem skipLineEndings_eq (h : s.ahead = some b) :
    skipLineEndings s =
      match Phase.step s.dialect .betweenRecords (some b) with
      | (_, .drop) =>
        match consume s with
        | .ok () t => skipLineEndings t
        | .error e t => .error e t
      | _ => .ok () s := by
  rw [skipLineEndings]
  split
  · next hb =>
    rw [h] at hb
    cases hb
  · next c hc =>
    rw [h] at hc
    cases hc
    obtain ⟨next, action⟩ := Phase.step s.dialect .betweenRecords (some b)
    cases action with
    | drop =>
      dsimp only
      split <;> next hc => simp only [hc]
    | _ => rfl

/-- One step of a scan. -/
theorem readFrom_eq :
    readFrom alloc phase s =
      match s.ahead with
      | none => .ok .record (s.finish phase)
      | some b =>
        match phase.step s.dialect (some b) with
        | (next, .append) =>
          match Buffer.push alloc b s.field with
          | .error e field => .error (.buffer e) { s with field }
          | .ok () field =>
            match consume { s with field } with
            | .ok () t => readFrom alloc next t
            | .error e t => .error e t
        | (next, .drop) =>
          match consume (s.dropping phase b) with
          | .ok () t => readFrom alloc next t
          | .error e t => .error e t
        | (next, .stay) => readFrom alloc next s
        | (_, .close delimiter) => closeField delimiter s
        | (_, .finish) => .ok .record (s.finish phase) := by
  rw [readFrom]
  split
  · next h => simp only [h]
  · next h =>
    simp only [h]
    split
    · next hs =>
      rw [hs]
      dsimp only
      generalize Buffer.push alloc _ s.field = pushed
      cases pushed with
      | error => rfl
      | ok =>
        dsimp only
        rw [← h]
        split <;> next hc => simp only [hc]
    · next hs =>
      simp only [hs]
      split <;> next hc => simp only [hc]
    · next hs => simp only [hs]
    · next hs => simp only [hs]
    · next hs => simp only [hs]

/-- At the end of the stream the field is finished. -/
theorem readFrom_of_ahead_eq_none (h : s.ahead = none) :
    readFrom alloc phase s = .ok .record (s.finish phase) := by
  rw [readFrom_eq, h]

/-- At the end of the stream there are no blank lines to skip. -/
theorem skipBlankLines_of_ahead_eq_none (h : s.ahead = none) : skipBlankLines s = .ok () s := by
  unfold skipBlankLines
  split
  · exact skipLineEndings_of_ahead_eq_none h
  · rfl

/-- At the end of the stream a scan gives an empty field that ends its record. -/
theorem readField_of_ahead_eq_none (alloc : Allocator) (h : s.ahead = none) :
    readField alloc s = .ok .record { s with field := s.field.clear } :=
  readFrom_of_ahead_eq_none (s := { s with field := s.field.clear }) h

/-- A byte of the field is added to it and consumed. -/
theorem readFrom_append {field : Buffer UInt8} (h : s.ahead = some b)
    (hs : phase.step s.dialect (some b) = (next, .append))
    (hp : Buffer.push alloc b s.field = .ok () field) (hc : consume { s with field } = .ok () t) :
    readFrom alloc phase s = readFrom alloc next t := by
  rw [readFrom_eq, h]
  dsimp only
  rw [hs]
  dsimp only
  rw [hp, ← h]
  dsimp only
  rw [hc]

/-- A failure behind a byte of the field is the failure of the scan. -/
theorem readFrom_append_error {field : Buffer UInt8} {e : ReadError ε} (h : s.ahead = some b)
    (hs : phase.step s.dialect (some b) = (next, .append))
    (hp : Buffer.push alloc b s.field = .ok () field) (hc : consume { s with field } = .error e t) :
    readFrom alloc phase s = .error e t := by
  rw [readFrom_eq, h]
  dsimp only
  rw [hs]
  dsimp only
  rw [hp, ← h]
  dsimp only
  rw [hc]

/-- A byte for which the field has no room fails the scan, and stays in view. -/
theorem readFrom_append_refused {field : Buffer UInt8} {e : GrowthError} (h : s.ahead = some b)
    (hs : phase.step s.dialect (some b) = (next, .append))
    (hp : Buffer.push alloc b s.field = .error e field) :
    readFrom alloc phase s = .error (.buffer e) { s with field } := by
  rw [readFrom_eq, h]
  dsimp only
  rw [hs]
  dsimp only
  rw [hp, ← h]

/-- A byte that is left out is consumed. -/
theorem readFrom_drop (h : s.ahead = some b)
    (hs : phase.step s.dialect (some b) = (next, .drop))
    (hc : consume (s.dropping phase b) = .ok () t) :
    readFrom alloc phase s = readFrom alloc next t := by
  rw [readFrom_eq, h]
  dsimp only
  rw [hs]
  dsimp only
  rw [hc]

/-- A failure behind a byte that is left out is the failure of the scan. -/
theorem readFrom_drop_error {e : ReadError ε} (h : s.ahead = some b)
    (hs : phase.step s.dialect (some b) = (next, .drop))
    (hc : consume (s.dropping phase b) = .error e t) : readFrom alloc phase s = .error e t := by
  rw [readFrom_eq, h]
  dsimp only
  rw [hs]
  dsimp only
  rw [hc]

/-- A byte that stays in view is looked at again in the next phase. -/
theorem readFrom_stay (h : s.ahead = some b)
    (hs : phase.step s.dialect (some b) = (next, .stay)) :
    readFrom alloc phase s = readFrom alloc next s := by
  rw [readFrom_eq, h]
  dsimp only
  rw [hs]

/-- A delimiter closes the field. -/
theorem readFrom_close {delimiter : Delimiter} (h : s.ahead = some b)
    (hs : phase.step s.dialect (some b) = (next, .close delimiter)) :
    readFrom alloc phase s = closeField delimiter s := by
  rw [readFrom_eq, h]
  dsimp only
  rw [hs]

/-- Where the stream has ended before, the field is finished again. -/
theorem readFrom_finish (h : s.ahead = some b)
    (hs : phase.step s.dialect (some b) = (next, .finish)) :
    readFrom alloc phase s = .ok .record (s.finish phase) := by
  rw [readFrom_eq, h]
  dsimp only
  rw [hs]

end Delimited.Scanner
