import Delimited.Scan.Scanner

/-!
# Scanning makes progress

A scan that succeeds never leaves more bytes pending than it found, and leaves fewer whenever a
byte was in view. So does the search for a record.
-/

namespace Delimited.Scanner

variable {σ ε : Type} [Source σ ε]

private theorem pending_le_of_skipLineFeed {s t : Scanner σ} (h : skipLineFeed s = .ok () t) :
    t.pending ≤ s.pending := by
  unfold skipLineFeed at h
  split at h
  · next hl => exact Nat.le_of_lt (pending_lt_of_consume h (by simp [hl]))
  · cases h
    exact Nat.le_refl _

/-- A delimiter is consumed. -/
theorem pending_lt_of_closeField {s t : Scanner σ} {delimiter : Delimiter} {boundary : Boundary}
    (h : closeField delimiter s = .ok boundary t) (hs : s.ahead ≠ none) :
    t.pending < s.pending := by
  unfold closeField at h
  split at h
  · cases h
  · next u hu =>
    have hlt := pending_lt_of_consume hu hs
    split at h
    · cases h; exact hlt
    · cases h; exact hlt
    · split at h
      · cases h
      · next v hv =>
        cases h
        exact Nat.lt_of_le_of_lt (pending_le_of_skipLineFeed hv) hlt

private theorem step_not_ended {d : Dialect} {phase next : Phase} {b : UInt8}
    {action : Action} (h : phase.step d (some b) = (next, action))
    (hs : phase ≠ .ended) : next ≠ .ended ∧ action ≠ .finish := by
  unfold Phase.step at h
  split at h
  case h_1 => exact absurd rfl hs
  case h_2 hn => cases hn
  all_goals
    split at h <;> obtain ⟨rfl, rfl⟩ := Prod.mk.inj h <;>
      exact ⟨Phase.noConfusion, Action.noConfusion⟩

private theorem pending_finish (phase : Phase) (s : Scanner σ) :
    (s.finish phase).pending = s.pending := by
  unfold finish
  split <;> rfl

private theorem pending_le_of_closeField {s t : Scanner σ} {delimiter : Delimiter}
    {boundary : Boundary} (h : closeField delimiter s = .ok boundary t)
    (hs : s.ahead ≠ none) : t.pending ≤ s.pending :=
  Nat.le_of_lt (pending_lt_of_closeField h hs)

/-- A scan never leaves more bytes pending. -/
theorem pending_le_of_readFrom {alloc : Allocator} {phase : Phase} {s t : Scanner σ}
    {boundary : Boundary} (h : readFrom alloc phase s = .ok boundary t) :
    t.pending ≤ s.pending := by
  fun_induction readFrom alloc phase s with
  | case1 => cases h; exact Nat.le_of_eq (pending_finish _ _)
  | case2 => cases h
  | case3 phase s b hl _ _ _ _ _ ha ih =>
    have := pending_lt_of_consume_of_eq ha (by simp [hl]) rfl rfl
    exact Nat.le_of_lt (Nat.lt_of_le_of_lt (ih h) this)
  | case4 => cases h
  | case5 phase s b hl _ _ _ ha ih =>
    have := pending_lt_of_consume_of_eq ha (by simp [hl]) (ahead_dropping _ _ _)
      (source_dropping _ _ _)
    exact Nat.le_of_lt (Nat.lt_of_le_of_lt (ih h) this)
  | case6 => cases h
  | case7 _ _ _ _ _ _ ih => exact ih h
  | case8 _ _ _ hl => exact pending_le_of_closeField h (by simp [hl])
  | case9 => cases h; exact Nat.le_of_eq (pending_finish _ _)

/-- A scan consumes the byte in view, unless it starts out at the end. -/
theorem pending_lt_of_readFrom {alloc : Allocator} {phase : Phase} {s t : Scanner σ}
    {boundary : Boundary} (h : readFrom alloc phase s = .ok boundary t)
    (hs : s.ahead ≠ none) (hphase : phase ≠ .ended) : t.pending < s.pending := by
  fun_induction readFrom alloc phase s with
  | case1 _ _ hl => exact absurd hl hs
  | case2 => cases h
  | case3 _ _ _ _ _ _ _ _ _ ha =>
    have := pending_lt_of_consume_of_eq ha hs rfl rfl
    exact Nat.lt_of_le_of_lt (pending_le_of_readFrom h) this
  | case4 => cases h
  | case5 _ _ _ _ _ _ _ ha =>
    have := pending_lt_of_consume_of_eq ha hs (ahead_dropping _ _ _) (source_dropping _ _ _)
    exact Nat.lt_of_le_of_lt (pending_le_of_readFrom h) this
  | case6 => cases h
  | case7 _ _ _ _ _ ht ih => exact ih h hs (step_not_ended ht hphase).1
  | case8 => exact pending_lt_of_closeField h hs
  | case9 _ _ _ _ _ ht => exact absurd rfl (step_not_ended ht hphase).2

/-- A field that is not the last of its record consumes at least its separator. -/
theorem pending_lt_of_readField_field {alloc : Allocator} {s t : Scanner σ}
    (h : readField alloc s = .ok .field t) : t.pending < s.pending := by
  by_cases hl : s.ahead = none
  · unfold readField readFrom at h
    split at h
    · cases h
    · next hs => exact absurd hl (by simp_all)
  · exact pending_lt_of_readFrom (s := { s with field := s.field.clear }) h hl
      Phase.noConfusion

/-- A successful scan with a byte in view consumes at least that one. -/
theorem pending_lt_of_readField {alloc : Allocator} {s t : Scanner σ} {boundary : Boundary}
    (h : readField alloc s = .ok boundary t) (hs : s.ahead ≠ none) : t.pending < s.pending :=
  pending_lt_of_readFrom (s := { s with field := s.field.clear }) h hs Phase.noConfusion

/-- A scan never leaves more bytes pending than it found. -/
theorem pending_le_of_readField {alloc : Allocator} {s t : Scanner σ} {boundary : Boundary}
    (h : readField alloc s = .ok boundary t) : t.pending ≤ s.pending :=
  pending_le_of_readFrom (s := { s with field := s.field.clear }) h

private theorem pending_le_of_skipLineEndings {s t : Scanner σ}
    (h : skipLineEndings s = .ok () t) : t.pending ≤ s.pending := by
  fun_induction skipLineEndings s with
  | case1 => cases h; exact Nat.le_refl _
  | case2 s b hl _ _ _ ha ih =>
    exact Nat.le_trans (ih h) (Nat.le_of_lt (pending_lt_of_consume ha (by simp [hl])))
  | case3 => cases h
  | case4 => cases h; exact Nat.le_refl _

/-- The search for a record never leaves more bytes pending than it found. -/
theorem pending_le_of_skipBlankLines {s t : Scanner σ} (h : skipBlankLines s = .ok () t) :
    t.pending ≤ s.pending := by
  unfold skipBlankLines at h
  split at h
  · exact pending_le_of_skipLineEndings h
  · cases h
    exact Nat.le_refl _

end Delimited.Scanner
