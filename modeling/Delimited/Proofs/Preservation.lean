import Delimited.Scan.Progress

/-!
# What scanning preserves

Scanning is made of few steps: events are noted, the field is cleared and filled, and the byte in
view is consumed. A condition that each of them preserves is preserved by everything that a scanner
is asked for.
-/

namespace Delimited

/-- The operation ends in a state as described. After a failure it also is as the error says. -/
def Ends {ε τ α : Type} (holds : τ → Prop) (failed : ε → τ → Prop) :
    EStateM.Result ε τ α → Prop
  | .ok _ t => holds t
  | .error e t => holds t ∧ failed e t

section Ends

variable {ε τ α : Type} {holds : τ → Prop} {failed : ε → τ → Prop}
  {result : EStateM.Result ε τ α} {t : τ}

theorem Ends.of_ok {a : α} (h : Ends holds failed result) (hr : result = .ok a t) : holds t := by
  rw [hr] at h
  exact h

theorem Ends.of_error {e : ε} (h : Ends holds failed result) (hr : result = .error e t) :
    holds t ∧ failed e t := by
  rw [hr] at h
  exact h

theorem Ends.imp {holds' : τ → Prop} (h : Ends holds failed result)
    (himp : ∀ t, holds t → holds' t) : Ends holds' failed result := by
  cases result with
  | ok a t => exact himp t h
  | error e t => exact ⟨himp t h.1, h.2⟩

end Ends

namespace Scanner

variable {σ ε : Type} [Source σ ε]

/-- The condition is preserved by every step that scanning is made of. A byte is consumed, or
refused its room in the field, only while one is in view. -/
structure Preserved (holds : Scanner σ → Prop) (failed : ReadError ε → Scanner σ → Prop) :
    Prop where
  note {s : Scanner σ} (h : holds s) (event : Event) : holds (s.note event)
  clear {s : Scanner σ} (h : holds s) : holds { s with field := s.field.clear }
  push {s : Scanner σ} {alloc : Allocator} {b : UInt8} {field : Buffer UInt8} (h : holds s)
    (hp : Buffer.push alloc b s.field = .ok () field) : holds { s with field }
  refused {s : Scanner σ} {alloc : Allocator} {b : UInt8} {e : GrowthError} {field : Buffer UInt8}
    (h : holds s) (hs : s.ahead ≠ none) (hp : Buffer.push alloc b s.field = .error e field) :
    holds { s with field } ∧ failed (.buffer e) { s with field }
  consume {s : Scanner σ} (h : holds s) (hs : s.ahead ≠ none) : Ends holds failed (consume s)

namespace Preserved

variable {holds : Scanner σ → Prop} {failed : ReadError ε → Scanner σ → Prop} {alloc : Allocator}
  {s : Scanner σ}

theorem finish (hp : Preserved holds failed) (h : holds s) (phase : Phase) :
    holds (s.finish phase) := by
  unfold Scanner.finish
  split
  · exact hp.note h _
  · exact h

theorem dropping (hp : Preserved holds failed) (h : holds s) (phase : Phase) (b : UInt8) :
    holds (s.dropping phase b) := by
  unfold Scanner.dropping
  split
  · exact hp.note h _
  · exact h

theorem skipLineEndings (hp : Preserved holds failed) (h : holds s) :
    Ends holds failed (Scanner.skipLineEndings s) := by
  fun_induction Scanner.skipLineEndings s with
  | case1 s hl => exact h
  | case2 s b hl next hs t ht ih => exact ih ((hp.consume h (by simp [hl])).of_ok ht)
  | case3 s b hl next hs e t ht => exact (hp.consume h (by simp [hl])).of_error ht
  | case4 s b hl hs => exact h

/-- The search for a record preserves the condition. -/
theorem skipBlankLines (hp : Preserved holds failed) (h : holds s) :
    Ends holds failed (Scanner.skipBlankLines s) := by
  unfold Scanner.skipBlankLines
  split
  · exact hp.skipLineEndings h
  · exact h

theorem skipLineFeed (hp : Preserved holds failed) (h : holds s) :
    Ends holds failed (Scanner.skipLineFeed s) := by
  unfold Scanner.skipLineFeed
  split
  · next hl => exact hp.consume h (by simp [hl])
  · exact h

theorem closeField (hp : Preserved holds failed) (h : holds s) (hs : s.ahead ≠ none)
    (delimiter : Delimiter) : Ends holds failed (Scanner.closeField delimiter s) := by
  unfold Scanner.closeField
  split
  · next ht => exact (hp.consume h hs).of_error ht
  · next t ht =>
    have hconsumed : holds t := (hp.consume h hs).of_ok ht
    cases delimiter with
    | separator => exact hconsumed
    | lineFeed => exact hconsumed
    | carriageReturn =>
      dsimp only
      split
      · next hu => exact (hp.skipLineFeed hconsumed).of_error hu
      · next hu => exact (hp.skipLineFeed hconsumed).of_ok hu

/-- A scan preserves the condition from whatever phase it begins in. -/
theorem readFrom (hp : Preserved holds failed) (h : holds s) (phase : Phase) :
    Ends holds failed (Scanner.readFrom alloc phase s) := by
  fun_induction Scanner.readFrom alloc phase s with
  | case1 phase s hl => exact hp.finish h phase
  | case2 phase s b hl next hs e field hpush => exact hp.refused h (by simp [hl]) hpush
  | case3 phase s b hl next hs field hpush t ht ih =>
    exact ih ((hp.consume (hp.push h hpush) (by simp [hl])).of_ok ht)
  | case4 phase s b hl next hs field hpush e t ht =>
    exact (hp.consume (hp.push h hpush) (by simp [hl])).of_error ht
  | case5 phase s b hl next hs t ht ih =>
    have hd : (s.dropping phase b).ahead ≠ none := by simp [ahead_dropping, hl]
    exact ih ((hp.consume (hp.dropping h phase b) hd).of_ok ht)
  | case6 phase s b hl next hs e t ht =>
    have hd : (s.dropping phase b).ahead ≠ none := by simp [ahead_dropping, hl]
    exact (hp.consume (hp.dropping h phase b) hd).of_error ht
  | case7 phase s b hl next hs ih => exact ih h
  | case8 phase s b hl next delimiter hs => exact hp.closeField h (by simp [hl]) delimiter
  | case9 phase s b hl next hs => exact hp.finish h phase

/-- A scan preserves the condition. -/
theorem readField (hp : Preserved holds failed) (h : holds s) :
    Ends holds failed (Scanner.readField alloc s) :=
  hp.readFrom (hp.clear h) .fieldStart

end Preserved
end Scanner
end Delimited
