import Delimited.Proofs.Preservation
import Delimited.Scan.Rounds
import Delimited.Source.Contents
import Mathlib.Data.List.Infix

/-!
# What remains to be scanned

Before a scanner there is the byte in view and what the source gives before it stops. Whatever the
scanner is asked for leaves the end of that, and takes no more rounds than there are bytes to look
at, each in few phases. A scan that succeeds takes at least the byte in view.
-/

namespace Delimited

/-- No more than two transitions in a row leave a byte in view. -/
theorem Phase.rank_le_two (phase : Phase) : phase.rank ≤ 2 := by
  cases phase <;> decide

namespace Scanner

variable {σ ε : Type} [Source σ ε]

/-- The bytes that are not consumed: the one in view, and those that the source gives before it
stops. -/
def remaining (s : Scanner σ) : List UInt8 :=
  match s.ahead, s.source with
  | none, _ => []
  | some b, none => [b]
  | some b, some source => b :: (Source.drain source).1

variable {s t : Scanner σ} {alloc : Allocator} {boundary : Boundary}

/-- Nothing remains where no byte is in view. -/
theorem remaining_eq_nil_iff : s.remaining = [] ↔ s.ahead = none := by
  unfold remaining
  split <;> simp_all

/-- A scanner that is not at the end has its byte in view before it. -/
theorem length_remaining_pos (hs : s.ahead ≠ none) : 0 < s.remaining.length :=
  List.length_pos_iff.mpr (mt remaining_eq_nil_iff.mp hs)

theorem ahead_ne_none_of_isAtEnd (hend : s.isAtEnd = false) : s.ahead ≠ none := by
  intro hs
  simp [isAtEnd, hs] at hend

/-- What remains depends on the byte in view and the source alone. -/
theorem remaining_of_eq (ha : t.ahead = s.ahead) (hs : t.source = s.source) :
    t.remaining = s.remaining := by
  simp only [remaining, ha, hs]

@[simp] theorem remaining_dropping (s : Scanner σ) (phase : Phase) (b : UInt8) :
    (s.dropping phase b).remaining = s.remaining :=
  remaining_of_eq (ahead_dropping phase b s) (source_dropping phase b s)

@[simp] theorem remaining_finish (s : Scanner σ) (phase : Phase) :
    (s.finish phase).remaining = s.remaining := by
  unfold finish
  split <;> rfl

@[simp] theorem field_finish (s : Scanner σ) (phase : Phase) :
    (s.finish phase).field = s.field := by
  unfold finish
  split <;> rfl

/-- Consuming the byte in view leaves those behind it, even if it fails, and the field as it is. -/
theorem ends_consume (hs : s.ahead ≠ none) :
    Ends (fun t ↦ t.remaining = s.remaining.tail ∧ t.field = s.field)
      (fun _ _ ↦ True) (consume s) := by
  obtain ⟨b, hb⟩ := Option.ne_none_iff_exists'.mp hs
  unfold consume
  cases hsource : s.source with
  | none => simp [Ends, remaining, hb, hsource]
  | some source =>
    cases hread : Source.read source with
    | mk answer source' =>
      cases answer with
      | byte c => simp [Ends, remaining, hb, hsource, hread, Source.drain_of_byte hread]
      | stop ending =>
        cases ending with
        | done => simp [Ends, remaining, hb, hsource, hread, Source.drain_of_stop hread]
        | failure cause => simp [Ends, remaining, hb, hsource, hread, Source.drain_of_stop hread]

/-- A byte that is consumed remains no longer. -/
theorem length_remaining_consume (h : consume s = .ok () t) (hs : s.ahead ≠ none) :
    t.remaining.length + 1 = s.remaining.length := by
  obtain ⟨htail, -⟩ := (ends_consume hs).of_ok h
  have hpos := length_remaining_pos hs
  rw [htail, List.length_tail]
  omega

section Rounds

/-- The search for a record ends. -/
theorem rounds_skipLineEndings (s : Scanner σ) :
    ∃ rounds ≤ s.remaining.length + 1, Rounds seekRound rounds s (skipLineEndings s) := by
  fun_induction skipLineEndings s with
  | case1 s hl => exact ⟨1, by omega, .last (by simp [seekRound, hl])⟩
  | case2 s b hl next hs t ht ih =>
    obtain ⟨rounds, hle, hends⟩ := ih
    have := length_remaining_consume ht (by simp [hl])
    exact ⟨rounds + 1, by omega, .more (by simp [seekRound, hl, hs, ht]) hends⟩
  | case3 s b hl next hs e t ht =>
    exact ⟨1, by omega, .last (by simp [seekRound, hl, hs, ht])⟩
  | case4 s b hl hs => exact ⟨1, by omega, .last (by simp [seekRound, hl])⟩

/-- A scan ends, from whatever phase. Rounds that consume a byte lower what remains, and the others
lower the rank of the phase. -/
theorem rounds_readFrom (alloc : Allocator) (phase : Phase) (s : Scanner σ) :
    ∃ rounds ≤ 3 * s.remaining.length + phase.rank + 1,
      Rounds (scanRound alloc) rounds (phase, s) (readFrom alloc phase s) := by
  fun_induction readFrom alloc phase s with
  | case1 phase s hl => exact ⟨1, by omega, .last (by simp [scanRound, hl])⟩
  | case2 phase s b hl next hs e field hp =>
    exact ⟨1, by omega, .last (by simp [scanRound, hl, hs, hp])⟩
  | case3 phase s b hl next hs field hp t ht ih =>
    obtain ⟨rounds, hle, hends⟩ := ih
    have hless : t.remaining.length + 1 = s.remaining.length :=
      length_remaining_consume (s := { s with field }) ht (by simp [hl])
    have hrank := next.rank_le_two
    rw [hl] at ht
    exact ⟨rounds + 1, by omega, .more (by simp [scanRound, hl, hs, hp, ht]) hends⟩
  | case4 phase s b hl next hs field hp e t ht =>
    rw [hl] at ht
    exact ⟨1, by omega, .last (by simp [scanRound, hl, hs, hp, ht])⟩
  | case5 phase s b hl next hs t ht ih =>
    obtain ⟨rounds, hle, hends⟩ := ih
    have hless := length_remaining_consume ht (by simp [ahead_dropping, hl])
    rw [remaining_dropping] at hless
    have hrank := next.rank_le_two
    exact ⟨rounds + 1, by omega, .more (by simp [scanRound, hl, hs, ht]) hends⟩
  | case6 phase s b hl next hs e t ht =>
    exact ⟨1, by omega, .last (by simp [scanRound, hl, hs, ht])⟩
  | case7 phase s b hl next hs ih =>
    obtain ⟨rounds, hle, hends⟩ := ih
    have hrank := Phase.rank_lt_of_stay hs
    exact ⟨rounds + 1, by omega, .more (by simp [scanRound, hl, hs]) hends⟩
  | case8 phase s b hl next delimiter hs =>
    exact ⟨1, by omega, .last (by simp [scanRound, hl, hs])⟩
  | case9 phase s b hl next hs =>
    exact ⟨1, by omega, .last (by simp [scanRound, hl, hs])⟩

end Rounds

section Progress

/-- Whatever scanning does, the end of what remained is left. -/
theorem preserved_remaining (found : List UInt8) :
    Preserved (σ := σ) (fun t ↦ t.remaining <:+ found) fun _ _ ↦ True where
  note h _ := h
  clear h := h
  push h _ := h
  refused h _ _ := ⟨h, trivial⟩
  consume h hs := by
    apply (ends_consume hs).imp
    rintro t ⟨htail, -⟩
    rw [htail]
    exact (List.tail_suffix _).trans h

/-- The search for a record leaves the end of what remained. -/
theorem remaining_of_skipBlankLines (h : skipBlankLines s = .ok () t) :
    t.remaining <:+ s.remaining :=
  ((preserved_remaining s.remaining).skipBlankLines (List.suffix_refl _)).of_ok h

/-- The scanner is where the other one was, or has consumed at least the byte in view. -/
def StaysOrMoves (s t : Scanner σ) : Prop :=
  t.ahead = s.ahead ∧ t.source = s.source ∨ t.remaining <:+ s.remaining.tail

theorem preserved_staysOrMoves (s : Scanner σ) :
    Preserved (StaysOrMoves s) fun _ _ ↦ True where
  note h _ := h
  clear h := h
  push h _ := h
  refused h _ _ := ⟨h, trivial⟩
  consume h ht := by
    apply (ends_consume ht).imp
    rintro u ⟨htail, -⟩
    right
    rw [htail]
    obtain ⟨hahead, hsource⟩ | hmoved := h
    · rw [remaining_of_eq hahead hsource]
    · exact (List.tail_suffix _).trans hmoved

/-- A scan that succeeds consumes the byte in view, if there is one. -/
theorem remaining_of_readField (h : readField alloc s = .ok boundary t) :
    t.remaining <:+ s.remaining.tail := by
  by_cases hs : s.ahead = none
  · rw [readField_of_ahead_eq_none alloc hs] at h
    cases h
    simp [remaining, hs]
  obtain ⟨hahead, hsource⟩ | hmoved :=
    ((preserved_staysOrMoves s).readField (.inl ⟨rfl, rfl⟩)).of_ok h
  · -- A scanner that stayed where it was would have as much pending as before.
    have hless := pending_lt_of_readField h hs
    simp only [pending, hahead, hsource] at hless
    omega
  · exact hmoved

/-- A scan that succeeds with bytes in view takes at least one of them. -/
theorem length_remaining_readField (h : readField alloc s = .ok boundary t)
    (hs : s.ahead ≠ none) : t.remaining.length + 1 ≤ s.remaining.length := by
  have hle := (remaining_of_readField h).length_le
  have hpos := length_remaining_pos hs
  rw [List.length_tail] at hle
  omega

end Progress

end Scanner
end Delimited
