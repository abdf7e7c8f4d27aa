import Delimited.Proofs.Bookkeeping
import Mathlib.Algebra.Group.Nat.Defs
import Mathlib.Order.Bounds.Basic

/-!
# The capacity of a buffer

While the storage is kept, the capacity of a buffer depends on two numbers only: the capacity that
it began with, and the largest number of slots that it has been asked for with success. How the
demand came up, in many small steps or at once, makes no difference.
-/

namespace Delimited

/-- A capacity that is found is the least one that reaches the demand, among those that doubling the
first one gives. -/
theorem isLeast_of_doubledCapacity? {required capacity found : Nat} {h : 0 < capacity}
    (hf : doubledCapacity? required capacity h = some found) :
    IsLeast {n | (∃ k, n = capacity * 2 ^ k) ∧ required ≤ n} found := by
  fun_induction doubledCapacity? required capacity h with
  | case1 capacity h hle =>
    cases hf
    refine ⟨⟨⟨0, by rw [Nat.pow_zero, Nat.mul_one]⟩, hle⟩, ?_⟩
    rintro n ⟨⟨k, rfl⟩, -⟩
    exact Nat.le_mul_of_pos_right _ (Nat.two_pow_pos k)
  | case2 capacity h hlt _ ih =>
    obtain ⟨⟨⟨k, hk⟩, hle⟩, hleast⟩ := ih hf
    refine ⟨⟨⟨k + 1, ?_⟩, hle⟩, ?_⟩
    · rw [hk, Nat.mul_assoc, Nat.pow_succ']
    · rintro n ⟨⟨j, rfl⟩, hn⟩
      cases j with
      | zero => exact absurd hn (by simpa using hlt)
      | succ j =>
        refine hleast ⟨⟨j, ?_⟩, hn⟩
        rw [Nat.mul_assoc, Nat.pow_succ']
  | case3 => cases hf

/-- What a capacity becomes to meet a demand: it stays if it does, and else becomes the least of its
doublings that does, where one counts as the capacity of a buffer without any. -/
structure Meets (initial demand capacity : Nat) : Prop where
  enough : demand ≤ initial → capacity = initial
  doubled : initial < demand →
    IsLeast {n | (∃ k, n = max initial 1 * 2 ^ k) ∧ demand ≤ n} capacity

namespace Meets

variable {initial demand more capacity : Nat}

theorem unique {other : Nat} (h : Meets initial demand capacity)
    (h' : Meets initial demand other) : capacity = other := by
  by_cases hle : demand ≤ initial
  · rw [h.enough hle, h'.enough hle]
  · exact (h.doubled (by omega)).unique (h'.doubled (by omega))

theorem demand_le (h : Meets initial demand capacity) : demand ≤ capacity := by
  by_cases hle : demand ≤ initial
  · rw [h.enough hle]
    exact hle
  · exact (h.doubled (by omega)).1.2

theorem zero (initial : Nat) : Meets initial 0 initial :=
  ⟨fun _ ↦ rfl, fun h ↦ absurd h (Nat.not_lt_zero _)⟩

/-- The capacity, or one slot, is a doubling of the first capacity. -/
theorem exists_max_eq (h : Meets initial demand capacity) :
    ∃ k, max capacity 1 = max initial 1 * 2 ^ k := by
  by_cases hle : demand ≤ initial
  · exact ⟨0, by rw [h.enough hle, Nat.pow_zero, Nat.mul_one]⟩
  · obtain ⟨⟨⟨k, hk⟩, -⟩, -⟩ := h.doubled (by omega)
    have hpos : 0 < capacity := by
      rw [hk]
      exact Nat.mul_pos (by omega) (Nat.two_pow_pos k)
    exact ⟨k, by rw [← hk]; omega⟩

/-- A demand that is met already changes nothing. -/
theorem of_le (h : Meets initial demand capacity) (hle : more ≤ capacity) :
    Meets initial (max demand more) capacity := by
  refine ⟨fun hmax ↦ h.enough (by omega), fun hmax ↦ ?_⟩
  have hlt : initial < demand := by
    by_contra hge
    have := h.enough (by omega)
    omega
  obtain ⟨⟨hdoubling, hdemand⟩, hleast⟩ := h.doubled hlt
  refine ⟨⟨hdoubling, by omega⟩, ?_⟩
  rintro n ⟨hn, hmaxle⟩
  exact hleast ⟨hn, by omega⟩

/-- Doublings of a doubling of the first capacity are all that come into question for a demand that
is not met yet. -/
theorem of_doubledCapacity? {found : Nat} (h : Meets initial demand capacity)
    (hlt : capacity < more)
    (hf : doubledCapacity? more (max capacity 1) (by omega) = some found) :
    Meets initial (max demand more) found := by
  have hdemand := h.demand_le
  obtain ⟨k, hk⟩ := h.exists_max_eq
  obtain ⟨⟨⟨j, hj⟩, hmore⟩, hleast⟩ := isLeast_of_doubledCapacity? hf
  have hmax : max demand more = more := by omega
  have hinitial : initial ≤ capacity := by
    have hpow : max initial 1 ≤ max initial 1 * 2 ^ k :=
      Nat.le_mul_of_pos_right _ (Nat.two_pow_pos k)
    by_cases hle : demand ≤ initial
    · exact Nat.le_of_eq (h.enough hle).symm
    · omega
  rw [hmax]
  refine ⟨fun hle ↦ by omega, fun _ ↦ ⟨⟨⟨k + j, ?_⟩, hmore⟩, ?_⟩⟩
  · rw [hj, hk, Nat.mul_assoc, Nat.pow_add]
  · rintro n ⟨⟨i, hi⟩, hn⟩
    -- a doubling below the capacity does not meet the demand
    have hki : k ≤ i := by
      by_contra hik
      have hpow : 2 ^ (i + 1) ≤ 2 ^ k := Nat.pow_le_pow_right Nat.two_pos (by omega)
      have hmul := Nat.mul_le_mul_left (max initial 1) hpow
      rw [← hk, Nat.pow_succ, ← Nat.mul_assoc, ← hi] at hmul
      omega
    refine hleast ⟨⟨i - k, ?_⟩, hn⟩
    rw [hi, hk, Nat.mul_assoc, ← Nat.pow_add, Nat.add_sub_cancel' hki]

end Meets

namespace Buffer

variable {α : Type}

/-- The buffer has storage, and its capacity is what the first one becomes to meet the demand. -/
structure HasGrown (initial demand : Nat) (b : Buffer α) : Prop where
  sound : b.isSound = true
  allocated : b.isAllocated = true
  capacity : Meets initial demand b.capacity

/-- An operation adds what it asks for to the demand, and nothing else counts. -/
theorem HasGrown.of_obeys {initial demand : Nat} {operation : Operation α} {b c : Buffer α}
    (h : b.HasGrown initial demand) (hc : Obeys operation b c) (hfree : operation ≠ .free) :
    c.HasGrown initial (max demand ((operation.demand? b.length).getD 0)) := by
  have hcapacity := hc.capacity hfree
  cases hd : operation.demand? b.length with
  | none =>
    rw [hd] at hcapacity
    obtain ⟨hallocated, hsame⟩ := hcapacity
    refine ⟨hc.sound, hallocated.trans h.allocated, ?_⟩
    rw [hsame]
    exact h.capacity.of_le (Nat.zero_le _)
  | some more =>
    rw [hd] at hcapacity
    obtain ⟨hallocated, hgrows⟩ := hcapacity
    refine ⟨hc.sound, hallocated, ?_⟩
    rw [Option.getD_some]
    split at hgrows
    · next hfits =>
      rw [hgrows]
      exact h.capacity.of_le hfits.2
    · next hfits =>
      have hlt : b.capacity < more := Nat.lt_of_not_le fun hle ↦ hfits ⟨h.allocated, hle⟩
      exact h.capacity.of_doubledCapacity? hlt hgrows

/-- No operation but giving the storage back lowers the capacity. -/
theorem Obeys.capacity_le {operation : Operation α} {b c : Buffer α} (hc : Obeys operation b c)
    (hfree : operation ≠ .free) : b.capacity ≤ c.capacity := by
  have hcapacity := hc.capacity hfree
  split at hcapacity
  · exact hcapacity.capacity_le
  · exact Nat.le_of_eq hcapacity.2.symm

variable [Element α]

/-- The largest number of slots that a successful use of a history asks for. -/
def demand (b : Buffer α) : List (Use α) → Nat
  | [] => 0
  | use :: history =>
    let later := (b.perform use).demand history
    match b.answer use with
    | .ok _ => max ((use.operation.demand? b.length).getD 0) later
    | .error _ => later

theorem HasGrown.run {initial demand : Nat} {b : Buffer α} {history : List (Use α)}
    (h : b.HasGrown initial demand) (hfree : ∀ use ∈ history, use.operation ≠ .free) :
    (b.run history).HasGrown initial (max demand (b.demand history)) := by
  induction history generalizing b demand with
  | nil =>
    rw [Buffer.demand, Nat.max_zero]
    exact h
  | cons use history ih =>
    obtain ⟨hfirst, hfree⟩ := List.forall_mem_cons.mp hfree
    rw [run_cons, Buffer.demand]
    cases hanswer : b.answer use with
    | ok given =>
      have hstep := h.of_obeys (obeys_of_answer hanswer h.sound).2 hfirst
      dsimp only
      rw [← Nat.max_assoc]
      exact ih hstep hfree
    | error e =>
      have hsame := perform_of_error hanswer h.sound
      dsimp only
      rw [hsame]
      exact ih h hfree

theorem capacity_le_run {b : Buffer α} {history : List (Use α)} (hb : b.isSound = true)
    (hfree : ∀ use ∈ history, use.operation ≠ .free) :
    b.capacity ≤ (b.run history).capacity := by
  induction history generalizing b with
  | nil => exact Nat.le_refl _
  | cons use history ih =>
    obtain ⟨hfirst, hfree⟩ := List.forall_mem_cons.mp hfree
    rw [run_cons]
    cases hanswer : b.answer use with
    | ok given =>
      have hobeys := (obeys_of_answer hanswer hb).2
      exact Nat.le_trans (hobeys.capacity_le hfirst) (ih hobeys.sound hfree)
    | error e =>
      rw [perform_of_error hanswer hb]
      exact ih hb hfree

theorem hasGrown_of_create {alloc : Allocator} {initial : Nat} {b : Buffer α}
    (h : create alloc initial = .ok b) : b.HasGrown initial 0 := by
  obtain ⟨hsound, -, hcapacity⟩ := create_eq_ok h
  refine ⟨hsound, ?_, ?_⟩
  · unfold create at h
    split at h
    · cases h
      rfl
    · cases h
  · rw [hcapacity]
    exact Meets.zero initial

/-- As long as its storage is not given back, a buffer that began with some capacity has that
capacity if it was never asked for more with success, and else the least of its doublings that meets
what it was asked for. So the capacity never falls, and is the same after any other history with the
same demand. -/
theorem capacity_meets_demand {alloc : Allocator} {initial : Nat} {b : Buffer α}
    (h : create alloc initial = .ok b) {history : List (Use α)}
    (hfree : ∀ use ∈ history, use.operation ≠ .free) :
    (b.demand history ≤ initial → (b.run history).capacity = initial) ∧
    (initial < b.demand history →
      IsLeast {n | (∃ k, n = max initial 1 * 2 ^ k) ∧ b.demand history ≤ n}
        (b.run history).capacity) ∧
    (∀ earlier later, history = earlier ++ later →
      (b.run earlier).capacity ≤ (b.run history).capacity) ∧
    ∀ (alloc' : Allocator) (c : Buffer α) (other : List (Use α)), create alloc' initial = .ok c →
      (∀ use ∈ other, use.operation ≠ .free) → c.demand other = b.demand history →
        (c.run other).capacity = (b.run history).capacity := by
  have hgrown := (hasGrown_of_create h).run hfree
  rw [Nat.zero_max] at hgrown
  refine ⟨hgrown.capacity.enough, hgrown.capacity.doubled, ?_, ?_⟩
  · rintro earlier later rfl
    obtain ⟨hearlier, hlater⟩ := List.forall_mem_append.mp hfree
    rw [run_append]
    exact capacity_le_run ((hasGrown_of_create h).run hearlier).sound hlater
  · intro alloc' c other hc hother hdemand
    have hgrown' := (hasGrown_of_create hc).run hother
    rw [Nat.zero_max, hdemand] at hgrown'
    exact hgrown'.capacity.unique hgrown.capacity

/-- Three slots become six for a demand of five, whether it comes up by and by or at once. A demand
that cannot be met does not count. -/
theorem capacity_meets_demand_of_five :
    let b : Buffer UInt8 := { storage := some { room := 3 }, capacity := 3 }
    let history : List (Use UInt8) :=
      [⟨.unlimited, .push 1⟩, ⟨.unlimited, .push 2⟩, ⟨.unlimited, .pop 0⟩,
        ⟨.unlimited, .reserve 4⟩, ⟨.unlimited, .clear⟩, ⟨.addressSpace, .reserve maxSize⟩]
    let other : List (Use UInt8) := [⟨.unlimited, .extend [1, 2, 3, 4, 5]⟩]
    b.demand history = 5 ∧
      IsLeast {n | (∃ k, n = max 3 1 * 2 ^ k) ∧ b.demand history ≤ n}
        (b.run history).capacity ∧
      (b.run other).capacity = (b.run history).capacity ∧ (b.run other).capacity = 6 := by
  intro b history other
  have hb : create .unlimited 3 = .ok b := rfl
  have hfree : ∀ use ∈ history, use.operation ≠ .free := by simp [history]
  obtain ⟨-, hleast, -, hsame⟩ := capacity_meets_demand hb hfree
  exact ⟨by decide +kernel, hleast (by decide +kernel),
    hsame .unlimited b other hb (by simp [other]) (by decide +kernel), by decide +kernel⟩

end Buffer
end Delimited
