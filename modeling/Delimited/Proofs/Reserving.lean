import Delimited.Loop
import Delimited.Proofs.Capacity
import Mathlib.Data.Nat.Find

/-!
# Reserving slots

All that can become of a request for slots. The demand may be no size, or be met already. Otherwise
the least doubling of the capacity that meets it decides: it may be no size either, or room for it
may be refused. Only when nothing stands in the way does the buffer change, and then in its
capacity alone. An element is added in a reserved slot, or in one that is reserved for it.
-/

namespace Delimited

/-- A round of doubling. If the demand is not reached, the capacity is doubled, provided that gives
a size. -/
def doublingRound (required capacity : Nat) : Round Nat (Option Nat) :=
  if required ≤ capacity then .done (some capacity)
  else if capacity * 2 ≤ maxSize then .again (capacity * 2)
  else .done none

/-- Doubling ends before it leaves the sizes. -/
theorem rounds_doubledCapacity? {required capacity n : Nat} {h : 0 < capacity}
    (hn : maxSize < capacity * 2 ^ (n + 1)) :
    ∃ count ≤ n + 1,
      Rounds (doublingRound required) count capacity (doubledCapacity? required capacity h) := by
  -- One more doubling of the capacity leaves one doubling less to the end of the sizes.
  fun_induction doubledCapacity? required capacity h generalizing n with
  | case1 capacity h hle =>
    exact ⟨1, by omega, .last (by simp [doublingRound, hle])⟩
  | case2 capacity h hlt hsize ih =>
    cases n with
    | zero => simp at hn; omega
    | succ n =>
      have hn' : maxSize < capacity * 2 * 2 ^ (n + 1) := by
        rwa [Nat.mul_assoc, ← Nat.pow_succ']
      obtain ⟨count, hcount, hrounds⟩ := ih hn'
      exact ⟨count + 1, by omega, .more (by simp [doublingRound, hlt, hsize]) hrounds⟩
  | case3 capacity h hlt hover =>
    exact ⟨1, by omega, .last (by simp [doublingRound, hlt, hover])⟩

/-- Some doubling reaches the demand, and so there is a least one. -/
theorem exists_isLeast_doubling (required : Nat) {capacity : Nat} (h : 0 < capacity) :
    ∃ least, IsLeast {n | (∃ k, n = capacity * 2 ^ k) ∧ required ≤ n} least := by
  have hreached : ∃ k, required ≤ capacity * 2 ^ k := by
    refine ⟨required, ?_⟩
    calc required ≤ 2 ^ required := Nat.le_of_lt Nat.lt_two_pow_self
      _ ≤ capacity * 2 ^ required := Nat.le_mul_of_pos_left _ h
  -- Doublings grow with the exponent, so the least exponent that will do gives the least of them.
  refine ⟨capacity * 2 ^ Nat.find hreached, ⟨⟨_, rfl⟩, Nat.find_spec hreached⟩, ?_⟩
  rintro n ⟨⟨k, rfl⟩, hk⟩
  apply Nat.mul_le_mul_left
  exact Nat.pow_le_pow_right Nat.two_pos (Nat.find_min' hreached hk)

/-- Where doubling gives up, no doubling that reaches the demand is a size. -/
theorem maxSize_lt_of_doubledCapacity?_eq_none {required capacity : Nat} {h : 0 < capacity}
    (hf : doubledCapacity? required capacity h = none) {k : Nat}
    (hk : required ≤ capacity * 2 ^ k) : maxSize < capacity * 2 ^ k := by
  fun_induction doubledCapacity? required capacity h generalizing k with
  | case1 => cases hf
  | case2 capacity h hlt _ ih =>
    cases k with
    | zero => simp at hk; omega
    | succ k =>
      rw [Nat.pow_succ', ← Nat.mul_assoc] at hk ⊢
      exact ih hf hk
  | case3 capacity h hlt hover =>
    cases k with
    | zero => simp at hk; omega
    | succ k =>
      rw [Nat.pow_succ', ← Nat.mul_assoc]
      apply Nat.lt_of_lt_of_le (Nat.lt_of_not_le hover)
      exact Nat.le_mul_of_pos_right _ (Nat.two_pow_pos k)

/-- Doubling finds the least doubling that reaches the demand, provided that it is a size. -/
theorem doubledCapacity?_eq_of_isLeast {required capacity least : Nat} {h : 0 < capacity}
    (hleast : IsLeast {n | (∃ k, n = capacity * 2 ^ k) ∧ required ≤ n} least)
    (hc : capacity ≤ maxSize) :
    doubledCapacity? required capacity h = if least ≤ maxSize then some least else none := by
  cases hf : doubledCapacity? required capacity h with
  | some found =>
    have heq : found = least := (isLeast_of_doubledCapacity? hf).unique hleast
    have hsize : found ≤ maxSize := doubledCapacity?_le_maxSize hf hc
    rw [← heq, if_pos hsize]
  | none =>
    obtain ⟨⟨k, rfl⟩, hk⟩ := hleast.1
    have := maxSize_lt_of_doubledCapacity?_eq_none hf hk
    rw [if_neg (by omega)]

namespace Buffer

variable {α : Type} [Element α] {alloc : Allocator}

/-- Why there is no room for a number of slots, if there is none. The allocator is asked only
when the room that is there falls short. -/
def refusal? (alloc : Allocator) (capacity : Nat) (b : Buffer α) : Option AllocationFailure :=
  if capacity ≤ b.room then none
  else
    match alloc (Element.size α) capacity with
    | .error failure => some failure
    | .ok _ => none

/-- Storage makes room for a capacity unless it is refused, and keeps what has been written. -/
theorem reserve_storage {b : Buffer α} (hb : b.isSound = true) {capacity : Nat}
    (hs : b.slots.length ≤ capacity) (alloc : Allocator) :
    match b.refusal? alloc capacity with
    | some failure =>
      (b.storage.getD {}).reserve alloc (capacity - (b.storage.getD {}).slots.size) =
        .error failure
    | none =>
      ∃ storage : Storage α,
        (b.storage.getD {}).reserve alloc (capacity - (b.storage.getD {}).slots.size) =
          .ok storage ∧ storage.slots.toList = b.slots := by
  obtain ⟨-, hslots, hroom⟩ := isSound_iff.mp hb
  unfold refusal?
  unfold slots room at *
  generalize b.storage.getD {} = s at *
  rw [Array.length_toList] at hs hslots
  obtain ⟨missing, rfl⟩ := Nat.exists_eq_add_of_le hs
  have hasked : missing ≤ s.room - s.slots.size ↔ s.slots.size + missing ≤ s.room := by omega
  rw [Nat.add_sub_cancel_left]
  by_cases hfits : s.slots.size + missing ≤ s.room
  · simp [Storage.reserve, hasked, hfits]
  · cases halloc : alloc (Element.size α) (s.slots.size + missing) with
    | error failure => simp [Storage.reserve, hasked, hfits, halloc, Except.map]
    | ok granted => simp [Storage.reserve, hasked, hfits, halloc, Except.map]

/-- All that a request for slots comes to, where the least doubling that meets it is known. -/
theorem reserve_eq {b : Buffer α} (hb : b.WellKept) {additional least : Nat}
    (hleast : IsLeast {n | (∃ k, n = max b.capacity 1 * 2 ^ k) ∧ b.length + additional ≤ n}
      least) :
    if maxSize < b.length + additional then
      reserve alloc additional b = .error (.capacityOverflow b.length additional) b
    else if b.isAllocated = true ∧ b.length + additional ≤ b.capacity then
      reserve alloc additional b = .ok () b
    else if maxSize < least then
      reserve alloc additional b = .error (.capacityOverflow b.length additional) b
    else
      match b.refusal? alloc least with
      | some failure => reserve alloc additional b = .error (.allocation failure) b
      | none =>
        ∃ grown, reserve alloc additional b = .ok () grown ∧ grown.isAllocated = true ∧
          grown.capacity = least ∧ grown.length = b.length ∧ grown.toList = b.toList ∧
            grown.slots = b.slots := by
  have hsize : max b.capacity 1 ≤ maxSize := Nat.max_le.mpr ⟨hb.size, by decide⟩
  have hdoubled := doubledCapacity?_eq_of_isLeast (h := b.max_capacity_pos) hleast hsize
  by_cases hsum : maxSize < b.length + additional
  · rw [if_pos hsum]
    simp [reserve, hsum]
  by_cases hfits : b.isAllocated = true ∧ b.length + additional ≤ b.capacity
  · rw [if_neg hsum, if_pos hfits]
    simp [reserve, hsum, hfits]
  rw [if_neg hsum, if_neg hfits]
  by_cases hover : maxSize < least
  · rw [if_neg (by omega)] at hdoubled
    rw [if_pos hover]
    simp [reserve, hsum, hfits, hdoubled]
  · rw [if_pos (by omega)] at hdoubled
    have hcapacity : b.capacity ≤ least := by
      have := (le_doubledCapacity? hdoubled).2
      omega
    have hslots : b.slots.length ≤ least :=
      Nat.le_trans (isSound_iff.mp hb.sound).2.1 hcapacity
    have hstorage := reserve_storage hb.sound hslots alloc
    rw [if_neg hover]
    cases hrefusal : b.refusal? alloc least with
    | some failure =>
      simp only [hrefusal] at hstorage ⊢
      simp [reserve, hsum, hfits, hdoubled, hstorage]
    | none =>
      simp only [hrefusal] at hstorage ⊢
      obtain ⟨storage, hreserved, hsame⟩ := hstorage
      refine ⟨{ b with storage := some storage, capacity := least }, ?_, rfl, rfl, rfl, ?_, ?_⟩
      · simp [reserve, hsum, hfits, hdoubled, hreserved]
      · rw [toList_eq_take, toList_eq_take, ← hsame]
        rfl
      · exact hsame

/-- An element cannot be added just when a slot would have to be reserved for it and cannot be. -/
theorem push_eq_error_iff {b c : Buffer α} {v : α} {e : GrowthError} :
    push alloc v b = .error e c ↔
      (b.isAllocated = false ∨ b.length = b.capacity) ∧ reserve alloc 1 b = .error e c := by
  unfold push
  by_cases hfull : b.length = b.capacity ∨ b.isAllocated = false
  · rw [if_pos hfull]
    cases reserve alloc 1 b with
    | ok _ grown => simp
    | error e' c' => simp [hfull.symm]
  · rw [if_neg hfull]
    simp [mt Or.symm hfull]

/-- What becomes of a request for slots, and of an element that is to be added, is decided by the
numbers in front of everyone: the demand, the capacity, the least doubling of the capacity that
meets the demand, and the room that can be had for that. Doubling always ends, whether it finds a
size or not. A failure leaves the buffer as it was. -/
theorem reserve_and_push_outcomes {b : Buffer α} (h : b.Reachable) (alloc : Allocator) :
    (∀ additional, ∃ least,
      IsLeast {n | (∃ k, n = max b.capacity 1 * 2 ^ k) ∧ b.length + additional ≤ n} least ∧
      (∃ rounds ≤ 64, Rounds (doublingRound (b.length + additional)) rounds (max b.capacity 1)
        (if least ≤ maxSize then some least else none)) ∧
      if maxSize < b.length + additional then
        reserve alloc additional b = .error (.capacityOverflow b.length additional) b
      else if b.isAllocated = true ∧ b.length + additional ≤ b.capacity then
        reserve alloc additional b = .ok () b
      else if maxSize < least then
        reserve alloc additional b = .error (.capacityOverflow b.length additional) b
      else
        match b.refusal? alloc least with
        | some failure => reserve alloc additional b = .error (.allocation failure) b
        | none =>
          ∃ grown, reserve alloc additional b = .ok () grown ∧ grown.isAllocated = true ∧
            grown.capacity = least ∧ grown.length = b.length ∧ grown.toList = b.toList ∧
              grown.slots = b.slots) ∧
    (∀ v e c, push alloc v b = .error e c ↔
      (b.isAllocated = false ∨ b.length = b.capacity) ∧ reserve alloc 1 b = .error e c) ∧
    (∀ additional e c, reserve alloc additional b = .error e c → c = b) ∧
    ∀ v e c, push alloc v b = .error e c → c = b := by
  have hb := h.wellKept
  refine ⟨fun additional ↦ ?_, fun v e c ↦ push_eq_error_iff,
    fun additional e c he ↦ eq_of_reserve_eq_error he, fun v e c he ↦ eq_of_push_eq_error he⟩
  have hpos := b.max_capacity_pos
  obtain ⟨least, hleast⟩ := exists_isLeast_doubling (b.length + additional) hpos
  have hsize : max b.capacity 1 ≤ maxSize := Nat.max_le.mpr ⟨hb.size, by decide⟩
  have hbound : maxSize < max b.capacity 1 * 2 ^ (63 + 1) := by
    apply Nat.lt_of_lt_of_le (by decide : maxSize < 2 ^ 64)
    exact Nat.le_mul_of_pos_left _ hpos
  obtain ⟨rounds, hrounds, hends⟩ := rounds_doubledCapacity? (h := hpos) hbound
  rw [doubledCapacity?_eq_of_isLeast hleast hsize] at hends
  exact ⟨least, hleast, ⟨rounds, hrounds, hends⟩, reserve_eq hb hleast⟩

/-- Three slots, all in use, become twelve for four more elements. Where memory is refused, no
fourth element can be added. -/
theorem reserve_and_push_outcomes_of_three :
    let b : Buffer UInt8 :=
      { storage := some { slots := #[1, 2, 3], room := 3 }, length := 3, capacity := 3 }
    (∃ grown, reserve .addressSpace 4 b = .ok () grown ∧ grown.capacity = 12 ∧
      grown.slots = [1, 2, 3]) ∧
    push (fun _ _ ↦ .error .refused) 4 b = .error (.allocation .refused) b := by
  intro b
  have hstart : IsNew { storage := some { room := 3 }, capacity := 3 : Buffer UInt8 } :=
    .create (by decide : 3 ≤ maxSize) (rfl : create .unlimited 3 = _)
  have hb : b.Reachable := ⟨_, [⟨.unlimited, .extend [1, 2, 3]⟩], hstart, rfl⟩
  constructor
  · obtain ⟨least, hleast, -, houtcome⟩ := (reserve_and_push_outcomes hb .addressSpace).1 4
    have htwelve : least = 12 :=
      hleast.unique (isLeast_of_doubledCapacity? (h := by decide) (by decide +kernel))
    subst htwelve
    rw [if_neg (by decide), if_neg (by decide), if_neg (by decide)] at houtcome
    obtain ⟨grown, hok, -, hcapacity, -, -, hslots⟩ := houtcome
    exact ⟨grown, hok, hcapacity, hslots⟩
  · obtain ⟨houtcomes, hpush, -⟩ := reserve_and_push_outcomes hb fun _ _ ↦ .error .refused
    obtain ⟨least, hleast, -, houtcome⟩ := houtcomes 1
    have hsix : least = 6 :=
      hleast.unique (isLeast_of_doubledCapacity? (h := by decide) (by decide +kernel))
    subst hsix
    rw [if_neg (by decide), if_neg (by decide), if_neg (by decide)] at houtcome
    exact (hpush 4 _ b).mpr ⟨.inr rfl, houtcome⟩

end Buffer
end Delimited
