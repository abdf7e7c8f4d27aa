import Delimited.Proofs.Growth

/-!
# Buffers that have grown by doubling

A buffer that begins with one slot or two, or without storage, has a power of two of slots from then
on, whatever becomes of its requests for memory. So where memory is granted, growing depends on the
elements of a buffer alone: how it came by its capacity makes no difference.
-/

namespace Delimited

/-- Doubling a power of two finds a power of two. -/
theorem doubledCapacity?_of_shiftLeft {required capacity found n : Nat} {h : 0 < capacity}
    (hf : doubledCapacity? required capacity h = some found) (hc : capacity = 1 <<< n)
    (hn : n ≤ 63) : ∃ m, m ≤ 63 ∧ found = 1 <<< m := by
  fun_induction doubledCapacity? required capacity h generalizing n with
  | case1 =>
    cases hf
    exact ⟨n, hn, hc⟩
  | case2 capacity _ _ hm ih =>
    have hlt : n < 63 := by
      apply Nat.lt_of_le_of_ne hn
      rintro rfl
      rw [hc] at hm
      exact absurd hm (by decide)
    apply ih hf (n := n + 1)
    · rw [hc, Nat.shiftLeft_succ, Nat.mul_comm]
    · exact hlt
  | case3 => cases hf

/-- Beyond half of the sizes there is no power of two. -/
theorem doubledCapacity?_of_memoryLimit_lt {required : Nat} (h : memoryLimit < required) :
    doubledCapacity? required memoryLimit (by decide) = none := by
  have hm : ¬ memoryLimit * 2 ≤ maxSize := by decide
  rw [doubledCapacity?, if_neg (by omega), if_neg hm]

namespace Buffer

variable {α : Type}

/-- The buffer is sound, and its capacity comes from doubling a single slot, if it has any. -/
structure Doubled (b : Buffer α) : Prop where
  sound : b.isSound = true
  capacity : b.capacity = 0 ∨ ∃ n, n ≤ 63 ∧ b.capacity = 1 <<< n

theorem Doubled.capacity_le {b : Buffer α} (h : b.Doubled) : b.capacity ≤ memoryLimit := by
  rcases h.capacity with hz | ⟨n, hn, hc⟩
  · omega
  · rw [hc, Nat.shiftLeft_eq, Nat.one_mul]
    exact Nat.pow_le_pow_right (by decide) hn

theorem Doubled.length_le {b : Buffer α} (h : b.Doubled) : b.length ≤ memoryLimit := by
  apply Nat.le_trans _ h.capacity_le
  obtain ⟨_ | s, length, capacity⟩ := b
  · exact Nat.le_of_eq ((isSound_none.mp h.sound).1.trans (isSound_none.mp h.sound).2.symm)
  · obtain ⟨hlen, hsize, -⟩ := isSound_some.mp h.sound
    exact Nat.le_trans hlen hsize

/-- Without storage there are no slots. -/
theorem doubled_unallocated : (unallocated : Buffer α).Doubled := ⟨rfl, .inl rfl⟩

theorem Doubled.clear {b : Buffer α} (h : b.Doubled) : b.clear.Doubled :=
  ⟨isSound_clear h.sound, h.capacity⟩

theorem Doubled.free {b : Buffer α} (h : b.Doubled) : b.free.Doubled := by
  rw [free_eq_unallocated h.sound]
  exact doubled_unallocated

theorem doubled_of_create [Element α] {alloc : Allocator} {n : Nat} {b : Buffer α} (hn : n ≤ 63)
    (h : create alloc (1 <<< n) = .ok b) : b.Doubled := by
  obtain ⟨hsound, -, hcapacity⟩ := create_eq_ok h
  exact ⟨hsound, .inr ⟨n, hn, hcapacity⟩⟩

/-- The slots that a push starts doubling from. -/
private theorem exists_shiftLeft_max {b : Buffer α} (h : b.Doubled) :
    ∃ n, n ≤ 63 ∧ max b.capacity 1 = 1 <<< n := by
  rcases h.capacity with hz | ⟨n, hn, hc⟩
  · exact ⟨0, by omega, by rw [hz]; rfl⟩
  · refine ⟨n, hn, ?_⟩
    rw [← hc]
    apply Nat.max_eq_left
    rw [hc, Nat.shiftLeft_eq, Nat.one_mul]
    exact Nat.two_pow_pos n

variable [Element α] {alloc : Allocator}

theorem Doubled.reserve {b c : Buffer α} {additional : Nat} (h : b.Doubled)
    (hr : reserve alloc additional b = .ok () c) : c.Doubled := by
  refine ⟨(reserve_eq_ok hr h.sound).1, ?_⟩
  unfold Buffer.reserve at hr
  split at hr
  · cases hr
  · split at hr
    · cases hr
      exact h.capacity
    · split at hr
      · cases hr
      · next capacity hd =>
        dsimp only at hr
        split at hr
        · cases hr
        · cases hr
          obtain ⟨n, hn, hc⟩ := exists_shiftLeft_max h
          exact .inr (doubledCapacity?_of_shiftLeft hd hc hn)

/-- Adding an element keeps to powers of two, whatever the allocator does. -/
theorem Doubled.push {b c : Buffer α} {v : α} (h : b.Doubled) (hp : push alloc v b = .ok () c) :
    c.Doubled := by
  refine ⟨(push_eq_ok hp h.sound).1, ?_⟩
  unfold Buffer.push at hp
  split at hp
  · split at hp
    · next grown hr =>
      cases hp
      exact (h.reserve hr).capacity
    · cases hp
  · cases hp
    exact h.capacity

/-- A buffer with as many elements as there can be is full, and cannot be doubled. -/
theorem push_of_memoryLimit_le {b : Buffer α} (h : b.Doubled) (hle : memoryLimit ≤ b.length)
    (v : α) : push alloc v b = .error (.capacityOverflow memoryLimit 1) b := by
  have hlength : b.length = memoryLimit := Nat.le_antisymm h.length_le hle
  have hcapacity : b.capacity = memoryLimit := by
    apply Nat.le_antisymm h.capacity_le
    obtain ⟨_ | s, length, capacity⟩ := b
    · rw [(isSound_none.mp h.sound).1] at hlength
      cases hlength
    · obtain ⟨hlen, hsize, -⟩ := isSound_some.mp h.sound
      exact Nat.le_trans hle (Nat.le_trans hlen hsize)
  have hreserve : Buffer.reserve alloc 1 b = .error (.capacityOverflow memoryLimit 1) b := by
    have hmax : max b.capacity 1 = memoryLimit := by
      rw [hcapacity]
      rfl
    unfold Buffer.reserve
    rw [hlength, if_neg (by decide), if_neg (by rw [hcapacity]; omega)]
    simp only [hmax, doubledCapacity?_of_memoryLimit_lt (Nat.lt_succ_self memoryLimit)]
  unfold Buffer.push
  rw [if_pos (.inl (hlength.trans hcapacity.symm)), hreserve]

end Buffer
end Delimited
