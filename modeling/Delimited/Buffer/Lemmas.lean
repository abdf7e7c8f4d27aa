import Delimited.Buffer.Basic

/-!
# Laws of growable buffers

What the operations do to the elements of a sound buffer. Each of them keeps the buffer sound, and
growth that fails leaves it as it was.
-/

namespace Delimited

/-- A capacity that is found reaches the demand and is no smaller than the first one. -/
theorem le_doubledCapacity? {required capacity found : Nat} {h : 0 < capacity}
    (hf : doubledCapacity? required capacity h = some found) :
    required ≤ found ∧ capacity ≤ found := by
  fun_induction doubledCapacity? required capacity h with
  | case1 capacity _ hle =>
    cases hf
    exact ⟨hle, Nat.le_refl _⟩
  | case2 capacity _ _ _ ih =>
    obtain ⟨hr, hc⟩ := ih hf
    exact ⟨hr, by omega⟩
  | case3 => cases hf

/-- A capacity that is found is a size, when the first one is. -/
theorem doubledCapacity?_le_maxSize {required capacity found : Nat} {h : 0 < capacity}
    (hf : doubledCapacity? required capacity h = some found) (hc : capacity ≤ maxSize) :
    found ≤ maxSize := by
  fun_induction doubledCapacity? required capacity h with
  | case1 => cases hf; exact hc
  | case2 _ _ _ hm ih => exact ih hf hm
  | case3 => cases hf

namespace Storage

variable {α : Type} [Element α]

/-- Making room keeps the slots and the room that is there, and makes as much as was asked for. -/
theorem reserve_eq_ok {alloc : Allocator} {s t : Storage α} {additional : Nat}
    (h : s.reserve alloc additional = .ok t) (hs : s.slots.size ≤ s.room) :
    t.slots = s.slots ∧ s.slots.size + additional ≤ t.room := by
  unfold reserve at h
  split at h
  · next hle =>
    cases h
    exact ⟨rfl, by omega⟩
  · cases hg : alloc (Element.size α) (s.slots.size + additional) with
    | error failure => rw [hg] at h; cases h
    | ok granted =>
      rw [hg] at h
      cases h
      exact ⟨rfl, granted.property⟩

end Storage

namespace Buffer

variable {α : Type}

/-- Soundness of a buffer with storage. -/
theorem isSound_some {s : Storage α} {length capacity : Nat} :
    isSound ⟨some s, length, capacity⟩ = true ↔
      length ≤ s.slots.size ∧ s.slots.size ≤ capacity ∧ capacity ≤ s.room := by
  simp [isSound, and_assoc]

/-- Soundness of a buffer without storage. -/
theorem isSound_none {length capacity : Nat} :
    isSound (α := α) ⟨none, length, capacity⟩ = true ↔ length = 0 ∧ capacity = 0 := by
  simp [isSound]

/-- The elements are the first slots, as many as are in use. -/
theorem toList_some (s : Storage α) (length capacity : Nat) :
    toList ⟨some s, length, capacity⟩ = s.slots.toList.take length := by
  simp [toList, used]

/-- A sound buffer has as many elements as it has used slots. -/
theorem length_toList {b : Buffer α} (h : b.isSound = true) : b.toList.length = b.length := by
  obtain ⟨_ | s, length, capacity⟩ := b
  · exact (isSound_none.mp h).1.symm
  · rw [toList_some, List.length_take]
    exact Nat.min_eq_left (isSound_some.mp h).1

/-- A new buffer is sound, and empty. -/
theorem create_eq_ok [Element α] {alloc : Allocator} {initial : Nat} {b : Buffer α}
    (h : create alloc initial = .ok b) :
    b.isSound = true ∧ b.toList = [] ∧ b.capacity = initial := by
  unfold create at h
  split at h
  · next storage hs =>
    cases h
    obtain ⟨hslots, hroom⟩ := Storage.reserve_eq_ok hs (Nat.le_refl 0)
    refine ⟨isSound_some.mpr ⟨Nat.zero_le _, ?_, ?_⟩, ?_, rfl⟩
    · rw [hslots]
      exact Nat.zero_le _
    · simpa using hroom
    · rw [toList_some]
      rfl
  · cases h

theorem isAllocated_of_create [Element α] {alloc : Allocator} {initial : Nat} {b : Buffer α}
    (h : create alloc initial = .ok b) : b.isAllocated = true := by
  unfold create at h
  split at h
  · cases h
    rfl
  · cases h

@[simp] theorem toList_unallocated : (unallocated : Buffer α).toList = [] := rfl

@[simp] theorem isSound_unallocated : (unallocated : Buffer α).isSound = true := rfl

/-- Clearing leaves no element. -/
@[simp] theorem toList_clear (b : Buffer α) : b.clear.toList = [] := by
  obtain ⟨_ | s, length, capacity⟩ := b
  · rfl
  · rw [clear, toList_some]
    rfl

theorem isSound_clear {b : Buffer α} (h : b.isSound = true) : b.clear.isSound = true := by
  obtain ⟨_ | s, length, capacity⟩ := b
  · exact isSound_none.mpr ⟨rfl, (isSound_none.mp h).2⟩
  · exact isSound_some.mpr ⟨Nat.zero_le _, (isSound_some.mp h).2⟩

/-- A freed buffer is the buffer without storage. -/
theorem free_eq_unallocated {b : Buffer α} (h : b.isSound = true) : b.free = unallocated := by
  obtain ⟨_ | s, length, capacity⟩ := b
  · obtain ⟨rfl, rfl⟩ := isSound_none.mp h
    rfl
  · rfl

theorem isSound_free {b : Buffer α} (h : b.isSound = true) : b.free.isSound = true := by
  rw [free_eq_unallocated h]
  rfl

/-- Making room that succeeds changes nothing but the capacity. -/
theorem reserve_eq_ok [Element α] {alloc : Allocator} {b c : Buffer α} {additional : Nat}
    (h : reserve alloc additional b = .ok () c) (hb : b.isSound = true) :
    c.isSound = true ∧ c.toList = b.toList ∧ c.length = b.length ∧ c.isAllocated = true ∧
      b.length + additional ≤ c.capacity := by
  unfold reserve at h
  split at h
  · cases h
  · split at h
    · next hfits =>
      cases h
      exact ⟨hb, rfl, rfl, hfits.1, hfits.2⟩
    · split at h
      · cases h
      · next capacity hd =>
        obtain ⟨hreq, hcap⟩ := le_doubledCapacity? hd
        dsimp only at h
        split at h
        · cases h
        · next storage hs =>
          cases h
          obtain ⟨_ | s, length, old⟩ := b
          · obtain ⟨rfl, rfl⟩ := isSound_none.mp hb
            obtain ⟨hslots, hroom⟩ := Storage.reserve_eq_ok hs (Nat.le_refl 0)
            refine ⟨isSound_some.mpr ⟨Nat.zero_le _, ?_, ?_⟩, ?_, rfl, rfl, hreq⟩
            · rw [hslots]
              exact Nat.zero_le _
            · simpa using hroom
            · rw [toList_some]
              rfl
          · obtain ⟨hlen, hsize, hold⟩ := isSound_some.mp hb
            obtain ⟨hslots, hroom⟩ := Storage.reserve_eq_ok hs (Nat.le_trans hsize hold)
            simp only [Option.getD_some] at hslots hroom
            dsimp only at hcap hreq
            refine ⟨isSound_some.mpr ⟨?_, ?_, ?_⟩, ?_, rfl, rfl, hreq⟩
            · rw [hslots]
              exact hlen
            · rw [hslots]
              omega
            · omega
            · rw [toList_some, toList_some, hslots]

/-- Making room that fails changes nothing. -/
theorem eq_of_reserve_eq_error [Element α] {alloc : Allocator} {b c : Buffer α}
    {additional : Nat} {e : GrowthError} (h : reserve alloc additional b = .error e c) : c = b := by
  unfold reserve at h
  split at h
  · cases h; rfl
  · split at h
    · cases h
    · split at h
      · cases h; rfl
      · dsimp only at h
        split at h
        · cases h; rfl
        · cases h

/-- A value that is stored where a slot is reserved for it comes last among the elements. -/
theorem store_of_isSound {b : Buffer α} (v : α) (h : b.isSound = true)
    (ha : b.isAllocated = true) (hlt : b.length < b.capacity) :
    (b.store v).isSound = true ∧ (b.store v).toList = b.toList ++ [v] := by
  obtain ⟨_ | s, length, capacity⟩ := b
  · cases ha
  · obtain ⟨hlen, hsize, hroom⟩ := isSound_some.mp h
    dsimp only at hlt
    unfold store
    dsimp only
    rw [Option.getD_some, isSound_some, toList_some, toList_some]
    unfold Storage.write
    split
    · next hi =>
      refine ⟨⟨?_, ?_, hroom⟩, ?_⟩
      · rw [Array.size_set]
        omega
      · rw [Array.size_set]
        exact hsize
      · simp [List.take_add_one, List.take_set_of_le, hi]
    · next hi =>
      have hfull : length = s.slots.size := by omega
      refine ⟨⟨?_, ?_, ?_⟩, ?_⟩
      · simp only [Storage.append, Array.size_push]
        omega
      · simp only [Storage.append, Array.size_push]
        omega
      · exact Nat.le_trans hroom (Nat.le_max_left _ _)
      · rw [hfull]
        simp only [Storage.append, Array.toList_push]
        rw [List.take_of_length_le (by simp), List.take_of_length_le (by simp)]

/-- An element that is added comes last. -/
theorem push_eq_ok [Element α] {alloc : Allocator} {v : α} {b c : Buffer α}
    (h : push alloc v b = .ok () c) (hb : b.isSound = true) :
    c.isSound = true ∧ c.toList = b.toList ++ [v] := by
  unfold push at h
  split at h
  · split at h
    · next grown hr =>
      cases h
      obtain ⟨hsound, helements, hlength, ha, hfits⟩ := reserve_eq_ok hr hb
      rw [← helements]
      exact store_of_isSound v hsound ha (by omega)
    · cases h
  · next hn =>
    cases h
    have ha : b.isAllocated = true := by simp_all
    have hle : b.length ≤ b.capacity := by
      obtain ⟨_ | s, length, capacity⟩ := b
      · cases ha
      · obtain ⟨hlen, hsize, -⟩ := isSound_some.mp hb
        exact Nat.le_trans hlen hsize
    exact store_of_isSound v hb ha (by omega)

/-- An element that cannot be added changes nothing. -/
theorem eq_of_push_eq_error [Element α] {alloc : Allocator} {v : α} {b c : Buffer α}
    {e : GrowthError} (h : push alloc v b = .error e c) : c = b := by
  unfold push at h
  split at h
  · split at h
    · cases h
    · next hr =>
      cases h
      exact eq_of_reserve_eq_error hr
  · cases h

/-- Elements that are added come last, in their order. -/
theorem pushAll_eq_ok [Element α] {alloc : Allocator} {values : List α} {b c : Buffer α}
    (h : pushAll alloc values b = .ok () c) (hb : b.isSound = true) :
    c.isSound = true ∧ c.toList = b.toList ++ values := by
  fun_induction pushAll alloc values b with
  | case1 =>
    cases h
    exact ⟨hb, (List.append_nil _).symm⟩
  | case2 v values b grown hp ih =>
    obtain ⟨hsound, helements⟩ := push_eq_ok hp hb
    obtain ⟨hsound', helements'⟩ := ih h hsound
    rw [helements', helements, List.append_assoc]
    exact ⟨hsound', rfl⟩
  | case3 => cases h

/-- Elements that are added at once come last, in their order. -/
theorem extend_eq_ok [Element α] {alloc : Allocator} {values : List α} {b c : Buffer α}
    (h : extend alloc values b = .ok () c) (hb : b.isSound = true) :
    c.isSound = true ∧ c.toList = b.toList ++ values := by
  unfold extend at h
  split at h
  · next grown hr =>
    obtain ⟨hsound, helements, -⟩ := reserve_eq_ok hr hb
    obtain ⟨hsound', helements'⟩ := pushAll_eq_ok h hsound
    exact ⟨hsound', by rw [helements', helements]⟩
  · cases h

/-- Removing the last element leaves the others. -/
theorem toList_pop {b : Buffer α} (fallback : α) (h : b.isSound = true) :
    (b.pop fallback).2.isSound = true ∧ (b.pop fallback).2.toList = b.toList.dropLast := by
  unfold pop
  split
  · next hz =>
    refine ⟨h, ?_⟩
    have hnil : b.toList = [] := List.eq_nil_of_length_eq_zero ((length_toList h).trans hz)
    rw [hnil]
    rfl
  · obtain ⟨_ | s, length, capacity⟩ := b
    · exact absurd (isSound_none.mp h).1 (by assumption)
    · obtain ⟨hlen, hsize⟩ := isSound_some.mp h
      refine ⟨isSound_some.mpr ⟨Nat.le_trans (Nat.sub_le _ _) hlen, hsize⟩, ?_⟩
      have hmin : min length s.slots.toList.length = length := Nat.min_eq_left hlen
      rw [toList_some, toList_some, List.dropLast_eq_take, List.take_take, List.length_take, hmin,
        Nat.min_eq_left (Nat.sub_le _ _)]

end Buffer
end Delimited
