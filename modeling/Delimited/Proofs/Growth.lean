import Delimited.Buffer.Lemmas

/-!
# Growth under a willing allocator

Nothing stands in the way of a buffer that grows as long as memory is granted and its elements can
be numbered by a signed size. Byte strings in memory are always that short. A buffer doubles, so it
asks for no more than twice as many slots as it is to have elements.
-/

namespace Delimited

/-- Every request is granted that a text of so many bytes leads to, with as much room as the
allocator likes. A text has at most one field more than it has bytes. No buffer of bytes or of
fields asks for more than twice as many slots, and no element is larger than a byte string. -/
def Allocator.GrantsFor (alloc : Allocator) (length : Nat) : Prop :=
  ∀ ⦃elementSize count : Nat⦄, elementSize ≤ Element.size (List UInt8) →
    count ≤ 2 * (length + 1) → ∃ room, alloc elementSize count = .ok room

namespace Allocator

variable {alloc : Allocator} {length more : Nat}

/-- What is enough for a text is enough for a shorter one. -/
theorem GrantsFor.mono (h : alloc.GrantsFor more) (hle : length ≤ more) : alloc.GrantsFor length :=
  fun _ _ hsize hcount ↦ h hsize (by omega)

/-- The allocator that grants requests exactly refuses none. -/
theorem grantsFor_unlimited (length : Nat) : unlimited.GrantsFor length :=
  fun _ count _ _ ↦ ⟨⟨count, Nat.le_refl count⟩, rfl⟩

/-- The address space is enough for texts of less than two terabytes. -/
theorem grantsFor_addressSpace (h : length < 0x20000000000) : addressSpace.GrantsFor length := by
  intro elementSize count hsize hcount
  have hlimit : elementSize * count < 0x800000000000 :=
    calc elementSize * count ≤ 24 * (2 * (length + 1)) := Nat.mul_le_mul hsize hcount
      _ < 0x800000000000 := by omega
  refine ⟨⟨count, Nat.le_refl count⟩, ?_⟩
  unfold addressSpace
  rw [if_neg (by omega), if_neg (by omega)]

end Allocator

/-- No byte string in memory has this many bytes. -/
def memoryLimit : Nat := 0x8000000000000000

/-- Doubling reaches every demand up to half of the sizes. -/
theorem doubledCapacity?_of_le_memoryLimit {required capacity : Nat} (h : 0 < capacity)
    (hr : required ≤ memoryLimit) : ∃ found, doubledCapacity? required capacity h = some found := by
  fun_induction doubledCapacity? required capacity h with
  | case1 capacity _ _ => exact ⟨capacity, rfl⟩
  | case2 _ _ _ _ ih => exact ih
  | case3 capacity _ hlt hover =>
    have hl : memoryLimit = 0x8000000000000000 := rfl
    have hm : maxSize = 0xffffffffffffffff := rfl
    omega

/-- Doubling stops before it comes to twice the demand. -/
theorem doubledCapacity?_le_two_mul {required capacity found : Nat} {h : 0 < capacity}
    (hf : doubledCapacity? required capacity h = some found) :
    found ≤ max capacity (2 * required) := by
  fun_induction doubledCapacity? required capacity h with
  | case1 capacity _ _ =>
    cases hf
    exact Nat.le_max_left _ _
  | case2 capacity _ hlt _ ih =>
    have := ih hf
    omega
  | case3 => cases hf

variable {alloc : Allocator} {most : Nat}

/-- Room that is asked for is made. -/
theorem Storage.reserve_of_grantsFor {α : Type} [Element α] (hg : alloc.GrantsFor most)
    (hsize : Element.size α ≤ Element.size (List UInt8)) (s : Storage α) {additional : Nat}
    (h : s.slots.size + additional ≤ 2 * (most + 1)) : ∃ t, s.reserve alloc additional = .ok t := by
  unfold reserve
  split
  · exact ⟨s, rfl⟩
  · obtain ⟨room, hroom⟩ := hg hsize h
    rw [hroom]
    exact ⟨_, rfl⟩

namespace Buffer

variable {α : Type} [Element α]

/-- A new buffer can be had. -/
theorem create_of_grantsFor (hg : alloc.GrantsFor most)
    (hsize : Element.size α ≤ Element.size (List UInt8)) {initial : Nat}
    (h : initial ≤ 2 * (most + 1)) : ∃ b : Buffer α, create alloc initial = .ok b := by
  obtain ⟨storage, hs⟩ := Storage.reserve_of_grantsFor hg hsize ({} : Storage α)
    (by simpa using h)
  unfold create
  rw [hs]
  exact ⟨_, rfl⟩

omit [Element α] in
/-- A buffer that grows asks for at most twice as many slots as it is to have elements, or for
one. -/
theorem request_le {b : Buffer α} (hb : b.isSound = true) {demand capacity : Nat}
    {hpos : 0 < max b.capacity 1} (hgrows : ¬ (b.isAllocated = true ∧ demand ≤ b.capacity))
    (hc : doubledCapacity? demand (max b.capacity 1) hpos = some capacity) :
    (b.storage.getD {}).slots.size + (capacity - (b.storage.getD {}).slots.size) ≤
      max 1 (2 * demand) := by
  have hle := (le_doubledCapacity? hc).2
  have hless := doubledCapacity?_le_two_mul hc
  obtain ⟨_ | s, length, reserved⟩ := b
  · obtain ⟨rfl, rfl⟩ := isSound_none.mp hb
    dsimp only [Option.getD_none, Array.size_empty] at hle hless ⊢
    omega
  · obtain ⟨-, hslots, -⟩ := isSound_some.mp hb
    have hdemand : reserved < demand := Nat.lt_of_not_le fun hfull ↦ hgrows ⟨rfl, hfull⟩
    dsimp only [Option.getD_some] at hle hless ⊢
    omega

/-- Slots can be reserved as long as there are not too many elements for memory. -/
theorem reserve_of_grantsFor (hg : alloc.GrantsFor most)
    (hsize : Element.size α ≤ Element.size (List UInt8)) {b : Buffer α} (hb : b.isSound = true)
    {additional : Nat} (hmost : b.length + additional ≤ most + 1)
    (hfits : b.length + additional ≤ memoryLimit) :
    ∃ c, reserve alloc additional b = .ok () c := by
  have hl : memoryLimit = 0x8000000000000000 := rfl
  have hm : maxSize = 0xffffffffffffffff := rfl
  unfold reserve
  rw [if_neg (by omega)]
  split
  · exact ⟨b, rfl⟩
  · next hgrows =>
    have hpos : 0 < max b.capacity 1 := by omega
    obtain ⟨capacity, hc⟩ := doubledCapacity?_of_le_memoryLimit hpos hfits
    have hrequest : max 1 (2 * (b.length + additional)) ≤ 2 * (most + 1) := by omega
    obtain ⟨storage, hs⟩ := Storage.reserve_of_grantsFor hg hsize (b.storage.getD {})
      (Nat.le_trans (request_le hb hgrows hc) hrequest)
    rw [hc]
    dsimp only
    rw [hs]
    exact ⟨_, rfl⟩

/-- An element can be added, and comes last, as long as there are not too many for memory. -/
theorem push_of_grantsFor (hg : alloc.GrantsFor most)
    (hsize : Element.size α ≤ Element.size (List UInt8)) {b : Buffer α} (hb : b.isSound = true)
    (hmost : b.toList.length ≤ most) (hlt : b.toList.length < memoryLimit) (v : α) :
    ∃ c, push alloc v b = .ok () c ∧ c.isSound = true ∧ c.toList = b.toList ++ [v] := by
  have hpush : ∃ c, push alloc v b = .ok () c := by
    unfold push
    split
    · rw [length_toList hb] at hmost hlt
      have hfits : b.length + 1 ≤ memoryLimit := hlt
      obtain ⟨c, hc⟩ := reserve_of_grantsFor hg hsize hb (by omega) hfits
      rw [hc]
      exact ⟨_, rfl⟩
    · exact ⟨_, rfl⟩
  obtain ⟨c, hc⟩ := hpush
  exact ⟨c, hc, push_eq_ok hc hb⟩

end Buffer
end Delimited
