import Delimited.Buffer.History
import Delimited.Buffer.Lemmas

/-!
# What operations do to the slots of a buffer

The slots that have been written stand in a row, and the first ones of the row are in use. All that
an operation does to a sound buffer is said by what becomes of the row, of the number of used slots
and of the capacity. An operation that fails leaves the buffer as it was.
-/

namespace Delimited

variable {α : Type}

/-- Puts values into the slots of a row from a place on, and behind its end where it is over. -/
def overwrite (row : List α) (place : Nat) (values : List α) : List α :=
  row.take place ++ values ++ row.drop (place + values.length)

@[simp] theorem overwrite_nil (row : List α) (place : Nat) : overwrite row place [] = row := by
  simp [overwrite]

theorem length_overwrite {row : List α} {place : Nat} (h : place ≤ row.length)
    (values : List α) :
    (overwrite row place values).length = max row.length (place + values.length) := by
  simp [overwrite]
  omega

theorem getElem?_overwrite {row : List α} {place : Nat} (h : place ≤ row.length)
    (values : List α) (i : Nat) :
    (overwrite row place values)[i]? =
      if place ≤ i ∧ i < place + values.length then values[i - place]? else row[i]? := by
  have htake : (row.take place).length = place := List.length_take_of_le h
  unfold overwrite
  rw [List.append_assoc, List.getElem?_append, htake, List.getElem?_append]
  split
  · next hi => rw [if_neg (by omega), List.getElem?_take_of_lt hi]
  · split
    · rw [if_pos (by omega)]
    · rw [if_neg (by omega), List.getElem?_drop]
      congr 1
      omega

theorem overwrite_cons {row : List α} {place : Nat} (h : place ≤ row.length) (v : α)
    (values : List α) :
    overwrite (overwrite row place [v]) (place + 1) values = overwrite row place (v :: values) := by
  have htake : (row.take place ++ [v]).length = place + 1 := by
    rw [List.length_append, List.length_take_of_le h, List.length_singleton]
  have hdrop : place + (v :: values).length = place + 1 + values.length := by
    rw [List.length_cons]
    omega
  unfold overwrite
  rw [List.take_append_of_le_length (Nat.le_of_eq htake.symm), ← htake, List.take_length,
    List.drop_append, List.drop_of_length_le (Nat.le_add_right _ _), List.nil_append,
    Nat.add_sub_cancel_left, List.drop_drop, List.length_singleton, hdrop]
  simp

theorem take_overwrite {row : List α} {place : Nat} (h : place ≤ row.length)
    (values : List α) :
    (overwrite row place values).take (place + values.length) = row.take place ++ values := by
  have htake : (row.take place ++ values).length = place + values.length := by
    rw [List.length_append, List.length_take_of_le h]
  unfold overwrite
  rw [List.take_append_of_le_length (Nat.le_of_eq htake.symm), ← htake, List.take_length]

theorem overwrite_singleton {row : List α} {place : Nat} (h : place < row.length) (v : α) :
    overwrite row place [v] = row.set place v := by
  rw [overwrite, List.set_eq_take_append_cons_drop, if_pos h, List.append_assoc]
  rfl

namespace Buffer

/-- The slots that have been written since the storage was created. -/
def slots (b : Buffer α) : List α := (b.storage.getD {}).slots.toList

/-- The number of slots that there is room for. -/
def room (b : Buffer α) : Nat := (b.storage.getD {}).room

theorem slot?_eq (b : Buffer α) (i : Nat) : b.slot? i = b.slots[i]? := by
  obtain ⟨_ | s, length, capacity⟩ := b
  · rfl
  · simp [slot?, slots]

theorem toList_eq_take (b : Buffer α) : b.toList = b.slots.take b.length := by
  obtain ⟨_ | s, length, capacity⟩ := b
  · exact List.take_nil.symm
  · exact toList_some s length capacity

/-- There are no more elements than slots in use. -/
theorem length_toList_le (b : Buffer α) : b.toList.length ≤ b.length := by
  rw [toList_eq_take]
  exact List.length_take_le _ _

/-- The counts of a sound buffer stand in this order. -/
theorem isSound_iff {b : Buffer α} :
    b.isSound = true ↔
      b.length ≤ b.slots.length ∧ b.slots.length ≤ b.capacity ∧ b.capacity ≤ b.room := by
  obtain ⟨_ | s, length, capacity⟩ := b
  · rw [isSound_none]
    simp [slots, room]
  · exact isSound_some

theorem length_le_capacity {b : Buffer α} (hb : b.isSound = true) : b.length ≤ b.capacity := by
  obtain ⟨hlength, hslots, -⟩ := isSound_iff.mp hb
  exact Nat.le_trans hlength hslots

/-- No slot of a new buffer has been written. -/
theorem slots_of_create_eq_ok [Element α] {alloc : Allocator} {initial : Nat} {b : Buffer α}
    (h : create alloc initial = .ok b) : b.slots = [] := by
  unfold create at h
  split at h
  · next storage hs =>
    cases h
    exact congrArg Array.toList (Storage.reserve_eq_ok hs (Nat.le_refl 0)).1
  · cases h

theorem max_capacity_pos (b : Buffer α) : 0 < max b.capacity 1 := by omega

/-- How the capacity of a buffer comes to meet a demand: a capacity that does not meet it yet is
doubled. -/
def Grows (b : Buffer α) (demand : Nat) (c : Buffer α) : Prop :=
  c.isAllocated = true ∧
    if b.isAllocated = true ∧ demand ≤ b.capacity then c.capacity = b.capacity
    else doubledCapacity? demand (max b.capacity 1) b.max_capacity_pos = some c.capacity

theorem Grows.le_capacity {b c : Buffer α} {demand : Nat} (h : b.Grows demand c) :
    demand ≤ c.capacity := by
  obtain ⟨-, h⟩ := h
  split at h
  · omega
  · exact (le_doubledCapacity? h).1

theorem Grows.capacity_le {b c : Buffer α} {demand : Nat} (h : b.Grows demand c) :
    b.capacity ≤ c.capacity := by
  obtain ⟨-, h⟩ := h
  split at h
  · omega
  · have := (le_doubledCapacity? h).2
    omega

/-- A value that is stored goes to the first slot that is not in use. -/
theorem slots_store {b : Buffer α} (v : α) (hb : b.isSound = true) :
    (b.store v).slots = overwrite b.slots b.length [v] := by
  obtain ⟨hlength, -⟩ := isSound_iff.mp hb
  unfold store slots at *
  generalize b.storage.getD {} = s at *
  simp only [Option.getD_some, Storage.write]
  split
  · next hi => simp [overwrite, List.set_eq_take_append_cons_drop, hi]
  · next hi =>
    have hfull : b.length = s.slots.toList.length := by
      simp at hlength ⊢
      omega
    simp [overwrite, Storage.append, hfull, List.take_of_length_le, List.drop_of_length_le]

section Growing

variable [Element α] {alloc : Allocator} {b c : Buffer α}

/-- Making room succeeds where there is room already, or where a capacity is found and storage for
it can be had. -/
theorem reserve_cases {additional : Nat} (h : reserve alloc additional b = .ok () c) :
    (b.isAllocated = true ∧ b.length + additional ≤ b.capacity) ∧ c = b ∨
      ¬ (b.isAllocated = true ∧ b.length + additional ≤ b.capacity) ∧
        ∃ capacity storage,
          doubledCapacity? (b.length + additional) (max b.capacity 1) b.max_capacity_pos =
            some capacity ∧
          (b.storage.getD {}).reserve alloc (capacity - (b.storage.getD {}).slots.size) =
            .ok storage ∧
          c = { b with storage := some storage, capacity } := by
  unfold reserve at h
  split at h
  · cases h
  · split at h
    · next hfits =>
      cases h
      exact .inl ⟨hfits, rfl⟩
    · next hfits =>
      split at h
      · cases h
      · next capacity hd =>
        dsimp only at h
        split at h
        · cases h
        · next storage hs =>
          cases h
          exact .inr ⟨hfits, capacity, storage, hd, hs, rfl⟩

/-- Making room leaves the slots as they are. -/
theorem of_reserve_eq_ok {additional : Nat} (h : reserve alloc additional b = .ok () c)
    (hb : b.isSound = true) :
    c.isSound = true ∧ c.slots = b.slots ∧ c.length = b.length ∧
      b.Grows (b.length + additional) c := by
  obtain ⟨hsound, -, hlength, ha, -⟩ := reserve_eq_ok h hb
  obtain ⟨hfits, rfl⟩ | ⟨hfits, capacity, storage, hd, hs, rfl⟩ := reserve_cases h
  · refine ⟨hsound, rfl, rfl, ha, ?_⟩
    rw [if_pos hfits]
  · obtain ⟨-, hslots, hroom⟩ := isSound_iff.mp hb
    obtain ⟨hkept, -⟩ := Storage.reserve_eq_ok hs (Nat.le_trans hslots hroom)
    refine ⟨hsound, congrArg Array.toList hkept, rfl, ha, ?_⟩
    rw [if_neg hfits, hd]

/-- Where there is a slot for a value, pushing is storing. -/
theorem push_of_fits (v : α) (ha : b.isAllocated = true) (hlt : b.length < b.capacity) :
    push alloc v b = .ok () (b.store v) := by
  unfold push
  rw [if_neg]
  simp [ha]
  omega

/-- A push stores its value into the buffer as it is or with room made for one element more. -/
theorem push_cases {v : α} (h : push alloc v b = .ok () c) :
    ∃ grown : Buffer α, c = grown.store v ∧
      (b.isAllocated = true ∧ b.length ≠ b.capacity ∧ grown = b ∨
        reserve alloc 1 b = .ok () grown) := by
  unfold push at h
  split at h
  · split at h
    · next grown hr =>
      cases h
      exact ⟨grown, rfl, .inr hr⟩
    · cases h
  · next hn =>
    cases h
    simp only [not_or, Bool.not_eq_false] at hn
    exact ⟨b, rfl, .inl ⟨hn.2, hn.1, rfl⟩⟩

/-- A push puts one more slot to use, be the buffer sound or not. -/
theorem length_of_push {v : α} (h : push alloc v b = .ok () c) : c.length = b.length + 1 := by
  obtain ⟨grown, rfl, ⟨-, -, rfl⟩ | hr⟩ := push_cases h
  · rfl
  · obtain ⟨-, rfl⟩ | ⟨-, capacity, storage, -, -, rfl⟩ := reserve_cases hr
    · rfl
    · rfl

/-- The buffer into which a push stores its value. -/
theorem grown_of_push {v : α} (h : push alloc v b = .ok () c) (hb : b.isSound = true) :
    ∃ grown : Buffer α, c = grown.store v ∧ grown.isSound = true ∧ grown.slots = b.slots ∧
      grown.length = b.length ∧ b.Grows (b.length + 1) grown := by
  obtain ⟨grown, rfl, ⟨ha, hne, rfl⟩ | hr⟩ := push_cases h
  · have hle := length_le_capacity hb
    refine ⟨grown, rfl, hb, rfl, rfl, ha, ?_⟩
    rw [if_pos ⟨ha, by omega⟩]
  · obtain ⟨hsound, hslots, hlength, hgrows⟩ := of_reserve_eq_ok hr hb
    exact ⟨grown, rfl, hsound, hslots, hlength, hgrows⟩

/-- A pushed value goes to the first slot that is not in use. -/
theorem of_push_eq_ok {v : α} (h : push alloc v b = .ok () c) (hb : b.isSound = true) :
    c.isSound = true ∧ c.slots = overwrite b.slots b.length [v] ∧ c.length = b.length + 1 ∧
      b.Grows (b.length + 1) c := by
  obtain ⟨hsound, -⟩ := push_eq_ok h hb
  obtain ⟨grown, rfl, hg, hslots, hlength, hgrows⟩ := grown_of_push h hb
  refine ⟨hsound, ?_, congrArg (· + 1) hlength, rfl, hgrows.2⟩
  rw [slots_store v hg, hslots, hlength]

/-- Values for which there are slots can all be pushed, and the capacity stays. -/
theorem pushAll_of_fits (alloc : Allocator) {values : List α} (hb : b.isSound = true)
    (ha : b.isAllocated = true) (hfits : b.length + values.length ≤ b.capacity) :
    ∃ c, pushAll alloc values b = .ok () c ∧ c.isSound = true ∧
      c.slots = overwrite b.slots b.length values ∧ c.length = b.length + values.length ∧
      c.isAllocated = true ∧ c.capacity = b.capacity := by
  induction values generalizing b with
  | nil => exact ⟨b, rfl, hb, (overwrite_nil _ _).symm, rfl, ha, rfl⟩
  | cons v values ih =>
    rw [List.length_cons] at hfits ⊢
    have hpush : push alloc v b = .ok () (b.store v) := push_of_fits v ha (by omega)
    obtain ⟨hsound, hslots, hlength, -⟩ := of_push_eq_ok hpush hb
    have hfits' : (b.store v).length + values.length ≤ (b.store v).capacity := by
      show b.length + 1 + values.length ≤ b.capacity
      omega
    obtain ⟨c, hc, hsound', hslots', hlength', ha', hcapacity⟩ := ih hsound rfl hfits'
    refine ⟨c, ?_, hsound', ?_, ?_, ha', hcapacity⟩
    · rw [pushAll, hpush]
      exact hc
    · rw [hslots', hslots, hlength, overwrite_cons (isSound_iff.mp hb).1]
    · rw [hlength', hlength]
      omega

/-- Once room has been made for all the values, they are added without fail. -/
theorem extend_of_reserve {values : List α} {grown : Buffer α}
    (hr : reserve alloc values.length b = .ok () grown) (hb : b.isSound = true) :
    ∃ c, extend alloc values b = .ok () c ∧ c.isSound = true ∧
      c.slots = overwrite b.slots b.length values ∧ c.length = b.length + values.length ∧
      b.Grows (b.length + values.length) c := by
  obtain ⟨hsound, hslots, hlength, hgrows⟩ := of_reserve_eq_ok hr hb
  obtain ⟨c, hc, hsound', hslots', hlength', ha, hcapacity⟩ :=
    pushAll_of_fits alloc hsound hgrows.1 (by rw [hlength]; exact hgrows.le_capacity)
  refine ⟨c, ?_, hsound', ?_, ?_, ha, ?_⟩
  · rw [extend, hr]
    exact hc
  · rw [hslots', hslots, hlength]
  · rw [hlength', hlength]
  · rw [hcapacity]
    exact hgrows.2

/-- Values that are added at once go to the slots behind those in use. -/
theorem of_extend_eq_ok {values : List α} (h : extend alloc values b = .ok () c)
    (hb : b.isSound = true) :
    c.isSound = true ∧ c.slots = overwrite b.slots b.length values ∧
      c.length = b.length + values.length ∧ b.Grows (b.length + values.length) c := by
  cases hr : reserve alloc values.length b with
  | ok _ grown =>
    obtain ⟨c', hc', hextended⟩ := extend_of_reserve hr hb
    rw [h] at hc'
    cases hc'
    exact hextended
  | error e d =>
    rw [extend, hr] at h
    cases h

/-- Values that cannot be added at once are values that there is no getting room for. -/
theorem reserve_of_extend_eq_error {values : List α} {e : GrowthError}
    (h : extend alloc values b = .error e c) (hb : b.isSound = true) :
    reserve alloc values.length b = .error e c := by
  cases hr : reserve alloc values.length b with
  | ok _ grown =>
    obtain ⟨c', hc', -⟩ := extend_of_reserve hr hb
    rw [h] at hc'
    cases hc'
  | error e' d =>
    rw [extend, hr] at h
    cases h
    rfl

/-- Values that cannot be added at once change nothing. -/
theorem eq_of_extend_eq_error {values : List α} {e : GrowthError}
    (h : extend alloc values b = .error e c) (hb : b.isSound = true) : c = b :=
  eq_of_reserve_eq_error (reserve_of_extend_eq_error h hb)

end Growing

/-- A slot that is overwritten has been written before, and no other one changes. -/
theorem slots_replaceSlot (b : Buffer α) (i : Nat) (v : α) :
    let c := ((b.replaceSlot? i v).map Prod.snd).getD b
    c.slots = b.slots.set i v ∧ c.room = b.room ∧ c.length = b.length ∧
      c.capacity = b.capacity ∧ c.isAllocated = b.isAllocated := by
  obtain ⟨_ | s, length, capacity⟩ := b
  · exact ⟨rfl, rfl, rfl, rfl, rfl⟩
  · by_cases hi : i < s.slots.size
    · simp [replaceSlot?, hi, slots, room, isAllocated]
    · have hset : s.slots.toList.set i v = s.slots.toList := by
        apply List.set_eq_of_length_le
        simp
        omega
      simp [replaceSlot?, hi, slots, hset]

/-- An element that is overwritten is in use. -/
theorem set?_getD (b : Buffer α) (i : Nat) (v : α) :
    (b.set? i v).getD b =
      if i < b.length then ((b.replaceSlot? i v).map Prod.snd).getD b else b := by
  unfold set?
  split
  · rfl
  · rfl

/-- Rearranging touches the slots in use and no other. -/
theorem slots_rearrange {b : Buffer α} {order : List α → List α} (hb : b.isSound = true)
    (horder : (order b.toList).length = b.toList.length) :
    (b.rearrange order).isSound = true ∧
      (b.rearrange order).slots = overwrite b.slots 0 (order b.toList) := by
  have hlength := length_toList hb
  obtain ⟨_ | s, length, capacity⟩ := b
  · have hnil : order [] = [] := List.eq_nil_of_length_eq_zero horder
    exact ⟨hb, by simp [rearrange, slots, overwrite, toList, used, hnil]⟩
  · obtain ⟨hlen, hsize, hroom⟩ := isSound_some.mp hb
    have hkept : (order (toList ⟨some s, length, capacity⟩)).length = length :=
      horder.trans hlength
    refine ⟨isSound_some.mpr ⟨?_, ?_, hroom⟩, ?_⟩
    · simp [hkept]
    · simp [hkept]
      omega
    · simp only [rearrange, slots, overwrite, hkept, Option.map_some, Option.getD_some,
        Array.toList_append, Array.toList_extract, List.extract_eq_take_drop, List.take_zero,
        List.nil_append, Nat.zero_add]
      rw [List.take_of_length_le (by simp)]

/-- A copy has the same slots. -/
theorem slots_copy {b : Buffer α} (hb : b.isSound = true) :
    b.copy.isSound = true ∧ b.copy.slots = b.slots ∧ b.copy.isAllocated = b.isAllocated := by
  obtain ⟨_ | s, length, capacity⟩ := b
  · exact ⟨hb, rfl, rfl⟩
  · obtain ⟨hlen, hsize, -⟩ := isSound_some.mp hb
    exact ⟨isSound_some.mpr ⟨hlen, hsize, Nat.le_refl capacity⟩, rfl, rfl⟩

/-- A copy whose storage could be had has the same slots. -/
theorem of_tryCopy_eq_ok [Element α] {alloc : Allocator} {b c : Buffer α}
    (h : b.tryCopy alloc = .ok c) (hb : b.isSound = true) :
    c.isSound = true ∧ c.slots = b.slots ∧ c.length = b.length ∧ c.capacity = b.capacity ∧
      c.isAllocated = b.isAllocated := by
  obtain ⟨_ | s, length, capacity⟩ := b
  · cases h
    exact ⟨hb, rfl, rfl, rfl, rfl⟩
  · obtain ⟨hlen, hsize, -⟩ := isSound_some.mp hb
    unfold tryCopy at h
    dsimp only at h
    split at h
    · next storage hs =>
      cases h
      obtain ⟨-, hroom⟩ := Storage.reserve_eq_ok hs (Nat.le_refl 0)
      refine ⟨isSound_some.mpr ⟨hlen, hsize, ?_⟩, rfl, rfl, rfl, rfl⟩
      simpa using hroom
    · cases h

end Buffer
end Delimited
