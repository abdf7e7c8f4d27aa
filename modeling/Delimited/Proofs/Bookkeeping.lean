import Delimited.Proofs.Slots

/-!
# The bookkeeping of a buffer

An operation on a buffer either fails and changes nothing, or makes of the elements what it would
make of a plain list, and overwrites certain slots. The counts agree with the storage all along,
whatever becomes of the requests for memory. So nothing that a buffer does without a check can go
wrong.
-/

namespace Delimited.Buffer

variable {α : Type}

namespace Operation

/-- What an operation makes of a plain list. -/
def onList : Operation α → List α → List α
  | .push v, elements => elements ++ [v]
  | .pop _, elements => elements.dropLast
  | .extend values, elements => elements ++ values
  | .reserve _, elements => elements
  | .clear, _ => []
  | .free, _ => []
  | .sort order, elements => elements.mergeSort fun x y ↦ (order.compare x y).isLE
  | .reverse, elements => elements.reverse
  | .set i v, elements => elements.set i v
  | .replaceSlot i v, elements => elements.set i v
  | .copy, elements => elements
  | .tryCopy, elements => elements

/-- The element of a plain list that an operation gives. -/
def givenOf : Operation α → List α → Option α
  | .pop fallback, elements => some (elements.getLast?.getD fallback)
  | _, _ => none

/-- The values that an operation stores, and the place of the first one, where there are these
elements and so many slots. -/
def stores (elements : List α) (slots : Nat) : Operation α → Nat × List α
  | .push v => (elements.length, [v])
  | .extend values => (elements.length, values)
  | .sort order => (0, onList (.sort order) elements)
  | .reverse => (0, elements.reverse)
  | .set i v => if i < elements.length then (i, [v]) else (0, [])
  | .replaceSlot i v => if i < slots then (i, [v]) else (0, [])
  | _ => (0, [])

/-- The number of slots that an operation asks for, where so many are in use. -/
def demand? (length : Nat) : Operation α → Option Nat
  | .push _ => some (length + 1)
  | .extend values => some (length + values.length)
  | .reserve additional => some (length + additional)
  | _ => none

end Operation

/-- What a successful operation leaves of a buffer. -/
structure Obeys (operation : Operation α) (b c : Buffer α) : Prop where
  sound : c.isSound = true
  elements : c.toList = operation.onList b.toList
  freed : operation = .free → c = unallocated
  slots : operation ≠ .free →
    let stored := operation.stores b.toList b.slots.length
    c.slots = overwrite b.slots stored.1 stored.2
  capacity : operation ≠ .free →
    match operation.demand? b.length with
    | some demand => b.Grows demand c
    | none => c.isAllocated = b.isAllocated ∧ c.capacity = b.capacity

/-- The elements of a buffer whose slots in use have been put into another order. -/
theorem toList_rearrange {b : Buffer α} {order : List α → List α} (hb : b.isSound = true)
    (horder : (order b.toList).length = b.toList.length) :
    (b.rearrange order).toList = order b.toList := by
  have hlength : (order b.toList).length = b.length := horder.trans (length_toList hb)
  have htake := take_overwrite (Nat.zero_le b.slots.length) (order b.toList)
  rw [toList_eq_take, (slots_rearrange hb horder).2]
  rw [Nat.zero_add, hlength, List.take_zero, List.nil_append] at htake
  exact htake

/-- Removing an element touches no slot. -/
theorem slots_pop (b : Buffer α) (fallback : α) :
    (b.pop fallback).2.slots = b.slots ∧
      (b.pop fallback).2.isAllocated = b.isAllocated ∧
      (b.pop fallback).2.capacity = b.capacity := by
  unfold pop
  split
  · exact ⟨rfl, rfl, rfl⟩
  · exact ⟨rfl, rfl, rfl⟩

/-- A slot that is overwritten changes the element at its place, if it is in use. -/
theorem toList_replaceSlot (b : Buffer α) (i : Nat) (v : α) :
    (((b.replaceSlot? i v).map Prod.snd).getD b).toList = b.toList.set i v := by
  obtain ⟨hslots, -, hlength, -⟩ := slots_replaceSlot b i v
  rw [toList_eq_take, hslots, hlength, List.take_set, ← toList_eq_take]

theorem pop_fst {b : Buffer α} (fallback : α) (hb : b.isSound = true) :
    (b.pop fallback).1 = b.toList.getLast?.getD fallback := by
  have hlength := length_toList hb
  unfold pop
  split
  · next hz =>
    have hnil : b.toList = [] := List.eq_nil_of_length_eq_zero (hlength.trans hz)
    rw [hnil]
    rfl
  · next hz =>
    dsimp only
    rw [slot?_eq, List.getLast?_eq_getElem?, hlength, toList_eq_take,
      List.getElem?_take_of_lt (by omega)]
    rfl

section Obedience

variable {b c : Buffer α}

/-- Operations that only change which slots are in use. -/
theorem obeys_of_slots (operation : Operation α) (hfree : operation ≠ .free)
    (hstores : (operation.stores b.toList b.slots.length).2 = [])
    (hdemand : operation.demand? b.length = none) (hsound : c.isSound = true)
    (helements : c.toList = operation.onList b.toList) (hslots : c.slots = b.slots)
    (hallocated : c.isAllocated = b.isAllocated) (hcapacity : c.capacity = b.capacity) :
    Obeys operation b c where
  sound := hsound
  elements := helements
  freed h := absurd h hfree
  slots _ := by
    dsimp only
    rw [hstores, overwrite_nil, hslots]
  capacity _ := by
    rw [hdemand]
    exact ⟨hallocated, hcapacity⟩

/-- Operations that put the slots in use into another order. -/
theorem obeys_rearrange (operation : Operation α) {order : List α → List α}
    (hb : b.isSound = true) (hfree : operation ≠ .free)
    (hstores : operation.stores b.toList b.slots.length = (0, order b.toList))
    (hdemand : operation.demand? b.length = none)
    (horder : (order b.toList).length = b.toList.length)
    (hlist : operation.onList b.toList = order b.toList) :
    Obeys operation b (b.rearrange order) where
  sound := (slots_rearrange hb horder).1
  elements := (toList_rearrange hb horder).trans hlist.symm
  freed h := absurd h hfree
  slots _ := by
    rw [hstores]
    exact (slots_rearrange hb horder).2
  capacity _ := by
    rw [hdemand]
    exact ⟨Option.isSome_map, rfl⟩

/-- Overwriting a slot that has been written. -/
theorem obeys_replaceSlot (i : Nat) (v : α) (hb : b.isSound = true) :
    Obeys (.replaceSlot i v) b (((b.replaceSlot? i v).map Prod.snd).getD b) := by
  obtain ⟨hslots, hroom, hlength, hcapacity, hallocated⟩ := slots_replaceSlot b i v
  refine ⟨?_, toList_replaceSlot b i v, nofun, fun _ ↦ ?_, fun _ ↦ ⟨hallocated, hcapacity⟩⟩
  · rw [isSound_iff, hslots, hroom, hlength, hcapacity, List.length_set]
    exact isSound_iff.mp hb
  · rw [hslots]
    simp only [Operation.stores]
    split
    · next hi => exact (overwrite_singleton hi v).symm
    · next hi => rw [overwrite_nil, List.set_eq_of_length_le (by omega)]

/-- Overwriting an element. -/
theorem obeys_set (i : Nat) (v : α) (hb : b.isSound = true) :
    Obeys (.set i v) b ((b.set? i v).getD b) := by
  have hlength := length_toList hb
  rw [set?_getD]
  split
  · next hi =>
    have hwritten : i < b.slots.length := Nat.lt_of_lt_of_le hi (isSound_iff.mp hb).1
    obtain ⟨hsound, helements, -, hslots, hcapacity⟩ := obeys_replaceSlot i v hb
    refine ⟨hsound, helements, nofun, fun _ ↦ ?_, hcapacity ∘ fun _ ↦ nofun⟩
    rw [hslots nofun]
    simp [Operation.stores, hwritten, hlength, hi]
  · next hi =>
    refine obeys_of_slots _ nofun ?_ rfl hb ?_ rfl rfl rfl
    · simp [Operation.stores, hlength, hi]
    · exact (List.set_eq_of_length_le (by omega)).symm

theorem obeys_free (hb : b.isSound = true) : Obeys .free b b.free := by
  rw [free_eq_unallocated hb]
  exact ⟨rfl, rfl, fun _ ↦ rfl, fun h ↦ absurd rfl h, fun h ↦ absurd rfl h⟩

variable [Element α] {alloc : Allocator}

theorem obeys_push {v : α} (h : push alloc v b = .ok () c) (hb : b.isSound = true) :
    Obeys (.push v) b c := by
  obtain ⟨hsound, hslots, -, hgrows⟩ := of_push_eq_ok h hb
  refine ⟨hsound, (push_eq_ok h hb).2, nofun, fun _ ↦ ?_, fun _ ↦ hgrows⟩
  rw [hslots, ← length_toList hb]
  rfl

theorem obeys_extend {values : List α} (h : extend alloc values b = .ok () c)
    (hb : b.isSound = true) : Obeys (.extend values) b c := by
  obtain ⟨hsound, hslots, -, hgrows⟩ := of_extend_eq_ok h hb
  refine ⟨hsound, (extend_eq_ok h hb).2, nofun, fun _ ↦ ?_, fun _ ↦ hgrows⟩
  rw [hslots, ← length_toList hb]
  rfl

theorem obeys_reserve {additional : Nat} (h : reserve alloc additional b = .ok () c)
    (hb : b.isSound = true) : Obeys (.reserve additional) b c := by
  obtain ⟨hsound, hslots, -, hgrows⟩ := of_reserve_eq_ok h hb
  refine ⟨hsound, (reserve_eq_ok h hb).2.1, nofun, fun _ ↦ ?_, fun _ ↦ hgrows⟩
  rw [hslots]
  exact (overwrite_nil _ _).symm

omit [Element α] in
theorem of_answered_eq_ok {result : EStateM.Result GrowthError (Buffer α) Unit}
    {given : Option α} (h : (answered result).1 = .ok given) :
    given = none ∧ result = .ok () (answered result).2 := by
  cases result with
  | ok u c =>
    cases h
    exact ⟨rfl, rfl⟩
  | error e c => cases h

omit [Element α] in
theorem of_answered_eq_error {result : EStateM.Result GrowthError (Buffer α) Unit}
    {e : GrowthError} (h : (answered result).1 = .error e) :
    result = .error e (answered result).2 := by
  cases result with
  | ok u c => cases h
  | error e' c =>
    cases h
    rfl

theorem of_tryCopy_answer {given : Option α}
    (h : b.answer ⟨alloc, .tryCopy⟩ = .ok given) :
    ∃ c, b.tryCopy alloc = .ok c ∧ given = none ∧ b.perform ⟨alloc, .tryCopy⟩ = c := by
  simp only [answer, perform, respond] at h ⊢
  split at h
  · next c hc =>
    cases h
    rw [hc]
    exact ⟨c, rfl, rfl, rfl⟩
  · cases h

/-- What a use that succeeds gives and leaves. -/
theorem obeys_of_answer {use : Use α} {given : Option α} (h : b.answer use = .ok given)
    (hb : b.isSound = true) :
    given = use.operation.givenOf b.toList ∧ Obeys use.operation b (b.perform use) := by
  obtain ⟨alloc, operation⟩ := use
  cases operation with
  | push v =>
    obtain ⟨hgiven, hok⟩ := of_answered_eq_ok h
    exact ⟨hgiven, obeys_push hok hb⟩
  | extend values =>
    obtain ⟨hgiven, hok⟩ := of_answered_eq_ok h
    exact ⟨hgiven, obeys_extend hok hb⟩
  | reserve additional =>
    obtain ⟨hgiven, hok⟩ := of_answered_eq_ok h
    exact ⟨hgiven, obeys_reserve hok hb⟩
  | pop fallback =>
    cases h
    obtain ⟨hsound, helements⟩ := toList_pop fallback hb
    refine ⟨congrArg some (pop_fst fallback hb), ?_⟩
    obtain ⟨hslots, ha, hcapacity⟩ := slots_pop b fallback
    exact obeys_of_slots (.pop fallback) nofun rfl rfl hsound helements hslots ha hcapacity
  | clear =>
    cases h
    exact ⟨rfl, obeys_of_slots .clear nofun rfl rfl (isSound_clear hb) (toList_clear b) rfl rfl rfl⟩
  | free =>
    cases h
    exact ⟨rfl, obeys_free hb⟩
  | sort order =>
    cases h
    exact ⟨rfl, obeys_rearrange (.sort order) hb nofun rfl rfl (List.length_mergeSort _) rfl⟩
  | reverse =>
    cases h
    exact ⟨rfl, obeys_rearrange .reverse hb nofun rfl rfl List.length_reverse rfl⟩
  | set i v =>
    cases h
    exact ⟨rfl, obeys_set i v hb⟩
  | replaceSlot i v =>
    cases h
    exact ⟨rfl, obeys_replaceSlot i v hb⟩
  | copy =>
    cases h
    obtain ⟨hsound, hslots, ha⟩ := slots_copy hb
    refine ⟨rfl, obeys_of_slots .copy nofun rfl rfl hsound ?_ hslots ha rfl⟩
    show b.copy.toList = b.toList
    rw [toList_eq_take, hslots, toList_eq_take]
    rfl
  | tryCopy =>
    obtain ⟨c, hc, rfl, hperform⟩ := of_tryCopy_answer h
    obtain ⟨hsound, hslots, hlength, hcapacity, ha⟩ := of_tryCopy_eq_ok hc hb
    rw [hperform]
    refine ⟨rfl, obeys_of_slots .tryCopy nofun rfl rfl hsound ?_ hslots ha hcapacity⟩
    show c.toList = b.toList
    rw [toList_eq_take, hslots, hlength, toList_eq_take]

/-- A use that fails changes nothing. -/
theorem perform_of_error {use : Use α} {e : GrowthError} (h : b.answer use = .error e)
    (hb : b.isSound = true) : b.perform use = b := by
  obtain ⟨alloc, operation⟩ := use
  cases operation with
  | push v => exact eq_of_push_eq_error (of_answered_eq_error h)
  | extend values => exact eq_of_extend_eq_error (of_answered_eq_error h) hb
  | reserve additional => exact eq_of_reserve_eq_error (of_answered_eq_error h)
  | tryCopy =>
    simp only [answer, perform, respond] at h ⊢
    split at h
    · cases h
    · rfl
  | _ => cases h

end Obedience

/-- The counts agree with the storage, and the capacity is a size. -/
structure WellKept (b : Buffer α) : Prop where
  sound : b.isSound = true
  size : b.capacity ≤ maxSize

section Keeping

variable [Element α] {b : Buffer α}

theorem IsNew.wellKept (h : b.IsNew) : b.WellKept := by
  cases h with
  | unallocated => exact ⟨isSound_unallocated, Nat.zero_le _⟩
  | create hsize h =>
    obtain ⟨hsound, -, hcapacity⟩ := create_eq_ok h
    exact ⟨hsound, by rw [hcapacity]; exact hsize⟩

omit [Element α] in
theorem Grows.capacity_le_maxSize {c : Buffer α} {demand : Nat} (h : b.Grows demand c)
    (hb : b.capacity ≤ maxSize) : c.capacity ≤ maxSize := by
  obtain ⟨-, h⟩ := h
  split at h
  · rw [h]
    exact hb
  · exact doubledCapacity?_le_maxSize h (Nat.max_le.mpr ⟨hb, by decide⟩)

omit [Element α] in
theorem Obeys.wellKept {operation : Operation α} {c : Buffer α} (h : Obeys operation b c)
    (hb : b.WellKept) : c.WellKept := by
  refine ⟨h.sound, ?_⟩
  by_cases hfree : operation = .free
  · rw [h.freed hfree]
    exact Nat.zero_le _
  · have hcapacity := h.capacity hfree
    split at hcapacity
    · exact hcapacity.capacity_le_maxSize hb.size
    · rw [hcapacity.2]
      exact hb.size

/-- No use spoils the bookkeeping, whether it succeeds or not. -/
theorem WellKept.perform (use : Use α) (hb : b.WellKept) : (b.perform use).WellKept := by
  cases h : b.answer use with
  | ok given => exact (obeys_of_answer h hb.sound).2.wellKept hb
  | error e =>
    rw [perform_of_error h hb.sound]
    exact hb

theorem WellKept.run (history : List (Use α)) (hb : b.WellKept) : (b.run history).WellKept := by
  induction history generalizing b with
  | nil => exact hb
  | cons use history ih => exact ih (hb.perform use)

theorem Reachable.wellKept (h : b.Reachable) : b.WellKept := by
  obtain ⟨start, history, hstart, rfl⟩ := h
  exact hstart.wellKept.run history

theorem Reachable.run (h : b.Reachable) (later : List (Use α)) : (b.run later).Reachable := by
  obtain ⟨start, history, hstart, rfl⟩ := h
  exact ⟨start, history ++ later, hstart, run_append start history later⟩

/-- Adding values one by one is a history of pushes. -/
theorem run_of_pushAll {alloc : Allocator} {values : List α} {c : Buffer α}
    (h : pushAll alloc values b = .ok () c) :
    b.run (values.map fun v ↦ ⟨alloc, .push v⟩) = c := by
  fun_induction pushAll alloc values b with
  | case1 => cases h; rfl
  | case2 v values b grown hp ih =>
    show (answered (push alloc v b)).2.run _ = c
    rw [hp]
    exact ih h
  | case3 => cases h

/-- The buffer into which each of several values is stored has been reached by making room and
pushing the values before it. -/
theorem reachable_of_pushAll {alloc : Allocator} {earlier later : List α} {grown : Buffer α}
    (h : b.Reachable) (hr : reserve alloc (earlier ++ later).length b = .ok () grown) :
    ∃ c, pushAll alloc earlier grown = .ok () c ∧ c.Reachable := by
  obtain ⟨hsound, -, hlength, ha, hfits⟩ := reserve_eq_ok hr h.wellKept.sound
  have hroom : grown.length + earlier.length ≤ grown.capacity := by
    rw [List.length_append] at hfits
    omega
  obtain ⟨c, hc, -⟩ := pushAll_of_fits alloc hsound ha hroom
  have hgrown : b.run [⟨alloc, .reserve (earlier ++ later).length⟩] = grown := by
    show (answered (reserve alloc _ b)).2 = grown
    rw [hr]
    rfl
  refine ⟨c, hc, ?_⟩
  rw [← run_of_pushAll hc, ← hgrown]
  exact (h.run _).run _

/-- A push writes into a slot that exists, or behind the last one where there is room for it. -/
theorem room_of_push {alloc : Allocator} {v : α} {c : Buffer α}
    (h : push alloc v b = .ok () c) (hb : b.WellKept) :
    ∃ grown s, (grown = b ∨ reserve alloc 1 b = .ok () grown) ∧ c = grown.store v ∧
      grown.storage = some s ∧ grown.length < maxSize ∧ grown.length ≤ s.slots.size ∧
      (grown.length = s.slots.size → s.slots.size < s.room) ∧ c.room = s.room := by
  obtain ⟨grown, rfl, hgrown, hkept, ha, hlt⟩ : ∃ grown : Buffer α, c = grown.store v ∧
      (grown = b ∨ reserve alloc 1 b = .ok () grown) ∧ grown.WellKept ∧
        grown.isAllocated = true ∧ grown.length < grown.capacity := by
    obtain ⟨grown, rfl, ⟨ha, hne, rfl⟩ | hr⟩ := push_cases h
    · have hle := length_le_capacity hb.sound
      exact ⟨grown, rfl, .inl rfl, hb, ha, by omega⟩
    · obtain ⟨hsound, -, hlength, hgrows⟩ := of_reserve_eq_ok hr hb.sound
      have hfits := hgrows.le_capacity
      exact ⟨grown, rfl, .inr hr, ⟨hsound, hgrows.capacity_le_maxSize hb.size⟩, hgrows.1,
        by omega⟩
  have hsize := hkept.size
  obtain ⟨_ | s, length, capacity⟩ := grown
  · cases ha
  · obtain ⟨hlength, hslots, hroom⟩ := isSound_some.mp hkept.sound
    dsimp only at hlt hsize
    refine ⟨_, s, hgrown, rfl, rfl, Nat.lt_of_lt_of_le hlt hsize, hlength, ?_, ?_⟩
    · intro hfull
      dsimp only at hfull
      omega
    · show (s.write length v).room = s.room
      unfold Storage.write
      split
      · rfl
      · next hi =>
        simp only [Storage.append, Array.size_push]
        omega

omit [Element α] in
/-- A capacity that growth finds is no smaller than the number of slots written. -/
theorem slots_le_doubledCapacity {additional found : Nat} (hb : b.isSound = true)
    (h : doubledCapacity? (b.length + additional) (max b.capacity 1) b.max_capacity_pos =
      some found) :
    (b.storage.getD {}).slots.size ≤ found := by
  obtain ⟨-, hslots, -⟩ := isSound_iff.mp hb
  obtain ⟨-, hcapacity⟩ := le_doubledCapacity? h
  rw [slots, Array.length_toList] at hslots
  omega

omit [Element α] in
/-- The last used slot has been written, and is what is removed whatever the fallback. -/
theorem slot_of_pop (hb : b.isSound = true) (hlength : 0 < b.length) :
    ∃ v, b.slot? (b.length - 1) = some v ∧ ∀ fallback, (b.pop fallback).1 = v := by
  obtain ⟨hwritten, -⟩ := isSound_iff.mp hb
  have hlt : b.length - 1 < b.slots.length := by omega
  have hslot : b.slot? (b.length - 1) = some b.slots[b.length - 1] := by
    rw [slot?_eq, List.getElem?_eq_getElem hlt]
  refine ⟨_, hslot, fun fallback ↦ ?_⟩
  unfold pop
  rw [if_neg (by omega)]
  show ((b.slot? (b.length - 1)).getD fallback) = _
  rw [hslot, Option.getD_some]

/-- Whatever a new buffer is put to, and whichever requests for memory are refused, its counts agree
with its storage. So nothing that is done without a check fails unseen: a push writes a slot that
exists or one that there is room for, so it takes no new room, and the count of used slots stays a
size; this holds for each value that is added at once with others, too; growing never asks for
fewer slots than have been written; and an element is there to be removed unless the buffer is
empty. -/
theorem bookkeeping_holds (h : b.Reachable) :
    (b.storage = none ∧ b.length = 0 ∧ b.capacity = 0 ∨
      ∃ s, b.storage = some s ∧ b.length ≤ s.slots.size ∧ s.slots.size ≤ b.capacity ∧
        b.capacity ≤ s.room) ∧
    (∀ (alloc : Allocator) (v : α) (c : Buffer α), push alloc v b = .ok () c →
      ∃ grown s, (grown = b ∨ reserve alloc 1 b = .ok () grown) ∧ c = grown.store v ∧
        grown.storage = some s ∧ grown.length < maxSize ∧ grown.length ≤ s.slots.size ∧
        (grown.length = s.slots.size → s.slots.size < s.room) ∧ c.room = s.room) ∧
    (∀ (alloc : Allocator) (earlier later : List α) (grown : Buffer α),
      reserve alloc (earlier ++ later).length b = .ok () grown →
        ∃ c, pushAll alloc earlier grown = .ok () c ∧ c.Reachable) ∧
    (∀ additional found,
      doubledCapacity? (b.length + additional) (max b.capacity 1) b.max_capacity_pos = some found →
        (b.storage.getD {}).slots.size ≤ found) ∧
    (0 < b.length →
      ∃ v, b.slot? (b.length - 1) = some v ∧ ∀ fallback, (b.pop fallback).1 = v) := by
  have hb := h.wellKept
  refine ⟨?_, fun alloc v c hpush ↦ room_of_push hpush hb,
    fun alloc earlier later grown hr ↦ reachable_of_pushAll h hr,
    fun additional found hfound ↦ slots_le_doubledCapacity hb.sound hfound,
    slot_of_pop hb.sound⟩
  have hsound := hb.sound
  cases hs : b.storage with
  | none =>
    simp only [isSound, hs, Bool.and_eq_true, beq_iff_eq] at hsound
    exact .inl ⟨rfl, hsound⟩
  | some s =>
    simp only [isSound, hs, Bool.and_eq_true, decide_eq_true_eq] at hsound
    exact .inr ⟨s, rfl, hsound.1.1, hsound.1.2, hsound.2⟩

/-- A buffer for as many elements without size as there can be. Two have been put into it and one
taken out again, so that the next one goes to a slot that exists. -/
theorem bookkeeping_holds_without_size :
    ∃ b : Buffer Unit, b.Reachable ∧ b.capacity = maxSize ∧ b.length = 1 ∧ b.slots.length = 2 ∧
      (∃ (c grown : Buffer Unit) (s : Storage Unit), push .unlimited () b = .ok () c ∧
        c = grown.store () ∧ grown.storage = some s ∧ grown.length < maxSize ∧
        c.room = s.room) ∧
      ∃ v, b.slot? 0 = some v ∧ ∀ fallback, (b.pop fallback).1 = v := by
  let start : Buffer Unit := { storage := some { room := maxSize }, capacity := maxSize }
  have hcreate : create .unlimited maxSize = .ok start := rfl
  have hstart : start.IsNew := .create (Nat.le_refl maxSize) hcreate
  let history : List (Use Unit) :=
    [⟨.unlimited, .push ()⟩, ⟨.unlimited, .push ()⟩, ⟨.unlimited, .pop ()⟩]
  have hb : (start.run history).Reachable := ⟨start, history, hstart, rfl⟩
  obtain ⟨-, hpush, -, -, hpop⟩ := bookkeeping_holds hb
  obtain ⟨grown, s, -, hc, hs, hlt, -, -, hroom⟩ := hpush .unlimited () _ rfl
  exact ⟨_, hb, rfl, rfl, rfl, ⟨_, grown, s, rfl, hc, hs, hlt, hroom⟩, hpop Nat.one_pos⟩

end Keeping

end Delimited.Buffer
