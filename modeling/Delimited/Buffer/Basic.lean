import Delimited.Buffer.Storage

/-!
# Growable buffers

A buffer counts its used slots and its reserved slots beside the storage that holds them. It grows
by doubling, and growth that fails is an error that leaves the buffer as it was. Removing elements
only lowers the count of used slots: the slots behind keep their values until they are written
again. The used slots, in order, are the elements of the buffer; equality compares only them.
-/

namespace Delimited

/-- Why a buffer cannot grow. Specification 10.2, `BufferError`. -/
inductive GrowthError where
  /-- Memory could not be had. -/
  | allocation (failure : AllocationFailure)
  /-- The capacity that would be needed is no size. -/
  | capacityOverflow (length additional : Nat)
  deriving DecidableEq, Repr

/-- The wording of an error. -/
def GrowthError.message : GrowthError → String
  | .allocation failure => "allocation failure: " ++ failure.message
  | .capacityOverflow length additional =>
    "capacity overflow: cannot fit " ++ toString additional ++ " more slots after " ++
      toString length

/-- The first of `capacity`, its double, the double of that and so on that reaches `required`, or
nothing when it is no size. Specification 10.2, the growth of `reserve`. -/
def doubledCapacity? (required capacity : Nat) (h : 0 < capacity) : Option Nat :=
  if required ≤ capacity then some capacity
  else if capacity * 2 ≤ maxSize then doubledCapacity? required (capacity * 2) (by omega)
  else none
termination_by required - capacity

/-- A growable array. Without storage both counts are zero, and it is *unallocated*.
Specification 4.1 and 10.2, `Buffer`. -/
structure Buffer (α : Type) where
  /-- The slots written since the storage was created, if there is any. -/
  storage : Option (Storage α) := none
  /-- The number of used slots. -/
  length : Nat := 0
  /-- The number of reserved slots. -/
  capacity : Nat := 0

namespace Buffer

variable {α : Type}

/-- The buffer without storage. Specification 10.2, `unallocated`. -/
def unallocated : Buffer α := {}

instance : Inhabited (Buffer α) := ⟨unallocated⟩

/-- A buffer with a number of reserved slots and none in use. Specification 10.2, `new`. -/
def create [Element α] (alloc : Allocator) (initial : Nat) : Except GrowthError (Buffer α) :=
  match Storage.reserve alloc {} initial with
  | .ok storage => .ok { storage := some storage, capacity := initial }
  | .error failure => .error (.allocation failure)

/-- Whether the buffer has storage. Specification 10.2, `is_allocated`. -/
def isAllocated (b : Buffer α) : Bool := b.storage.isSome

/-- Whether no slot is in use. Specification 10.2, `is_empty`. -/
def isEmpty (b : Buffer α) : Bool := b.length == 0

/-- The used slots. -/
def used (b : Buffer α) : Array α :=
  match b.storage with
  | some s => s.slots.extract 0 b.length
  | none => #[]

/-- The elements: the used slots in order. Specification 10.2, `as_slice`. -/
def toList (b : Buffer α) : List α := b.used.toList

/-- Whether the counts agree with the storage. Specification 10.10, `check_invariants`. -/
def isSound (b : Buffer α) : Bool :=
  match b.storage with
  | some s => b.length ≤ s.slots.size && s.slots.size ≤ b.capacity && b.capacity ≤ s.room
  | none => b.length == 0 && b.capacity == 0

/-- Reserves slots so that a number of elements beyond the used ones fit. When they fit already,
nothing changes. Otherwise the capacity, at least one, is doubled until they do. Specification 10.2,
`reserve`. -/
def reserve [Element α] (alloc : Allocator) (additional : Nat) (b : Buffer α) :
    EStateM.Result GrowthError (Buffer α) Unit :=
  if maxSize < b.length + additional then .error (.capacityOverflow b.length additional) b
  else if b.isAllocated ∧ b.length + additional ≤ b.capacity then .ok () b
  else
    match doubledCapacity? (b.length + additional) (max b.capacity 1) (by omega) with
    | none => .error (.capacityOverflow b.length additional) b
    | some capacity =>
      let storage := b.storage.getD {}
      match storage.reserve alloc (capacity - storage.slots.size) with
      | .error failure => .error (.allocation failure) b
      | .ok storage => .ok () { b with storage := some storage, capacity }

/-- Puts a value into the first unused slot. -/
def store (b : Buffer α) (v : α) : Buffer α :=
  { b with
    storage := some ((b.storage.getD {}).write b.length v)
    length := b.length + 1 }

/-- Adds an element at the end, growing when no reserved slot is left. Specification 10.2,
`push`. -/
def push [Element α] (alloc : Allocator) (v : α) (b : Buffer α) :
    EStateM.Result GrowthError (Buffer α) Unit :=
  if b.length = b.capacity ∨ b.isAllocated = false then
    match reserve alloc 1 b with
    | .ok () b => .ok () (b.store v)
    | .error e b => .error e b
  else .ok () (b.store v)

/-- Adds elements at the end one by one, up to the first for which there is no room. -/
def pushAll [Element α] (alloc : Allocator) :
    List α → Buffer α → EStateM.Result GrowthError (Buffer α) Unit
  | [], b => .ok () b
  | v :: values, b =>
    match push alloc v b with
    | .ok () b => pushAll alloc values b
    | .error e b => .error e b

/-- Adds elements at the end, growing at most once. The operation `extend_from_slice`. -/
def extend [Element α] (alloc : Allocator) (values : List α) (b : Buffer α) :
    EStateM.Result GrowthError (Buffer α) Unit :=
  match reserve alloc values.length b with
  | .ok () b => pushAll alloc values b
  | .error e b => .error e b

/-- A slot that has been written, used or not. Specification 10.2, `slot`. -/
def slot? (b : Buffer α) (i : Nat) : Option α := b.storage.bind fun s ↦ s.slots[i]?

/-- Removes the last element and gives it, or gives the fallback when there is none. The slot keeps
its value. Specification 10.2, `pop`. -/
def pop (b : Buffer α) (fallback : α) : α × Buffer α :=
  if b.length = 0 then (fallback, b)
  else
    let b := { b with length := b.length - 1 }
    ((b.slot? b.length).getD fallback, b)

/-- Removes every element. The slots keep their values, and the storage is kept for reuse.
Specification 10.2, `clear`. -/
def clear (b : Buffer α) : Buffer α := { b with length := 0 }

/-- Gives the storage back. Without storage nothing changes. Specification 10.2, `free`. -/
def free (b : Buffer α) : Buffer α := if b.isAllocated then unallocated else b

/-- Overwrites a slot that has been written, used or not, and gives its old value.
Specification 10.2, `slot_mut`. -/
def replaceSlot? (b : Buffer α) (i : Nat) (v : α) : Option (α × Buffer α) := do
  let s ← b.storage
  if h : i < s.slots.size then
    return (s.slots[i], { b with storage := some { s with slots := s.slots.set i v } })
  else none

/-- An element. -/
def get? (b : Buffer α) (i : Nat) : Option α := if i < b.length then b.slot? i else none

/-- Overwrites an element. -/
def set? (b : Buffer α) (i : Nat) (v : α) : Option (Buffer α) :=
  if i < b.length then (b.replaceSlot? i v).map Prod.snd else none

/-- Puts the used slots into another order. The other slots stay where they are. This is what
`as_mut_slice` is used for. -/
def rearrange (b : Buffer α) (order : List α → List α) : Buffer α :=
  { b with
    storage := b.storage.map fun s ↦
      { s with slots := (order b.toList).toArray ++ s.slots.extract b.length s.slots.size } }

/-- Sorts the used slots in ascending order. -/
def sort [Ord α] (b : Buffer α) : Buffer α :=
  b.rearrange fun elements ↦ elements.mergeSort fun x y ↦ (compare x y).isLE

/-- Reverses the used slots. -/
def reverse (b : Buffer α) : Buffer α := b.rearrange List.reverse

/-- A buffer with the same slots, used or not, and the same capacity, in storage with room for just
that many. Specification 10.2, `clone`. -/
def copy (b : Buffer α) : Buffer α :=
  { b with storage := b.storage.map fun s ↦ { s with room := b.capacity } }

/-- A copy whose storage is asked for. Specification 10.2, `try_clone`. -/
def tryCopy [Element α] (alloc : Allocator) (b : Buffer α) : Except GrowthError (Buffer α) :=
  match b.storage with
  | none => .ok b
  | some s =>
    match Storage.reserve (α := α) alloc {} b.capacity with
    | .ok storage => .ok { b with storage := some { storage with slots := s.slots } }
    | .error failure => .error (.allocation failure)

/-- Buffers are equal when their elements are. Specification 10.2, equality. -/
instance [BEq α] : BEq (Buffer α) := ⟨fun b c ↦ b.used == c.used⟩

end Buffer
end Delimited
