/-!
# Requests for memory

Sizes are unsigned 64-bit numbers. An allocator answers a request for room for a number of
elements of one size: it refuses, or grants room for at least that many. What grows takes the
allocator as an argument, so that nothing is assumed about when memory runs out.
-/

namespace Delimited

/-- The largest size. -/
def maxSize : Nat := 0xffffffffffffffff

/-- Why a request for memory fails. -/
inductive AllocationFailure where
  /-- The number of bytes asked for can never be provided. -/
  | tooLarge
  /-- The allocator refuses. -/
  | refused
  deriving DecidableEq, Repr

/-- The wording of a failure. -/
def AllocationFailure.message : AllocationFailure → String
  | .tooLarge =>
    "memory allocation failed because the computed capacity exceeded the collection's maximum"
  | .refused => "memory allocation failed because the memory allocator returned an error"

/-- The elements that storage is made of. Specification 10.2, `element_size`. -/
class Element (α : Type) where
  /-- The number of bytes that one element takes. -/
  size (α) : Nat

instance : Element Unit := ⟨0⟩
instance : Element UInt8 := ⟨1⟩
instance : Element UInt16 := ⟨2⟩
instance : Element Int32 := ⟨4⟩
instance : Element UInt64 := ⟨8⟩

/-- A text is kept as an address, a length and a room of eight bytes each. -/
instance : Element String := ⟨24⟩

/-- A byte string is kept as an address, a length and a room of eight bytes each. -/
instance : Element (List UInt8) := ⟨24⟩

/-- The elements of a vector lie side by side. -/
instance {α : Type} {n : Nat} [Element α] : Element (Vector α n) := ⟨n * Element.size α⟩

/-- Answers a request for room for a number of elements, given the size of one: with a failure, or
with the number of elements that there is room for. -/
abbrev Allocator : Type :=
  (elementSize count : Nat) → Except AllocationFailure { room : Nat // count ≤ room }

namespace Allocator

/-- Grants every request exactly. -/
def unlimited : Allocator := fun _ count ↦ .ok ⟨count, Nat.le_refl count⟩

/-- Grants requests exactly, within an address space of 47 bits. No request may be for more bytes
than a signed 64-bit number holds. -/
def addressSpace : Allocator := fun elementSize count ↦
  if 0x7fffffffffffffff < elementSize * count then .error .tooLarge
  else if 0x800000000000 ≤ elementSize * count then .error .refused
  else .ok ⟨count, Nat.le_refl count⟩

end Allocator
end Delimited
