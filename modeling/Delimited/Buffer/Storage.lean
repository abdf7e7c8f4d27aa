import Delimited.Buffer.Allocator

/-!
# Storage for elements

Storage is a row of slots with room for more of them. A slot exists once it has been written.
-/

namespace Delimited

/-- The slots written so far, and the number of slots that fit without asking for memory. -/
structure Storage (α : Type) where
  slots : Array α := #[]
  room : Nat := 0

namespace Storage

variable {α : Type}

/-- Makes room for a number of slots beyond those written, asking for exactly as much as is
missing. Room that is already there is not asked for. -/
def reserve [Element α] (alloc : Allocator) (s : Storage α) (additional : Nat) :
    Except AllocationFailure (Storage α) :=
  if additional ≤ s.room - s.slots.size then .ok s
  else (alloc (Element.size α) (s.slots.size + additional)).map fun granted ↦
    { s with room := granted.val }

/-- Writes a new slot after the last one. A slot beyond the room takes new room with it. -/
def append (s : Storage α) (v : α) : Storage α :=
  let slots := s.slots.push v
  { slots, room := max s.room slots.size }

/-- Writes a slot that exists, or else a new one after the last. -/
def write (s : Storage α) (i : Nat) (v : α) : Storage α :=
  if h : i < s.slots.size then { s with slots := s.slots.set i v } else s.append v

end Storage
end Delimited
