import Delimited.Buffer.Basic

/-!
# Buffers that are used again

A buffer is put to one use after the other. Memory that is refused at one time may be granted at
another, so every use comes with the allocator that it finds. What a caller learns of a use is
whether it succeeded, and the element that was removed, if it was to remove one.
-/

namespace Delimited.Buffer

/-- What a buffer is asked to do. -/
inductive Operation (α : Type) where
  | push (v : α)
  | pop (fallback : α)
  | extend (values : List α)
  | reserve (additional : Nat)
  | clear
  | free
  | sort (order : Ord α)
  | reverse
  /-- The element at a place is overwritten, if there is one. -/
  | set (i : Nat) (v : α)
  /-- The slot at a place is overwritten, used or not, if it has been written before. -/
  | replaceSlot (i : Nat) (v : α)
  /-- A copy takes the place of the buffer. -/
  | copy
  /-- A copy takes the place of the buffer, if storage for it can be had. -/
  | tryCopy

/-- One use of a buffer, and the allocator that it finds. -/
structure Use (α : Type) where
  alloc : Allocator
  operation : Operation α

variable {α : Type}

/-- The answer to a use that gives no element, and the buffer behind it. -/
def answered : EStateM.Result GrowthError (Buffer α) Unit →
    Except GrowthError (Option α) × Buffer α
  | .ok () b => (.ok none, b)
  | .error e b => (.error e, b)

variable [Element α]

/-- The answer to one use, with the element that is given if there is one, and the buffer behind
it. -/
def respond (b : Buffer α) (use : Use α) : Except GrowthError (Option α) × Buffer α :=
  match use.operation with
  | .push v => answered (push use.alloc v b)
  | .pop fallback => (.ok (some (b.pop fallback).1), (b.pop fallback).2)
  | .extend values => answered (extend use.alloc values b)
  | .reserve additional => answered (reserve use.alloc additional b)
  | .clear => (.ok none, b.clear)
  | .free => (.ok none, b.free)
  | .sort order => (.ok none, @sort α order b)
  | .reverse => (.ok none, b.reverse)
  | .set i v => (.ok none, (b.set? i v).getD b)
  | .replaceSlot i v => (.ok none, ((b.replaceSlot? i v).map Prod.snd).getD b)
  | .copy => (.ok none, b.copy)
  | .tryCopy =>
    match b.tryCopy use.alloc with
    | .ok c => (.ok none, c)
    | .error e => (.error e, b)

/-- The answer to one use. -/
def answer (b : Buffer α) (use : Use α) : Except GrowthError (Option α) := (b.respond use).1

/-- The buffer after one use. -/
def perform (b : Buffer α) (use : Use α) : Buffer α := (b.respond use).2

/-- The buffer after a history of uses, earliest first. -/
def run (b : Buffer α) (history : List (Use α)) : Buffer α := history.foldl perform b

/-- The answers to a history of uses. -/
def answers (b : Buffer α) : List (Use α) → List (Except GrowthError (Option α))
  | [] => []
  | use :: history => b.answer use :: (b.perform use).answers history

/-- What can be seen of a buffer, other than whether it has storage: the two counts, the elements
and every slot that can be read. -/
structure View (α : Type) where
  length : Nat
  capacity : Nat
  elements : List α
  slot? : Nat → Option α

/-- What can be seen of the buffer. -/
def view (b : Buffer α) : View α := ⟨b.length, b.capacity, b.toList, b.slot?⟩

/-- What can be seen of a history of uses step by step: every answer, and the view of the buffer
behind it. -/
def course (b : Buffer α) : List (Use α) → List (Except GrowthError (Option α) × View α)
  | [] => []
  | use :: history =>
    let after := b.perform use
    (b.answer use, after.view) :: after.course history

/-- The operations of a history that succeed. -/
def succeeding (b : Buffer α) : List (Use α) → List (Operation α)
  | [] => []
  | use :: history =>
    match b.answer use with
    | .ok _ => use.operation :: (b.perform use).succeeding history
    | .error _ => (b.perform use).succeeding history

/-- The elements that a history of uses gives. -/
def given (b : Buffer α) (history : List (Use α)) : List α :=
  (b.answers history).filterMap fun answer ↦ answer.toOption.join

/-- The buffers that there are to begin with: without storage, or with a number of reserved slots.
The number is a size. -/
inductive IsNew : Buffer α → Prop where
  | unallocated : IsNew unallocated
  | create {alloc : Allocator} {initial : Nat} {b : Buffer α} (hsize : initial ≤ maxSize)
      (h : create alloc initial = .ok b) : IsNew b

/-- The buffer is a new one after some history of uses. -/
def Reachable (b : Buffer α) : Prop :=
  ∃ (start : Buffer α) (history : List (Use α)), start.IsNew ∧ start.run history = b

@[simp] theorem run_nil (b : Buffer α) : b.run [] = b := rfl

@[simp] theorem run_cons (b : Buffer α) (use : Use α) (history : List (Use α)) :
    b.run (use :: history) = (b.perform use).run history := rfl

@[simp] theorem run_append (b : Buffer α) (history later : List (Use α)) :
    b.run (history ++ later) = (b.run history).run later :=
  List.foldl_append

end Delimited.Buffer
