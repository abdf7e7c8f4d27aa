import Delimited.Source.Basic

/-!
# Sources over bytes in memory

Bytes in memory are read from the first to the last, and reading never fails. One source keeps
the bytes not yet read, the other shares all of them and keeps its position.
-/

namespace Delimited

/-- The bytes not yet read. Specification 10.4, `SliceSource`. -/
structure ListSource where
  unread : List UInt8
  deriving DecidableEq, Repr

namespace ListSource

/-- Reads the first byte that is left. -/
def read (s : ListSource) : Answer Empty × ListSource :=
  match s.unread with
  | [] => (.stop .done, s)
  | b :: unread => (.byte b, ⟨unread⟩)

theorem length_unread_read {s t : ListSource} {b : UInt8} (h : s.read = (.byte b, t)) :
    t.unread.length < s.unread.length := by
  unfold read at h
  split at h
  · cases h
  · next hs => cases h; simp [hs]

instance : Source ListSource Empty where
  read := read
  left s := s.unread.length
  left_read := length_unread_read

end ListSource

/-- Bytes that others share, and the number of those already read. Specification 10.4,
`SharedSource`. -/
structure IndexedSource where
  bytes : Array UInt8
  position : Nat := 0
  deriving DecidableEq, Repr

namespace IndexedSource

/-- Reads the byte at the position. -/
def read (s : IndexedSource) : Answer Empty × IndexedSource :=
  match s.bytes[s.position]? with
  | none => (.stop .done, s)
  | some b => (.byte b, { s with position := s.position + 1 })

theorem unread_read {s t : IndexedSource} {b : UInt8} (h : s.read = (.byte b, t)) :
    t.bytes.size - t.position < s.bytes.size - s.position := by
  unfold read at h
  split at h
  · cases h
  · next hs =>
    cases h
    obtain ⟨hs, _⟩ := Array.getElem?_eq_some_iff.mp hs
    dsimp only
    omega

instance : Source IndexedSource Empty where
  read := read
  left s := s.bytes.size - s.position
  left_read := unread_read

end IndexedSource
end Delimited
