import Delimited.Source.Chunked
import Delimited.Source.Memory
import Delimited.Source.Script

/-!
# Sources of several kinds behind one type

Where the kind of a source is only known when it is opened, one type holds all of them.
-/

namespace Delimited

/-- A source of any kind. -/
inductive MixedSource (ε : Type) where
  | list (source : ListSource)
  | indexed (source : IndexedSource)
  | script (source : Script ε)
  | chunked (source : ChunkedSource ε)

namespace MixedSource

variable {ε : Type}

/-- Reads the source that is there. -/
def read : MixedSource ε → Answer ε × MixedSource ε
  | .list source =>
    let answered := source.read
    (answered.1.map Empty.elim, .list answered.2)
  | .indexed source =>
    let answered := source.read
    (answered.1.map Empty.elim, .indexed answered.2)
  | .script source =>
    let answered := source.read
    (answered.1, .script answered.2)
  | .chunked source =>
    let answered := source.read
    (answered.1, .chunked answered.2)

/-- The bound of the source that is there. -/
def left : MixedSource ε → Nat
  | .list source => Source.left source
  | .indexed source => Source.left source
  | .script source => Source.left source
  | .chunked source => Source.left source

private theorem byte_of_map {ε ε' : Type} {f : ε → ε'} {a : Answer ε} {b : UInt8}
    (h : a.map f = .byte b) : a = .byte b := by
  cases a with
  | byte => exact congrArg Answer.byte (Answer.byte.inj h)
  | stop => cases h

theorem left_read {s t : MixedSource ε} {b : UInt8} (h : s.read = (.byte b, t)) :
    t.left < s.left := by
  unfold read at h
  split at h <;> obtain ⟨ha, ht⟩ := Prod.mk.inj h <;> subst ht
  · exact Source.left_read (σ := ListSource) (Prod.ext (byte_of_map ha) rfl)
  · exact Source.left_read (σ := IndexedSource) (Prod.ext (byte_of_map ha) rfl)
  · exact Source.left_read (σ := Script ε) (Prod.ext ha rfl)
  · exact Source.left_read (σ := ChunkedSource ε) (Prod.ext ha rfl)

instance : Source (MixedSource ε) ε where
  read := read
  left := left
  left_read := left_read

end MixedSource
end Delimited
