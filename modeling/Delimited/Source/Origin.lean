import Delimited.Journal
import Delimited.Source.File
import Delimited.Source.Memory

/-!
# Where sources come from

An origin opens its data from the beginning, as often as it is asked. Opening may fail, may
change the origin, and may be announced in the journal.
-/

namespace Delimited

/-- What opens sources of type `σ`, with failures of type `ε`. Specification 10.4, `SourceProvider`
with `open`. -/
class Origin (π : Type) (σ ε : outParam Type) where
  /-- Opens the data from its beginning. -/
  openSource : π → Except ε σ × π
  /-- The events before an opening. -/
  announcement : π → List Event := fun _ ↦ []

/-- Bytes in memory, read as a list. -/
structure ListOrigin where
  bytes : List UInt8
  deriving DecidableEq, Repr

instance : Origin ListOrigin ListSource Empty where
  openSource p := (.ok ⟨p.bytes⟩, p)

/-- Bytes in memory, shared with every source over them. -/
structure IndexedOrigin where
  bytes : Array UInt8
  deriving DecidableEq, Repr

instance : Origin IndexedOrigin IndexedSource Empty where
  openSource p := (.ok { bytes := p.bytes }, p)

/-- A path, as what is found there at present. Specification 10.4, `FileProvider`. -/
structure FileOrigin where
  entry : PathEntry
  deriving DecidableEq, Repr

instance : Origin FileOrigin FileHandle FileError where
  openSource p := (p.entry.openFile, p)
  announcement _ := [.sourceOpening]

/-- Takes a new source, or failure to open one, from a list for every opening, and keeps to the last
one when the list is over. It counts the openings. Specification 10.4, `OpenWith`. -/
structure SuccessiveOrigin (σ ε : Type) where
  first : Except ε σ
  later : List (Except ε σ)
  opened : Nat := 0

namespace SuccessiveOrigin

variable {σ ε : Type}

/-- Opens once, and moves on to the next entry of the list, if there is one. -/
def openSource (p : SuccessiveOrigin σ ε) : Except ε σ × SuccessiveOrigin σ ε :=
  (p.first, { first := p.later.headD p.first, later := p.later.tail, opened := p.opened + 1 })

instance : Origin (SuccessiveOrigin σ ε) σ ε where
  openSource := openSource

end SuccessiveOrigin
end Delimited
