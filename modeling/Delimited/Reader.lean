import Delimited.Pass
import Delimited.Source.Origin

/-!
# Readers

A reader opens its source anew for every pass and reads it from the beginning. A pass gives rows
of fields, or records under keys; the keys are supplied by the caller or taken from the first row.
Keys taken from a row are kept until the next pass starts or the reader is closed. Starting a pass
may fail, and leaves the reader fit for the next one.
-/

namespace Delimited

/-- The keys of a pass over records. Specification 10.7, `KeySet`. -/
structure RecordKeys where
  keys : List (List UInt8)
  /-- Whether they come from the first row. -/
  fromFirstRow : Bool
  deriving DecidableEq, Repr

namespace RecordKeys

/-- The number of keys. -/
def length (k : RecordKeys) : Nat := k.keys.length

/-- Whether there are no keys. -/
def isEmpty (k : RecordKeys) : Bool := k.keys.isEmpty

/-- The key of a field, counting from zero. -/
def get? (k : RecordKeys) (i : Nat) : Option (List UInt8) := k.keys[i]?

end RecordKeys

/-- Reads records from the sources that an origin opens. Specification 10.7, `CsvReader`. -/
structure Reader (π σ : Type) where
  origin : π
  scanner : Scanner σ
  /-- The keys taken from the first row in the last pass. -/
  keyBuffer : Buffer (List UInt8) := {}

/-- Adds a copy of a key, for which memory is asked first. -/
def addKey (alloc : Allocator) (key : List UInt8) (keys : Buffer (List UInt8)) :
    EStateM.Result GrowthError (Buffer (List UInt8)) Unit :=
  match Storage.reserve (α := UInt8) alloc {} key.length with
  | .error failure => .error (.allocation failure) keys
  | .ok _ => Buffer.push alloc key keys

/-- Takes the keys from the next row, if there is one. The operation `infer_keys`. -/
def Scanner.readHeader {σ ε : Type} [Source σ ε] (alloc : Allocator) (s : Scanner σ)
    (keys : Buffer (List UInt8)) :
    EStateM.Result (ReadError ε) (Scanner σ × Buffer (List UInt8)) Unit :=
  match skipBlankLines s with
  | .error e s => .error e (s, keys)
  | .ok () s =>
    if s.isAtEnd then .ok () (s, keys)
    else
      match s.readRow alloc (addKey alloc) 0 keys with
      | .error e (s, keys) => .error e (s, keys)
      | .ok _ (s, keys) => .ok () (s.note (.headerRead keys.length), keys)

namespace Reader

variable {π σ ε φ Field Row Keyed : Type}

/-- A reader with a usable dialect. Nothing is opened yet. Specification 10.7, `with_dialect`. -/
def create (alloc : Allocator) (origin : π) (dialect : Dialect := {}) :
    Except (ReadError ε) (Reader π σ) :=
  match dialect.validate with
  | .error e => .error (.dialect e)
  | .ok () =>
    match Scanner.create alloc dialect with
    | .error e => .error (.buffer e)
    | .ok scanner => .ok { origin, scanner }

/-- The dialect of the reader. -/
def dialect (r : Reader π σ) : Dialect := r.scanner.dialect

/-- The keys taken from the first row in the last pass. Specification 10.7, `keys`. -/
def keys (r : Reader π σ) : List (List UInt8) := r.keyBuffer.toList

/-- The reader behind a pass that it has started. -/
def resume {ρ γ : Type} (r : Reader π σ) (p : Pass σ φ ρ γ) : Reader π σ :=
  { r with scanner := p.scanner }

/-- Gives up the source and the buffers, and tells whether there was anything to give up.
Specification 10.7, `close`. -/
def close (r : Reader π σ) : Bool × Reader π σ :=
  let closed := r.scanner.close
  let released := closed.1 || r.keyBuffer.isAllocated
  (released,
    { r with scanner := closed.2.note (.sourceClosed released), keyBuffer := r.keyBuffer.free })

variable [Source σ ε] [Origin π σ ε]

/-- Opens the source and reads its first byte. The keys of the pass before are given up first. The
operation `rewind`. -/
def reopen (r : Reader π σ) : EStateM.Result (ReadError ε) (Reader π σ) Unit :=
  let announced := (Origin.announcement r.origin).foldl Scanner.note r.scanner
  let keyBuffer := r.keyBuffer.free
  match Origin.openSource r.origin with
  | (.error cause, origin) => .error (.opening cause) { origin, scanner := announced, keyBuffer }
  | (.ok source, origin) =>
    match Scanner.attach source (announced.note .sourceRewound) with
    | .error e scanner => .error e { origin, scanner, keyBuffer }
    | .ok () scanner => .ok () { origin, scanner, keyBuffer }

/-- A pass of the reader as it is. -/
def pass {ρ γ : Type} (r : Reader π σ) (builder : RowBuilder φ ρ γ) (state : φ) :
    Pass σ φ ρ γ :=
  { builder, state, scanner := r.scanner }

/-- Starts a pass that gives every row with all its fields. Specification 10.7, `lists_with`. -/
def startRows (assembler : Assembler φ Field Row Keyed) (state : φ)
    (r : Reader π σ) : EStateM.Result (ReadError ε) (Reader π σ) (Pass σ φ Row Row) :=
  match reopen r with
  | .error e r => .error e r
  | .ok () r => .ok (r.pass assembler.rows state) r

/-- Starts a pass that gives every row as a record under the keys. Specification 10.7,
`records_with_keys_with`. -/
def startRecordsUnder (assembler : Assembler φ Field Row Keyed) (state : φ)
    (keys : List (List UInt8)) (r : Reader π σ) :
    EStateM.Result (ReadError ε) (Reader π σ)
      (RecordKeys × Pass σ φ (Keyed × List (List UInt8)) Keyed) :=
  match reopen r with
  | .error e r => .error e r
  | .ok () r => .ok (⟨keys, false⟩, r.pass (assembler.records keys) state) r

/-- Starts a pass that takes the keys from the first row and gives every other row as a record under
them. Where that fails no keys are kept. Specification 10.7, `records_with`. -/
def startRecords (alloc : Allocator) (assembler : Assembler φ Field Row Keyed) (state : φ)
    (r : Reader π σ) :
    EStateM.Result (ReadError ε) (Reader π σ)
      (RecordKeys × Pass σ φ (Keyed × List (List UInt8)) Keyed) :=
  match reopen r with
  | .error e r => .error e r
  | .ok () r =>
    match Buffer.create alloc 2 with
    | .error e => .error (.buffer e) r
    | .ok keyBuffer =>
      match r.scanner.readHeader alloc keyBuffer with
      | .error e (scanner, keyBuffer) =>
        .error e { r with scanner, keyBuffer := keyBuffer.free }
      | .ok () (scanner, keyBuffer) =>
        let r := { r with scanner, keyBuffer }
        .ok (⟨r.keys, true⟩, r.pass (assembler.records r.keys) state) r

end Reader
end Delimited
