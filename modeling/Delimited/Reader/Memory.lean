import Delimited.Reader

/-!
# Reading bytes in memory

All the rows of bytes in memory, as lists of fields or as records, and the keys taken from the
first row.
-/

namespace Delimited

/-- Every row as the list of its fields. Specification 10.7, `from_bytes` and `lists`. -/
def parseRows (alloc : Allocator) (bytes : List UInt8) (dialect : Dialect := {}) :
    Except (ReadError Empty) (List (List (List UInt8))) := do
  let reader : Reader ListOrigin ListSource ← Reader.create alloc ⟨bytes⟩ dialect
  match reader.startRows Assembler.standard () with
  | .error e _ => .error e
  | .ok pass _ => pass.collect alloc

/-- Every row but the first as a record under the fields of the first, and these.
Specification 10.7, `from_bytes` and `records`. -/
def parseRecords (alloc : Allocator) (bytes : List UInt8) (dialect : Dialect := {}) :
    Except (ReadError Empty) (List Record × List (List UInt8)) := do
  let reader : Reader ListOrigin ListSource ← Reader.create alloc ⟨bytes⟩ dialect
  match reader.startRecords alloc Assembler.standard () with
  | .error e _ => .error e
  | .ok (_, pass) reader => return (← pass.collect alloc, reader.keys)

/-- Every row as a record under the keys. The reader itself keeps none, which is the second part of
the answer. Specification 10.7, `from_bytes` and `records_with_keys`. -/
def parseRecordsUnder (alloc : Allocator) (bytes : List UInt8) (keys : List (List UInt8))
    (dialect : Dialect := {}) :
    Except (ReadError Empty) (List Record × List (List UInt8)) := do
  let reader : Reader ListOrigin ListSource ← Reader.create alloc ⟨bytes⟩ dialect
  match reader.startRecordsUnder Assembler.standard () keys with
  | .error e _ => .error e
  | .ok (_, pass) reader => return (← pass.collect alloc, reader.keys)

end Delimited
