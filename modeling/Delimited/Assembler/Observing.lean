import Delimited.Assembler

/-!
# Assemblers that observe

One assembler keeps only the lengths of fields. Another one makes nothing but numbers and logs every
call with its arguments, so that the log shows what the reader asked for, and in which order.
-/

namespace Delimited

/-- A call of an assembler that makes numbers. -/
inductive AssemblerCall where
  | emptyRow
  | emptyRecord
  | field (bytes : List UInt8)
  | addField (row field : Nat)
  | addEntry (record : Nat) (key : List UInt8) (field : Nat)
  deriving DecidableEq, Repr

namespace Assembler

/-- Makes a field its length. A record keeps its entries in the order of insertion, repeated keys
included. -/
def lengths : Assembler Unit Nat (List Nat) (List (List UInt8 × Nat)) where
  field bytes state := (bytes.length, state)
  emptyRow state := ([], state)
  addField row field state := (row ++ [field], state)
  emptyRecord state := ([], state)
  addEntry record key field state := (record ++ [(key, field)], state)

/-- Logs a call, and makes the number of calls so far. -/
def log (call : AssemblerCall) (calls : Array AssemblerCall) : Nat × Array AssemblerCall :=
  (calls.size + 1, calls.push call)

/-- Logs every call. What it makes or changes is the number of calls after that call. -/
def numbering : Assembler (Array AssemblerCall) Nat Nat Nat where
  field bytes := log (.field bytes)
  emptyRow := log .emptyRow
  addField row field := log (.addField row field)
  emptyRecord := log .emptyRecord
  addEntry record key field := log (.addEntry record key field)

end Assembler
end Delimited
