import Delimited.Journal
import Std.Data.ExtTreeMap

/-!
# What rows become

The reader hands over plain bytes. An assembler makes a value of every field, and rows and records
of these; its own state runs through all the calls. A row builder says which calls a row leads to:
in a row every field is made and added, in a record every field that has a key is made and entered
under it, and fields beyond the keys lead to no call.
-/

namespace Delimited

/-- Makes fields, rows and records, with a state of type `φ`. Specification 10.6,
`RecordFactory`. -/
structure Assembler (φ Field Row Keyed : Type) where
  /-- Makes a field of its bytes. -/
  field : List UInt8 → φ → Field × φ
  emptyRow : φ → Row × φ
  /-- Adds a field at the end of a row. -/
  addField : Row → Field → φ → Row × φ
  emptyRecord : φ → Keyed × φ
  /-- Enters a field under a key. -/
  addEntry : Keyed → List UInt8 → Field → φ → Keyed × φ

/-- A record as a map. -/
abbrev Record : Type := Std.ExtTreeMap (List UInt8) (List UInt8)

/-- Makes byte strings, lists of them, and maps in which the last field of a key counts.
Specification 10.6, `StdFactory`. -/
def Assembler.standard : Assembler Unit (List UInt8) (List (List UInt8)) Record where
  field bytes state := (bytes, state)
  emptyRow state := ([], state)
  addField row field state := (row ++ [field], state)
  emptyRecord state := (∅, state)
  addEntry record key field state := (record.insert key field, state)

/-- How the fields of a row become a value. A row in progress is of type `ρ`. -/
structure RowBuilder (φ ρ γ : Type) where
  start : φ → ρ × φ
  /-- Takes the next field in. -/
  place : ρ → List UInt8 → φ → ρ × φ
  finish : ρ → γ
  /-- The event of a finished row with so many fields. -/
  event : Nat → Event

namespace Assembler

variable {φ Field Row Keyed : Type}

/-- Builds a row of all the fields. -/
def rows (f : Assembler φ Field Row Keyed) : RowBuilder φ Row Row where
  start := f.emptyRow
  place row bytes state :=
    let made := f.field bytes state
    f.addField row made.1 made.2
  finish := id
  event := .rowRead

/-- Builds a record of the fields that have a key. A row in progress keeps the keys to come. -/
def records (f : Assembler φ Field Row Keyed) (keys : List (List UInt8)) :
    RowBuilder φ (Keyed × List (List UInt8)) Keyed where
  start state :=
    let made := f.emptyRecord state
    ((made.1, keys), made.2)
  place row bytes state :=
    match row.2 with
    | [] => (row, state)
    | key :: keys =>
      let made := f.field bytes state
      let inserted := f.addEntry row.1 key made.1 made.2
      ((inserted.1, keys), inserted.2)
  finish := Prod.fst
  event fields := .recordRead fields keys.length

end Assembler
end Delimited
