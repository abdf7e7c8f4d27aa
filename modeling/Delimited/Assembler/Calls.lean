import Delimited.Assembler

/-!
# The calls of an assembler

What a row or a record asks of an assembler, call by call: it is begun, and then every field is made
and at once added. The calls are given with what they are handed and what they make, so that they
show where every value comes from.
-/

namespace Delimited

/-- A call, with what it is handed and what it makes. -/
inductive Call (Field Row Keyed : Type) where
  | field (bytes : List UInt8) (made : Field)
  | emptyRow (made : Row)
  | addField (row : Row) (field : Field) (made : Row)
  | emptyRecord (made : Keyed)
  | addEntry (record : Keyed) (key : List UInt8) (field : Field) (made : Keyed)
  deriving DecidableEq, Repr

/-- What comes of some calls: a value and a state, and the calls themselves, earliest first. -/
structure Assembly (φ Field Row Keyed α : Type) where
  value : α
  state : φ
  calls : List (Call Field Row Keyed)

namespace Assembler

variable {φ Field Row Keyed α : Type}

/-- The assembler that writes down every call behind those before it. -/
def recorded (f : Assembler φ Field Row Keyed) :
    Assembler (φ × List (Call Field Row Keyed)) Field Row Keyed where
  field bytes state :=
    let made := f.field bytes state.1
    (made.1, (made.2, state.2 ++ [.field bytes made.1]))
  emptyRow state :=
    let made := f.emptyRow state.1
    (made.1, (made.2, state.2 ++ [.emptyRow made.1]))
  addField row field state :=
    let made := f.addField row field state.1
    (made.1, (made.2, state.2 ++ [.addField row field made.1]))
  emptyRecord state :=
    let made := f.emptyRecord state.1
    (made.1, (made.2, state.2 ++ [.emptyRecord made.1]))
  addEntry record key field state :=
    let made := f.addEntry record key field state.1
    (made.1, (made.2, state.2 ++ [.addEntry record key field made.1]))

/-- Makes every field and adds it to the row. -/
def addFields (f : Assembler φ Field Row Keyed) :
    List (List UInt8) → Row → φ → Assembly φ Field Row Keyed Row
  | [], row, state => ⟨row, state, []⟩
  | bytes :: values, row, state =>
    let made := f.field bytes state
    let added := f.addField row made.1 made.2
    let others := f.addFields values added.1 added.2
    { others with calls := .field bytes made.1 :: .addField row made.1 added.1 :: others.calls }

/-- Makes every field and enters it under its key. -/
def addEntries (f : Assembler φ Field Row Keyed) :
    List (List UInt8 × List UInt8) → Keyed → φ → Assembly φ Field Row Keyed Keyed
  | [], record, state => ⟨record, state, []⟩
  | (key, bytes) :: entries, record, state =>
    let made := f.field bytes state
    let added := f.addEntry record key made.1 made.2
    let others := f.addEntries entries added.1 added.2
    { others with
      calls := .field bytes made.1 :: .addEntry record key made.1 added.1 :: others.calls }

/-- Makes a row of its values. -/
def assembleRow (f : Assembler φ Field Row Keyed) (values : List (List UInt8)) (state : φ) :
    Assembly φ Field Row Keyed Row :=
  let begun := f.emptyRow state
  let filled := f.addFields values begun.1 begun.2
  { filled with calls := .emptyRow begun.1 :: filled.calls }

/-- Makes a record of those values of a row that have a key. -/
def assembleRecord (f : Assembler φ Field Row Keyed) (keys values : List (List UInt8)) (state : φ) :
    Assembly φ Field Row Keyed Keyed :=
  let begun := f.emptyRecord state
  let filled := f.addEntries (keys.zip values) begun.1 begun.2
  { filled with calls := .emptyRecord begun.1 :: filled.calls }

/-- Makes one thing after the other, each of the values of a row. -/
def assembleAll (assemble : List (List UInt8) → φ → Assembly φ Field Row Keyed α) :
    List (List (List UInt8)) → φ → Assembly φ Field Row Keyed (List α)
  | [], state => ⟨[], state, []⟩
  | values :: rows, state =>
    let first := assemble values state
    let others := assembleAll assemble rows first.state
    ⟨first.value :: others.value, others.state, first.calls ++ others.calls⟩

end Assembler
end Delimited
