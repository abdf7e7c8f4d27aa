import Delimited.Reader
import Delimited.Text.Quoted
import Delimited.Text.Utf8

/-!
# Tables of text

All the data of an origin, such as a file, is read at once, with fields and keys decoded as UTF-8
and malformed bytes replaced. The bytes of the dialect are given as texts of one byte. A record
keeps its entries in the order in which the keys came first, each with the value that came last.
Where anything fails there is no table at all.
-/

namespace Delimited

/-- Makes texts, lists of them, and their pairs with keys in the order in which they come.
Specification 10.12, `PyFactory`. -/
def Assembler.texts : Assembler Unit String (List String) (List (String × String)) where
  field bytes state := (Text.Utf8.decodeLossy bytes, state)
  emptyRow state := ([], state)
  addField row field state := (row ++ [field], state)
  emptyRecord state := ([], state)
  addEntry record key field state := (record ++ [(Text.Utf8.decodeLossy key, field)], state)

/-- The name under which the assembler of texts is shown. -/
def Assembler.textsDescription : String := "PyFactory \x7b .. \x7d"

namespace Table

/-- The dialect of a table, as texts. -/
structure Options where
  separator : String := ","
  quote : String := "\""
  skipBlankLines : Bool := false
  deriving DecidableEq, Repr

/-- Why a table cannot be read, where a file or another source fails for causes of type `ε`. -/
inductive Error (ε : Type := FileError) where
  /-- The text given under the name is not one byte. -/
  | notOneByte (name value : String)
  | dialect (error : DialectError)
  | file (error : ε)
  | memory (error : GrowthError)
  deriving DecidableEq, Repr

/-- The wording of an error with a file. -/
def Error.message : Error → String
  | .notOneByte name value => name ++ " must be a single byte, got " ++ Text.quoted value
  | .dialect error => error.message
  | .file error => error.message
  | .memory error => error.message

/-- An error of reading, where opening and reading fail alike. -/
def Error.ofReadError {ε : Type} : ReadError ε → Error ε
  | .opening cause => .file cause
  | .reading cause => .file cause
  | .buffer error => .memory error
  | .dialect error => .dialect error

/-- A text as the bytes of its UTF-8 form. -/
def utf8 (text : String) : List UInt8 := text.toUTF8.data.toList

/-- The byte that a text consists of. The operation `single_byte`. -/
def oneByte {ε : Type} (name value : String) : Except (Error ε) UInt8 :=
  match utf8 value with
  | [b] => .ok b
  | _ => .error (.notOneByte name value)

/-- The dialect that the options give. -/
def Options.dialect {ε : Type} (options : Options) : Except (Error ε) Dialect := do
  let separator ← oneByte "separator" options.separator
  let quote ← oneByte "quote" options.quote
  return { separator, quote, skipBlankLines := options.skipBlankLines }

/-- Gives a key a value. A key that is there keeps its place, and a new one comes last. -/
def assign (key value : String) : List (String × String) → List (String × String)
  | [] => [(key, value)]
  | entry :: entries =>
    if entry.1 = key then (key, value) :: entries else entry :: assign key value entries

/-- The entries of pairs that are assigned one after the other. -/
def entries (pairs : List (String × String)) : List (String × String) :=
  pairs.foldl (fun entries pair ↦ assign pair.1 pair.2 entries) []

section Reading

variable {π σ ε : Type} [Source σ ε]

/-- What a reader has started, without the reader. -/
def started {ρ α : Type} : EStateM.Result (ReadError ε) ρ α → Except (Error ε) α
  | .ok a _ => .ok a
  | .error e _ => .error (.ofReadError e)

/-- All the rows of a pass. -/
def rows {ρ γ : Type} (alloc : Allocator) (p : Pass σ Unit ρ γ) : Except (Error ε) (List γ) :=
  (p.collect alloc).mapError Error.ofReadError

variable [Origin π σ ε]

/-- A reader over an origin, with the dialect that the options give. -/
def reader (alloc : Allocator) (origin : π) (options : Options) :
    Except (Error ε) (Reader π σ) := do
  let dialect ← options.dialect
  (Reader.create alloc origin dialect).mapError Error.ofReadError

/-- Reads every row of what an origin opens as a list of texts. -/
def rowsFrom (alloc : Allocator) (origin : π) (options : Options) :
    Except (Error ε) (List (List String)) := do
  let reader ← reader alloc origin options
  let pass ← started (reader.startRows .texts ())
  rows alloc pass

/-- Reads every row of what an origin opens as a record, under the keys or, without keys, those in
the first row. -/
def recordsFrom (alloc : Allocator) (origin : π) (keys : Option (List String))
    (options : Options) : Except (Error ε) (List (List (String × String))) := do
  let reader ← reader alloc origin options
  let (_, pass) ← match keys with
    | some keys => started (reader.startRecordsUnder .texts () (keys.map utf8))
    | none => started (reader.startRecords alloc .texts ())
  return (← rows alloc pass).map entries

end Reading

/-- Reads every row of the file at a path as a list of texts. Specification 10.12, `read_lists`. -/
def loadRows (alloc : Allocator) (entry : PathEntry) (options : Options := {}) :
    Except Error (List (List String)) :=
  rowsFrom alloc (FileOrigin.mk entry) options

/-- Reads every row of the file at a path as a record, under the keys or, without keys, those in the
first row. Specification 10.12, `read_records`. -/
def loadRecords (alloc : Allocator) (entry : PathEntry) (keys : Option (List String) := none)
    (options : Options := {}) : Except Error (List (List (String × String))) :=
  recordsFrom alloc (FileOrigin.mk entry) keys options

end Table
end Delimited
