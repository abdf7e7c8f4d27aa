import Delimited.Proofs.Entries
import Delimited.Proofs.Gathering
import Delimited.Reader.Memory

/-!
# Tables are decoded passes

A table read from an origin has the rows that are parsed from the same bytes in memory, decoded, and
its records are those of these rows under decoded keys. Where the origin cannot be opened or its
source fails there is no table, however much has been read by then.
-/

namespace Delimited

open Text.Utf8 (decodeLossy)

namespace Assembler

theorem fill_texts_rows (values : List (List UInt8)) (row : List String) :
    texts.rows.fill values (row, ()) = (row ++ values.map decodeLossy, ()) := by
  induction values generalizing row with
  | nil => exact congrArg (·, ()) (List.append_nil row).symm
  | cons value values ih =>
    refine (ih (row ++ [decodeLossy value])).trans ?_
    rw [List.append_assoc]
    rfl

theorem make_texts_rows : texts.rows.make = List.map decodeLossy := by
  funext row
  exact congrArg Prod.fst (fill_texts_rows row [])

/-- Keys are decoded as their fields come, and stay side by side with them. -/
theorem fill_texts_records (keys given values : List (List UInt8))
    (entered : List (String × String)) :
    ((texts.records given).fill values ((entered, keys), ())).1.1 =
      entered ++ Table.pairs keys values := by
  induction values generalizing keys entered with
  | nil =>
    rw [Table.pairs, List.zip_nil_right]
    exact (List.append_nil entered).symm
  | cons value values ih =>
    cases keys with
    | nil => exact ih [] entered
    | cons key keys =>
      refine (ih keys (entered ++ [(decodeLossy key, decodeLossy value)])).trans ?_
      rw [List.append_assoc]
      rfl

theorem make_texts_records (keys : List (List UInt8)) :
    (texts.records keys).make = Table.pairs keys := by
  funext row
  exact fill_texts_records keys keys row []

end Assembler

section Parsing

variable (alloc : Allocator) (bytes : List UInt8) (d : Dialect)

open Reader (gather)

theorem parseRows_eq_gather :
    parseRows alloc bytes d =
      (gather alloc (ListOrigin.mk bytes) d .rows Assembler.standard).map Prod.fst := by
  unfold parseRows gather
  cases Reader.create (σ := ListSource) (ε := Empty) alloc (ListOrigin.mk bytes) d with
  | error e => rfl
  | ok r =>
    simp only [bind, Except.bind, Reader.start]
    cases r.startRows (ε := Empty) Assembler.standard () with
    | error e t => rfl
    | ok p t =>
      simp only
      cases p.collect (ε := Empty) alloc with
      | error e => rfl
      | ok items => rfl

theorem parseRecordsUnder_eq_gather (keys : List (List UInt8)) :
    parseRecordsUnder alloc bytes keys d =
      gather alloc (ListOrigin.mk bytes) d (.recordsUnder keys) Assembler.standard := by
  unfold parseRecordsUnder gather
  cases Reader.create (σ := ListSource) (ε := Empty) alloc (ListOrigin.mk bytes) d with
  | error e => rfl
  | ok r =>
    simp only [bind, Except.bind, Reader.start]
    cases r.startRecordsUnder (ε := Empty) Assembler.standard () keys with
    | error e t => rfl
    | ok started t => rfl

theorem parseRecords_eq_gather :
    parseRecords alloc bytes d =
      gather alloc (ListOrigin.mk bytes) d .records Assembler.standard := by
  unfold parseRecords gather
  cases Reader.create (σ := ListSource) (ε := Empty) alloc (ListOrigin.mk bytes) d with
  | error e => rfl
  | ok r =>
    simp only [bind, Except.bind, Reader.start]
    cases r.startRecords (ε := Empty) alloc Assembler.standard () with
    | error e t => rfl
    | ok started t => rfl

end Parsing

namespace Table

open Reader (gather)

theorem reader_of_dialect {π σ ε : Type} {alloc : Allocator} {origin : π} {options : Options}
    {d : Dialect} (hd : options.dialect (ε := ε) = .ok d) :
    reader (σ := σ) (ε := ε) alloc origin options =
      (Reader.create alloc origin d).mapError Error.ofReadError := by
  rw [reader, hd]
  rfl

theorem exists_error_of_gathered {ε α β : Type} {gathered : Except (ReadError ε) α}
    {condition : Prop} {error : ReadError ε} (make : α → β)
    (h : (∃ e, gathered = .error e) ∧ (condition → gathered = .error error)) :
    ∃ e, (gathered.map make).mapError Error.ofReadError = .error e ∧
      (condition → e = .ofReadError error) := by
  obtain ⟨⟨e, rfl⟩, hknown⟩ := h
  refine ⟨.ofReadError e, rfl, ?_⟩
  intro hcondition
  rw [Except.error.inj (hknown hcondition)]

variable {π σ ε : Type} [Source σ ε] [Origin π σ ε] {alloc : Allocator} {origin : π}
  {options : Options} {d : Dialect}

theorem map_rows {ρ γ α : Type} (p : Pass σ Unit ρ γ) (make : List γ → α)
    (keys : List (List UInt8)) :
    (rows (ε := ε) alloc p).map make =
      (((p.collect alloc).map fun items ↦ (items, keys)).map fun gathered ↦
        make gathered.1).mapError Error.ofReadError := by
  unfold rows
  cases p.collect (ε := ε) alloc with
  | error e => rfl
  | ok items => rfl

/-- How records come by their keys. -/
def mode : Option (List String) →
    Mode (List String) (List (String × String)) (List (String × String) × List (List UInt8))
      (List (String × String))
  | some keys => .recordsUnder (keys.map utf8)
  | none => .records

section Accepted

variable (hd : options.dialect (ε := ε) = .ok d)
include hd

theorem rowsFrom_eq_gather :
    rowsFrom (ε := ε) alloc origin options =
      ((gather alloc origin d .rows Assembler.texts).map Prod.fst).mapError Error.ofReadError := by
  unfold rowsFrom gather
  rw [reader_of_dialect hd]
  cases Reader.create (σ := σ) (ε := ε) alloc origin d with
  | error e => rfl
  | ok r =>
    simp only [bind, Except.bind, Except.mapError, Reader.start]
    cases r.startRows (ε := ε) Assembler.texts () with
    | error e t => rfl
    | ok p t =>
      simp only [started, rows]
      cases p.collect (ε := ε) alloc with
      | error e => rfl
      | ok items => rfl

theorem recordsFrom_eq_gather (keys : Option (List String)) :
    recordsFrom (ε := ε) alloc origin keys options =
      ((gather alloc origin d (mode keys) Assembler.texts).map fun gathered ↦
        gathered.1.map entries).mapError Error.ofReadError := by
  unfold recordsFrom gather
  rw [reader_of_dialect hd]
  cases Reader.create (σ := σ) (ε := ε) alloc origin d with
  | error e => rfl
  | ok r =>
    cases keys with
    | some keys =>
      simp only [bind, Except.bind, Except.mapError, mode, Reader.start]
      cases r.startRecordsUnder (ε := ε) Assembler.texts () (keys.map utf8) with
      | error e t => rfl
      | ok begun t => exact map_rows begun.2 _ t.keys
    | none =>
      simp only [bind, Except.bind, Except.mapError, mode, Reader.start]
      cases r.startRecords (ε := ε) alloc Assembler.texts () with
      | error e t => rfl
      | ok begun t => exact map_rows begun.2 _ t.keys

end Accepted

/-- The error of a table for one of reading bytes in memory, which is none of the source. -/
def named (e : ReadError Empty) : Error ε := .ofReadError (e.map Empty.elim)

/-- What is read from the origin is what is parsed from the bytes in memory, with decoded rows, and
with records of the same rows under decoded keys. It can be had where memory is granted. -/
structure Decodes (alloc : Allocator) (origin : π) (options : Options) (d : Dialect)
    (bytes : List UInt8) : Prop where
  rows : rowsFrom alloc origin options =
    ((parseRows alloc bytes d).map (List.map (List.map decodeLossy))).mapError (named (ε := ε))
  recordsUnder (keys : List String) :
    MadeOf (named (ε := ε)) (parseRows alloc bytes d)
      (fun rows ↦ (rows.map (Record.ofRow (keys.map utf8)), []))
      (fun rows ↦ rows.map (recordOf (keys.map utf8)))
      (parseRecordsUnder alloc bytes (keys.map utf8) d)
      (recordsFrom alloc origin (some keys) options)
  records :
    MadeOf (named (ε := ε)) (parseRows alloc bytes d)
      (fun rows ↦ (rows.tail.map (Record.ofRow (rows.headD [])), rows.headD []))
      (fun rows ↦ rows.tail.map (recordOf (rows.headD [])))
      (parseRecords alloc bytes d) (recordsFrom alloc origin none options)
  returned (hg : alloc.GrantsFor bytes.length) (hvalid : d.validate = .ok ())
    (hfits : bytes.length < memoryLimit) :
    (∃ rows, rowsFrom (ε := ε) alloc origin options = .ok rows) ∧
      ∀ keys, ∃ records, recordsFrom (ε := ε) alloc origin keys options = .ok records

/-- There is no table of the origin, neither of rows nor of records. Under the condition the error
is known. -/
def Raises (alloc : Allocator) (origin : π) (options : Options) (condition : Prop)
    (error : Error ε) : Prop :=
  (∃ e, rowsFrom alloc origin options = .error e ∧ (condition → e = error)) ∧
    ∀ keys, ∃ e, recordsFrom alloc origin keys options = .error e ∧ (condition → e = error)

section Accepted

variable (hd : options.dialect (ε := ε) = .ok d)
include hd

section Alike

variable (alloc) {bytes : List UInt8}
  (halike : OpenedAlike Empty.elim (Origin.openSource (ListOrigin.mk bytes)).1
    (Origin.openSource origin).1)
include halike

theorem rowsFrom_eq_parseRows :
    rowsFrom alloc origin options =
      ((parseRows alloc bytes d).map (List.map (List.map decodeLossy))).mapError
        (named (ε := ε)) := by
  rw [rowsFrom_eq_gather hd, Reader.gather_rows_eq_remake Assembler.texts alloc d halike,
    Assembler.make_texts_rows, parseRows_eq_gather]
  cases gather (ε := Empty) alloc (ListOrigin.mk bytes) d .rows Assembler.standard with
  | error e => rfl
  | ok gathered => rfl

theorem madeOf_recordsFrom_some (keys : List String) :
    MadeOf (named (ε := ε)) (parseRows alloc bytes d)
      (fun rows ↦ (rows.map (Record.ofRow (keys.map utf8)), []))
      (fun rows ↦ rows.map (recordOf (keys.map utf8)))
      (parseRecordsUnder alloc bytes (keys.map utf8) d)
      (recordsFrom alloc origin (some keys) options) := by
  have hmade := Reader.madeOf_gather_recordsUnder Assembler.standard Assembler.texts alloc d
    halike (keys.map utf8)
  rw [← parseRows_eq_gather, ← parseRecordsUnder_eq_gather] at hmade
  simp only [Assembler.make_standard_records, Assembler.make_texts_records] at hmade
  rw [recordsFrom_eq_gather hd]
  -- The pairs of a row become its entries after the pass, so that equal keys meet decoded.
  exact hmade.further Error.ofReadError _ fun rows ↦ List.map_map

theorem madeOf_recordsFrom_none :
    MadeOf (named (ε := ε)) (parseRows alloc bytes d)
      (fun rows ↦ (rows.tail.map (Record.ofRow (rows.headD [])), rows.headD []))
      (fun rows ↦ rows.tail.map (recordOf (rows.headD [])))
      (parseRecords alloc bytes d) (recordsFrom alloc origin none options) := by
  have hmade := Reader.madeOf_gather_records Assembler.standard Assembler.texts alloc d halike
  rw [← parseRows_eq_gather, ← parseRecords_eq_gather] at hmade
  simp only [Assembler.make_standard_records, Assembler.make_texts_records] at hmade
  rw [recordsFrom_eq_gather hd]
  exact hmade.further Error.ofReadError _ fun rows ↦ List.map_map

/-- Where memory is granted, there are rows and records. -/
theorem exists_of_grantsFor (hg : alloc.GrantsFor bytes.length) (hvalid : d.validate = .ok ())
    (hfits : bytes.length < memoryLimit) :
    (∃ rows, rowsFrom (ε := ε) alloc origin options = .ok rows) ∧
      ∀ keys, ∃ records, recordsFrom (ε := ε) alloc origin keys options = .ok records := by
  constructor
  · rw [rowsFrom_eq_parseRows alloc hd halike, parseRows_eq_table hg hvalid hfits]
    exact ⟨_, rfl⟩
  · intro keys
    cases keys with
    | some keys =>
      have hmade := madeOf_recordsFrom_some alloc hd halike keys
      rw [parseRecordsUnder_eq_map hg hvalid hfits] at hmade
      exact hmade.exists_ok
    | none =>
      have hmade := madeOf_recordsFrom_none alloc hd halike
      rw [parseRecords_eq_map hg hvalid hfits] at hmade
      exact hmade.exists_ok

end Alike

/-- A table over bytes is decoded, whatever it is opened from. -/
theorem decodes_of_gives {source : σ} {bytes : List UInt8}
    (ho : (Origin.openSource origin).1 = .ok source)
    (hs : Source.Gives source bytes .done) : Decodes (ε := ε) alloc origin options d bytes := by
  have halike : OpenedAlike Empty.elim (Origin.openSource (ListOrigin.mk bytes)).1
      (Origin.openSource origin).1 := by
    rw [ho]
    exact .opened (ListSource.gives bytes) hs
  exact ⟨rowsFrom_eq_parseRows alloc hd halike, madeOf_recordsFrom_some alloc hd halike,
    madeOf_recordsFrom_none alloc hd halike, exists_of_grantsFor alloc hd halike⟩

/-- There is no table where nothing is gathered. -/
theorem raises_of_gather {condition : Prop} (error : ReadError ε)
    (h : ∀ {ρ γ : Type} (mode : Mode (List String) (List (String × String)) ρ γ),
      (∃ e, gather alloc origin d mode Assembler.texts = .error e) ∧
        (condition → gather alloc origin d mode Assembler.texts = .error error)) :
    Raises alloc origin options condition (.ofReadError error) := by
  constructor
  · rw [rowsFrom_eq_gather hd]
    exact exists_error_of_gathered Prod.fst (h .rows)
  · intro keys
    rw [recordsFrom_eq_gather hd]
    exact exists_error_of_gathered _ (h (mode keys))

end Accepted

/-- Tables are decoded passes. What is read from an origin whose source gives some bytes is what is
parsed from these in memory, decoded, and a record has the decoded keys of its row, each once and in
the order in which they come first, with the decoded field at its last place. Where the source
cannot be opened or fails there is no table, however much it has given. -/
theorem tables_decode_passes (alloc : Allocator) (origin : π) (options : Options) (d : Dialect)
    (hd : options.dialect (ε := ε) = .ok d) :
    (∀ source bytes, (Origin.openSource origin).1 = .ok source → Source.Gives source bytes .done →
        Decodes (ε := ε) alloc origin options d bytes) ∧
      (∀ record keys row, Holds record keys row ↔ record = recordOf keys row) ∧
      (∀ cause, (Origin.openSource origin).1 = .error cause →
        Raises alloc origin options (alloc.GrantsFor 0 ∧ d.validate = .ok ()) (.file cause)) ∧
      ∀ source text cause, (Origin.openSource origin).1 = .ok source →
        Source.Gives source text (.failure cause) →
        Raises alloc origin options
          (alloc.GrantsFor text.length ∧ d.validate = .ok () ∧ text.length < memoryLimit)
          (.file cause) := by
  refine ⟨fun source bytes ho hs ↦ decodes_of_gives hd ho hs,
    fun record keys row ↦ holds_iff_eq_recordOf, fun cause ho ↦ ?_,
    fun source text cause ho hs ↦ ?_⟩
  · refine raises_of_gather hd (.opening cause) fun mode ↦ ?_
    obtain ⟨hfails, hknown⟩ := Reader.gather_of_refused alloc mode Assembler.texts (d := d) ho
    exact ⟨hfails, fun ⟨hg, hvalid⟩ ↦ hknown hg hvalid⟩
  · refine raises_of_gather hd (.reading cause) fun mode ↦ ?_
    obtain ⟨hfails, hknown⟩ := Reader.gather_of_failure alloc mode Assembler.texts (d := d) ho hs
    exact ⟨hfails, fun ⟨hg, hvalid, hfits⟩ ↦ hknown hg hvalid hfits⟩

/-- Two keys that are no text are one when they are decoded, and the field under the later one
stays. Where there is no file there is no table, and a failure behind two rows leaves none. -/
theorem tables_decode_passes_at_colliding_keys :
    let bytes := [255, 44, 254, 44, 97, 10, 49, 44, 50, 44, 51]
    let cut : SuccessiveOrigin (Script Unit) Unit :=
      ⟨.ok ⟨bytes.map .ok ++ [.error ()]⟩, [], 0⟩
    loadRows .unlimited (.regular bytes) = .ok [["\uFFFD", "\uFFFD", "a"], ["1", "2", "3"]] ∧
      loadRecords .unlimited (.regular bytes) = .ok [[("\uFFFD", "2"), ("a", "3")]] ∧
      loadRows .unlimited .missing = .error (.file .notFound) ∧
      recordsFrom .unlimited cut none {} = .error (.file ()) := by
  intro bytes cut
  have htable : Grammar.table {} bytes = [[[255], [254], [97]], [[49], [50], [51]]] := by
    decide +kernel
  have hfits : bytes.length < memoryLimit := by decide
  have hgives : Source.Gives (FileHandle.regular bytes) bytes .done :=
    ⟨_, FileHandle.drain_regular bytes⟩
  have hdecodes := (tables_decode_passes .unlimited (FileOrigin.mk (.regular bytes)) {} {} rfl).1 _
    bytes rfl hgives
  have hcut : Source.Gives (Script.mk (bytes.map .ok ++ [.error ()])) bytes (.failure ()) :=
    Script.gives_failure bytes () []
  have hmissing := (tables_decode_passes .unlimited (FileOrigin.mk .missing) {} {} rfl).2.2.1
    .notFound rfl
  have hraises := (tables_decode_passes .unlimited cut {} {} rfl).2.2.2 _ bytes () rfl hcut
  refine ⟨?_, ?_, ?_, ?_⟩
  · refine hdecodes.rows.trans ?_
    rw [parseRows_eq_table (Allocator.grantsFor_unlimited _) rfl hfits, htable]
    exact congrArg Except.ok (by decide +kernel)
  · have hrecords := hdecodes.records
    rw [parseRows_eq_table (Allocator.grantsFor_unlimited _) rfl hfits,
      parseRecords_eq_map (Allocator.grantsFor_unlimited _) rfl hfits, htable] at hrecords
    obtain ⟨e, he, -⟩ | ⟨rows, hrows, -, hload⟩ := hrecords
    · cases he
    · refine hload.trans ?_
      rw [← Except.ok.inj hrows]
      exact congrArg Except.ok (by decide +kernel)
  · obtain ⟨e, he, hknown⟩ := hmissing.1
    exact he.trans (congrArg Except.error (hknown ⟨Allocator.grantsFor_unlimited _, rfl⟩))
  · obtain ⟨e, he, hknown⟩ := hraises.2 none
    rw [he, hknown ⟨Allocator.grantsFor_unlimited _, rfl, hfits⟩]

end Table
end Delimited
