import Delimited.Proofs.Starting
import Delimited.Reader.Memory

/-!
# Collecting the rows of bytes in memory

The standard assembler makes a row of its values, and a record by entering them one after the other.
So rows in memory are the table of their bytes, and records are that table under its keys.
-/

namespace Delimited

/-- Enters a field under a key. -/
def Record.enter (record : Record) (entry : List UInt8 × List UInt8) : Record :=
  record.insert entry.1 entry.2

/-- The record of a row: its fields are entered under the keys from left to right, as far as there
are keys. -/
def Record.ofRow (keys row : List (List UInt8)) : Record := (keys.zip row).foldl enter ∅

namespace Assembler

theorem fill_standard_rows (row values : List (List UInt8)) :
    standard.rows.fill values (row, ()) = (row ++ values, ()) := by
  induction values generalizing row with
  | nil => rw [List.append_nil]; rfl
  | cons value values ih =>
    show standard.rows.fill values (row ++ [value], ()) = _
    rw [ih, List.append_assoc]
    rfl

/-- A row is made of its values. -/
theorem build_standard_rows (values : List (List UInt8)) :
    standard.rows.build values () = (values, ()) := by
  show (standard.rows.fill values ([], ())) = _
  rw [fill_standard_rows, List.nil_append]

theorem fill_standard_records (keys given values : List (List UInt8)) (record : Record) :
    ((standard.records given).fill values ((record, keys), ())).1.1 =
      (keys.zip values).foldl Record.enter record := by
  induction values generalizing keys record with
  | nil => rw [List.zip_nil_right]; rfl
  | cons value values ih =>
    cases keys with
    | nil => exact ih [] record
    | cons key keys => exact ih keys (record.insert key value)

/-- A record is made by entering the values under the keys. -/
theorem build_standard_records (keys values : List (List UInt8)) :
    (standard.records keys).build values () = (Record.ofRow keys values, ()) :=
  Prod.ext (fill_standard_records keys keys values ∅) rfl

end Assembler

/-- Without a state rows are built independently of each other. -/
theorem RowBuilder.buildAll_unit {ρ γ : Type} (builder : RowBuilder Unit ρ γ)
    (rows : List (List (List UInt8))) :
    builder.buildAll rows () = rows.map fun values ↦ (builder.build values ()).1 := by
  induction rows with
  | nil => rfl
  | cons values rows ih => rw [List.map_cons, ← ih]; rfl

theorem mapM_id_ok {ε γ : Type} (values : List γ) :
    (values.map (Except.ok (ε := ε))).mapM id = .ok values := by
  induction values with
  | nil => rfl
  | cons value values ih =>
    rw [List.map_cons, List.mapM_cons, ih]
    rfl

namespace Pass

variable {σ ε ρ γ : Type} [Source σ ε] {alloc : Allocator} {d : Dialect} {text : List UInt8}
  {ending : Ending ε}

/-- The items of a pass over rows. -/
theorem items_of_rows {p : Pass σ Unit (List (List UInt8)) (List (List UInt8))}
    (hg : alloc.GrantsFor text.length) (h : p.At d text ending)
    (hb : p.builder = Assembler.standard.rows) :
    (p.items alloc).1 =
      (Grammar.settledTable d text ending).map .ok ++ ending.errors.map .error := by
  rw [items_eq hg h, hb, RowBuilder.buildAll_unit]
  simp only [Assembler.build_standard_rows, List.map_id']

/-- The items of a pass over records. -/
theorem items_of_records {p : Pass σ Unit (Record × List (List UInt8)) Record}
    {keys : List (List UInt8)} (hg : alloc.GrantsFor text.length) (h : p.At d text ending)
    (hb : p.builder = Assembler.standard.records keys) :
    (p.items alloc).1 =
      ((Grammar.settledTable d text ending).map (Record.ofRow keys)).map .ok ++
        ending.errors.map .error := by
  rw [items_eq hg h, hb, RowBuilder.buildAll_unit]
  simp only [Assembler.build_standard_records]

/-- Items without an error are collected. -/
theorem collect_of_items {p : Pass σ Unit ρ γ} {values : List γ}
    (h : (p.items alloc).1 = values.map .ok) : p.collect alloc = .ok values := by
  unfold collect
  rw [h, mapM_id_ok]

end Pass

variable {alloc : Allocator} {d : Dialect} {bytes : List UInt8}

/-- Bytes in memory are opened as they are. -/
theorem ListSource.gives (bytes : List UInt8) :
    Source.Gives (ListSource.mk bytes) bytes (.done : Ending Empty) :=
  ⟨_, ListSource.drain_eq bytes⟩

/-- A pass over the rows of bytes in memory starts before all the bytes. -/
theorem exists_startRows_at (hg : alloc.GrantsFor bytes.length) (hd : d.validate = .ok ())
    (hfits : bytes.length < memoryLimit) :
    ∃ (r r' : Reader ListOrigin ListSource)
      (p : Pass ListSource Unit (List (List UInt8)) (List (List UInt8))),
      Reader.create (ε := Empty) alloc ⟨bytes⟩ d = .ok r ∧
        r.startRows Assembler.standard () = .ok p r' ∧ p.builder = Assembler.standard.rows ∧
        p.At d bytes .done := by
  obtain ⟨r, hr, horigin, hfit⟩ :=
    Reader.create_of_validate (ε := Empty) (σ := ListSource) hg hd (ListOrigin.mk bytes)
  obtain ⟨p, r', hp, hbuilder, -, hat, -⟩ :=
    Reader.startRows_of_gives Assembler.standard () hfit
      (by rw [horigin]; rfl) (ListSource.gives bytes) (.inr rfl) hfits
  exact ⟨r, r', p, hr, hp, hbuilder, hat⟩

/-- A pass over the rows of bytes in memory starts, and its items are the rows of their table. -/
theorem exists_startRows (hg : alloc.GrantsFor bytes.length) (hd : d.validate = .ok ())
    (hfits : bytes.length < memoryLimit) :
    ∃ (r r' : Reader ListOrigin ListSource)
      (p : Pass ListSource Unit (List (List UInt8)) (List (List UInt8))),
      Reader.create (ε := Empty) alloc ⟨bytes⟩ d = .ok r ∧
        r.startRows Assembler.standard () = .ok p r' ∧
        (p.items alloc).1 = (Grammar.table d bytes).map .ok := by
  obtain ⟨r, r', p, hr, hp, hbuilder, hat⟩ := exists_startRows_at hg hd hfits
  have hitems := Pass.items_of_rows hg hat hbuilder
  rw [Ending.errors_done, List.map_nil, List.append_nil, Grammar.settledTable_done] at hitems
  exact ⟨r, r', p, hr, hp, hitems⟩

/-- The rows of bytes in memory are their table. -/
theorem parseRows_eq_table (hg : alloc.GrantsFor bytes.length) (hd : d.validate = .ok ())
    (hfits : bytes.length < memoryLimit) :
    parseRows alloc bytes d = .ok (Grammar.table d bytes) := by
  obtain ⟨r, r', p, hr, hp, hitems⟩ := exists_startRows hg hd hfits
  unfold parseRows
  rw [hr]
  dsimp only [bind, Except.bind]
  rw [hp]
  exact Pass.collect_of_items hitems

/-- Bytes in memory are read by the grammar: collecting their rows gives the table and no error, and
a pass that is asked item by item gives the rows of the table, and nothing for ever behind them. -/
theorem rows_follow_grammar (alloc : Allocator) (d : Dialect) (bytes : List UInt8)
    (hg : alloc.GrantsFor bytes.length) (hd : d.validate = .ok ())
    (hfits : bytes.length < memoryLimit) :
    parseRows alloc bytes d = .ok (Grammar.table d bytes) ∧
      ∃ (r r' : Reader ListOrigin ListSource)
        (p : Pass ListSource Unit (List (List UInt8)) (List (List UInt8))),
        Reader.create (ε := Empty) alloc ⟨bytes⟩ d = .ok r ∧
          r.startRows Assembler.standard () = .ok p r' ∧
          ∀ n, (p.take alloc n).1 = Pass.answers ((Grammar.table d bytes).map .ok) n := by
  refine ⟨parseRows_eq_table hg hd hfits, ?_⟩
  obtain ⟨r, r', p, hr, hp, hitems⟩ := exists_startRows hg hd hfits
  refine ⟨r, r', p, hr, hp, fun n ↦ ?_⟩
  rw [Pass.take_eq_answers, hitems]

/-- A trailing separator makes a final empty field, bytes behind a closing quote are dropped, and a
carriage return takes a line feed along. -/
theorem rows_follow_grammar_at_quotes :
    parseRows .unlimited [97, 44, 13, 10, 34, 34, 34, 120, 34, 121, 44, 98, 34] {} =
      .ok [[[97], []], [[34, 120], [98, 34]]] := by
  rw [(rows_follow_grammar .unlimited {} [97, 44, 13, 10, 34, 34, 34, 120, 34, 121, 44, 98, 34]
    (Allocator.grantsFor_unlimited _) rfl (by decide)).1]
  exact congrArg Except.ok (by decide +kernel)

/-- The records of bytes in memory under given keys are those of all the rows. -/
theorem parseRecordsUnder_eq_map (hg : alloc.GrantsFor bytes.length) (hd : d.validate = .ok ())
    (hfits : bytes.length < memoryLimit) (keys : List (List UInt8)) :
    parseRecordsUnder alloc bytes keys d =
      .ok ((Grammar.table d bytes).map (Record.ofRow keys), []) := by
  obtain ⟨r, hr, horigin, hfit⟩ :=
    Reader.create_of_validate (ε := Empty) (σ := ListSource) hg hd (ListOrigin.mk bytes)
  obtain ⟨p, r', hp, hkeys, hbuilder, -, hat⟩ :=
    Reader.startRecordsUnder_of_gives Assembler.standard () keys hfit
      (by rw [horigin]; rfl) (ListSource.gives bytes) (.inr rfl) hfits
  have hitems := Pass.items_of_records hg hat hbuilder
  rw [Ending.errors_done, List.map_nil, List.append_nil, Grammar.settledTable_done] at hitems
  unfold parseRecordsUnder
  rw [hr]
  dsimp only [bind, Except.bind]
  rw [hp]
  dsimp only
  rw [Pass.collect_of_items hitems]
  dsimp only
  rw [hkeys]
  rfl

/-- The records of bytes in memory under the first row are those of the other rows. Where there is
no row there are no keys either. -/
theorem parseRecords_eq_map (hg : alloc.GrantsFor bytes.length) (hd : d.validate = .ok ())
    (hfits : bytes.length < memoryLimit) :
    parseRecords alloc bytes d =
      .ok ((Grammar.table d bytes).tail.map (Record.ofRow ((Grammar.table d bytes).headD [])),
        (Grammar.table d bytes).headD []) := by
  obtain ⟨r, hr, horigin, hfit⟩ :=
    Reader.create_of_validate (ε := Empty) (σ := ListSource) hg hd (ListOrigin.mk bytes)
  have hopen : Origin.openSource r.origin = (.ok (ListSource.mk bytes), ListOrigin.mk bytes) := by
    rw [horigin]
    rfl
  rw [← Grammar.settledTable_done (ε := Empty)]
  unfold parseRecords
  rw [hr]
  dsimp only [bind, Except.bind]
  by_cases hs : Grammar.recordStart d bytes = []
  · obtain ⟨p, r', hp, hkeys, hat, -⟩ :=
      Reader.startRecords_of_done Assembler.standard () hg hfit hopen
        (ListSource.gives bytes) hs
    have hitems := Pass.items_eq (hg.mono (Nat.zero_le _)) hat
    rw [Grammar.settledTable_of_eq_nil (Grammar.recordStart_nil d)] at hitems
    have hcollect : p.collect alloc = .ok [] := Pass.collect_of_items hitems
    rw [hp, Grammar.settledTable_of_eq_nil hs]
    dsimp only
    rw [hcollect]
    dsimp only
    rw [hkeys]
    rfl
  · obtain ⟨p, r', hp, hkeys, hbuilder, -, hat, -⟩ :=
      Reader.startRecords_of_row Assembler.standard () hg hfit hopen
        (ListSource.gives bytes) hfits hs (.inr rfl)
    have hbehind := Grammar.length_behindRow_recordStart_le d bytes
    have hitems := Pass.items_of_records (hg.mono hbehind) hat hbuilder
    rw [Ending.errors_done, List.map_nil, List.append_nil] at hitems
    rw [hp, Grammar.settledTable_of_ne_nil hs (.inr rfl)]
    dsimp only
    rw [Pass.collect_of_items hitems]
    dsimp only
    rw [hkeys]
    rfl

end Delimited
