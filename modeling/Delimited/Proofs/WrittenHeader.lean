import Delimited.Proofs.Writing
import Delimited.Reader.History

/-!
# Keys written as a header

Keys may be supplied, or stand in a row in front of the data. Where that row is written with quotes
around every key, both ways come to the same records, whatever the data begins with.
-/

namespace Delimited

namespace Grammar

variable {d : Dialect} {keys : List (List UInt8)}

/-- A row that has the keys, with quotes around each and a line feed behind the last. -/
def header (d : Dialect) (keys : List (List UInt8)) : List UInt8 :=
  (WrittenRow.quoting keys).text d ++ [lineFeed]

/-- A header begins with a quote. -/
theorem header_ne_nil (d : Dialect) (keys : List (List UInt8)) (data : List UInt8) :
    header d keys ++ data ≠ [] := by
  simp [header]

/-- There is nothing to skip in front of a header. Its fields are the keys, and the data is behind
it. -/
theorem row_header (hd : d.validate = .ok ()) (hk : keys ≠ []) (data : List UInt8) :
    recordStart d (header d keys ++ data) = header d keys ++ data ∧
      values d (header d keys ++ data) = keys ∧ behindRow d (header d keys ++ data) = data := by
  have hpermitted := WrittenRow.permitted_quoting d keys
  have htext := WrittenRow.text_quoting_ne_nil d keys
  have hbreak : header d keys ++ data =
      (WrittenRow.quoting keys).text d ++ (LineBreak.lineFeed.bytes ++ data) :=
    List.append_assoc _ _ _
  obtain ⟨hvalues, hbehind⟩ := row_text hd hpermitted (delimits_lineBreak .lineFeed data)
    (closing_lineBreak hd fun hc ↦ nomatch hc.1)
  rw [hbreak]
  refine ⟨WrittenRow.recordStart_text hd hpermitted (fun _ ↦ htext) _, ?_, hbehind⟩
  rw [hvalues, WrittenRow.values_quoting hk]

/-- The keys are the first row of a header with data behind it. -/
theorem table_header (hd : d.validate = .ok ()) (hk : keys ≠ []) (data : List UInt8) :
    table d (header d keys ++ data) = keys :: table d data := by
  obtain ⟨hstart, hvalues, hbehind⟩ := row_header hd hk data
  unfold table
  rw [starts_of_ne_nil (by rw [hstart]; exact header_ne_nil d keys data), hstart, hbehind,
    List.map_cons, hvalues]

end Grammar

namespace Reader

variable {alloc : Allocator} {d : Dialect} {bytes : List UInt8} {φ Field Row Keyed : Type}

/-- The first pass of a reader of bytes in memory, under keys that are supplied. -/
theorem firstCourse_recordsUnder (hg : alloc.GrantsFor bytes.length) (hd : d.validate = .ok ())
    (hfits : bytes.length < memoryLimit) (assembler : Assembler φ Field Row Keyed) (state : φ)
    (keys : List (List UInt8)) :
    ∃ p : Pass ListSource φ (Keyed × List (List UInt8)) Keyed,
      p.builder = assembler.records keys ∧ p.state = state ∧ p.At d bytes .done ∧
        ∀ requests,
          firstCourse (ε := Empty) alloc (ListOrigin.mk bytes) d (.recordsUnder keys) assembler
              state requests =
            .started [] (some ⟨keys, false⟩) (p.take alloc requests).1
              (p.take alloc requests).2.state := by
  obtain ⟨r, hr, horigin, hfit⟩ :=
    create_of_validate (ε := Empty) (σ := ListSource) hg hd (ListOrigin.mk bytes)
  obtain ⟨p, t, hp, hkeys, hbuilder, hstate, hat⟩ :=
    startRecordsUnder_of_gives assembler state keys hfit (by rw [horigin]; rfl)
      (ListSource.gives bytes) (.inr rfl) hfits
  refine ⟨p, hbuilder, hstate, hat, fun requests ↦ ?_⟩
  rw [firstCourse, hr]
  dsimp only
  rw [course, start, hp]
  dsimp only
  rw [hkeys]

/-- The first pass of a reader of bytes in memory, under the keys that are the first row. -/
theorem firstCourse_records (hg : alloc.GrantsFor bytes.length) (hd : d.validate = .ok ())
    (hfits : bytes.length < memoryLimit) (hrow : Grammar.recordStart d bytes ≠ [])
    (assembler : Assembler φ Field Row Keyed) (state : φ) :
    let first := Grammar.recordStart d bytes
    let keys := Grammar.values d first
    ∃ p : Pass ListSource φ (Keyed × List (List UInt8)) Keyed,
      p.builder = assembler.records keys ∧ p.state = state ∧
        p.At d (Grammar.behindRow d first) .done ∧
        ∀ requests,
          firstCourse (ε := Empty) alloc (ListOrigin.mk bytes) d .records assembler state
              requests =
            .started keys (some ⟨keys, true⟩) (p.take alloc requests).1
              (p.take alloc requests).2.state := by
  intro first keys
  obtain ⟨r, hr, horigin, hfit⟩ :=
    create_of_validate (ε := Empty) (σ := ListSource) hg hd (ListOrigin.mk bytes)
  obtain ⟨p, t, hp, hkeys, hbuilder, hstate, hat, -⟩ :=
    startRecords_of_row assembler state hg hfit (by rw [horigin]; rfl) (ListSource.gives bytes)
      hfits hrow (.inr rfl)
  refine ⟨p, hbuilder, hstate, hat, fun requests ↦ ?_⟩
  rw [firstCourse, hr]
  dsimp only
  rw [course, start, hp]
  dsimp only
  rw [hkeys]

end Reader

/-- Data under supplied keys, and the same data behind a row that has the keys, each with quotes
around it: the records are the same, and so is all that an assembler makes of them, item by item.
The reader keeps the keys that it has taken from the row, and no keys that are supplied. -/
theorem records_under_written_header (alloc : Allocator) (d : Dialect) (keys : List (List UInt8))
    (data : List UInt8) (hg : alloc.GrantsFor (Grammar.header d keys ++ data).length)
    (hd : d.validate = .ok ()) (hk : keys ≠ [])
    (hfits : (Grammar.header d keys ++ data).length < memoryLimit) :
    (∃ records, parseRecordsUnder alloc data keys d = .ok (records, []) ∧
        parseRecords alloc (Grammar.header d keys ++ data) d = .ok (records, keys)) ∧
      ∀ {φ Field Row Keyed : Type} (assembler : Assembler φ Field Row Keyed) (state : φ)
        (requests : Nat), ∃ answers final,
          Reader.firstCourse (ε := Empty) alloc (ListOrigin.mk data) d (.recordsUnder keys)
              assembler state requests =
            .started [] (some ⟨keys, false⟩) answers final ∧
          Reader.firstCourse (ε := Empty) alloc (ListOrigin.mk (Grammar.header d keys ++ data)) d
              .records assembler state requests =
            .started keys (some ⟨keys, true⟩) answers final := by
  have hlength : (Grammar.header d keys ++ data).length =
      (Grammar.header d keys).length + data.length := List.length_append
  have hdata : data.length < memoryLimit := by omega
  have hless : alloc.GrantsFor data.length := hg.mono (by omega)
  obtain ⟨hstart, hvalues, hbehind⟩ := Grammar.row_header hd hk data
  constructor
  · refine ⟨_, parseRecordsUnder_eq_map hless hd hdata keys, ?_⟩
    rw [parseRecords_eq_map hg hd hfits, Grammar.table_header hd hk]
    rfl
  · intro φ Field Row Keyed assembler state requests
    have hrow : Grammar.recordStart d (Grammar.header d keys ++ data) ≠ [] := by
      rw [hstart]
      exact Grammar.header_ne_nil d keys data
    obtain ⟨p, hbuilder, hstate, hat, hcourse⟩ :=
      Reader.firstCourse_recordsUnder hless hd hdata assembler state keys
    obtain ⟨p', hbuilder', hstate', hat', hcourse'⟩ :=
      Reader.firstCourse_records hg hd hfits hrow assembler state
    rw [hstart, hbehind] at hat'
    rw [hstart, hvalues] at hbuilder' hcourse'
    obtain ⟨hanswers, hfinal⟩ := Pass.take_congr hless hat hat' (hbuilder'.trans hbuilder.symm)
      (hstate'.trans hstate.symm) requests
    refine ⟨_, _, hcourse requests, ?_⟩
    rw [hcourse', hanswers, hfinal]

/-- The keys contain a separator, a quote and a line feed, and the second of them comes twice; the
data begins with blank lines, which are skipped, and ends within quotes. -/
theorem records_under_written_header_of_repeated_key :
    let d : Dialect := { skipBlankLines := true }
    let keys : List (List UInt8) := [[97, 44, 34], [10], [10]]
    let data : List UInt8 := [10, 13, 120, 44, 121, 44, 34, 122]
    Grammar.header d keys =
        [34, 97, 44, 34, 34, 34, 44, 34, 10, 34, 44, 34, 10, 34, 10] ∧
      ∃ records, parseRecordsUnder .unlimited data keys d = .ok (records, []) ∧
        parseRecords .unlimited (Grammar.header d keys ++ data) d = .ok (records, keys) := by
  intro d keys data
  refine ⟨rfl, ?_⟩
  obtain ⟨hrecords, -⟩ := records_under_written_header .unlimited d keys data
    (Allocator.grantsFor_unlimited _) rfl (List.cons_ne_nil _ _) (by decide)
  exact hrecords

end Delimited
