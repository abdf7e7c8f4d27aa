import Delimited.Proofs.Concatenation

/-!
# Texts that go on

A text may be cut off anywhere: in quotes, between the two quotes of a pair, within a line ending,
among blank lines. Only its last row depends on how it goes on. Any other row has text behind it,
and so it is closed by a line ending.
-/

namespace Delimited

namespace Grammar

variable {d : Dialect}

/-- Where something is behind the first row, the row stays as it is however the text goes on, and so
does all that is behind it. -/
theorem row_append_of_behindRow {text : List UInt8} (h : behindRow d text ≠ [])
    (more : List UInt8) :
    values d (text ++ more) = values d text ∧
      behindRow d (text ++ more) = behindRow d text ++ more := by
  obtain ⟨hvalues, hbehind⟩ := row_append (rowDelimiting_ne_nil_of_behindRow h) more
  rw [if_neg h] at hbehind
  exact ⟨hvalues, hbehind⟩

/-- The rows of a text but the last are rows of every text that goes on from it. -/
theorem dropLast_table_prefix (d : Dialect) (text more : List UInt8) :
    (table d text).dropLast <+: table d (text ++ more) := by
  unfold table
  fun_induction starts d text with
  | case1 text hs => exact List.nil_prefix
  | case2 text hs ih =>
    by_cases hb : behindRow d (recordStart d text) = []
    -- The first row is the last, too.
    · rw [hb, starts_nil]
      exact List.nil_prefix
    · obtain ⟨hvalues, hbehind⟩ := row_append_of_behindRow hb more
      have hstart := recordStart_append hs more
      have hne : recordStart d (text ++ more) ≠ [] := by
        rw [hstart]
        exact List.append_ne_nil_of_left_ne_nil hs more
      rw [starts_of_ne_nil hne, hstart, hbehind, List.map_cons, List.map_cons, hvalues]
      cases hrows : (starts d (behindRow d (recordStart d text))).map (values d) with
      | nil => exact List.nil_prefix
      | cons second others =>
        rw [hrows] at ih
        rw [List.dropLast_cons_of_ne_nil (List.cons_ne_nil second others)]
        exact (List.prefix_cons_inj _).mpr ih

end Grammar

/-- Where rows but the last stay, so do the records but the last under the first row. The keys stay
as soon as there is a second row. -/
theorem Record.dropLast_map_ofRow_prefix {rows rows' : List (List (List UInt8))}
    (h : rows.dropLast <+: rows') :
    (rows.tail.map (ofRow (rows.headD []))).dropLast <+:
        rows'.tail.map (ofRow (rows'.headD [])) ∧
      (2 ≤ rows.length → rows'.headD [] = rows.headD []) := by
  match rows with
  | [] => exact ⟨List.nil_prefix, fun hlength ↦ nomatch hlength⟩
  | [keys] => exact ⟨List.nil_prefix, fun hlength ↦ by simp at hlength⟩
  | keys :: second :: others =>
    rw [List.dropLast_cons_of_ne_nil (List.cons_ne_nil second others)] at h
    obtain ⟨behind, rfl⟩ := h
    refine ⟨?_, fun _ ↦ rfl⟩
    show ((second :: others).map (ofRow keys)).dropLast <+:
      ((second :: others).dropLast ++ behind).map (ofRow keys)
    rw [← List.map_dropLast, List.map_append]
    exact List.prefix_append _ _

/-- What is read of a text is not revised when the text goes on: its rows but the last are the first
rows of the longer text, and its records but the last are the first records. The keys are certain as
soon as there is a second row. -/
theorem rows_stay_as_text_goes_on (alloc : Allocator) (d : Dialect) (text more : List UInt8)
    (hg : alloc.GrantsFor (text ++ more).length) (hd : d.validate = .ok ())
    (hfits : (text ++ more).length < memoryLimit) :
    ∃ rows rows' records records' keys keys',
      parseRows alloc text d = .ok rows ∧ parseRows alloc (text ++ more) d = .ok rows' ∧
        parseRecords alloc text d = .ok (records, keys) ∧
        parseRecords alloc (text ++ more) d = .ok (records', keys') ∧
        rows.dropLast <+: rows' ∧ records.dropLast <+: records' ∧
        (2 ≤ rows.length → keys' = keys) := by
  have hle : text.length ≤ (text ++ more).length := by
    rw [List.length_append]
    omega
  have htext := Nat.lt_of_le_of_lt hle hfits
  have hrows := Grammar.dropLast_table_prefix d text more
  obtain ⟨hrecords, hkeys⟩ := Record.dropLast_map_ofRow_prefix hrows
  exact ⟨_, _, _, _, _, _, parseRows_eq_table (hg.mono hle) hd htext,
    parseRows_eq_table hg hd hfits, parseRecords_eq_map (hg.mono hle) hd htext,
    parseRecords_eq_map hg hd hfits, hrows, hrecords, hkeys⟩

/-- The text is cut off between the two quotes of a pair. Its last field is not the last word, but
the keys and the row between are. -/
theorem rows_stay_as_text_goes_on_in_quotes :
    let text : List UInt8 := [107, 10, 118, 10, 34, 98, 34]
    let more : List UInt8 := [34, 99, 34, 10]
    parseRows .unlimited text {} = .ok [[[107]], [[118]], [[98]]] ∧
      parseRows .unlimited (text ++ more) {} = .ok [[[107]], [[118]], [[98, 34, 99]]] ∧
      ∃ records records', parseRecords .unlimited text {} = .ok (records, [[107]]) ∧
        parseRecords .unlimited (text ++ more) {} = .ok (records', [[107]]) ∧
        records.dropLast = [Record.ofRow [[107]] [[118]]] ∧ records.dropLast <+: records' := by
  intro text more
  obtain ⟨rows, rows', records, records', keys, keys', hrows, hrows', hrecords, hrecords', -,
    hprefix, hkeys⟩ := rows_stay_as_text_goes_on .unlimited {} text more
      (Allocator.grantsFor_unlimited _) rfl (by decide)
  have htable : Grammar.table {} text = [[[107]], [[118]], [[98]]] := by decide +kernel
  have htable' : Grammar.table {} (text ++ more) = [[[107]], [[118]], [[98, 34, 99]]] := by
    decide +kernel
  have hparse : parseRows .unlimited text {} = .ok [[[107]], [[118]], [[98]]] := by
    rw [parseRows_eq_table (Allocator.grantsFor_unlimited _) rfl (by decide), htable]
  have hparse' :
      parseRows .unlimited (text ++ more) {} = .ok [[[107]], [[118]], [[98, 34, 99]]] := by
    rw [parseRows_eq_table (Allocator.grantsFor_unlimited _) rfl (by decide), htable']
  have hkeyed : parseRecords .unlimited text {} =
      .ok ([Record.ofRow [[107]] [[118]], Record.ofRow [[107]] [[98]]], [[107]]) := by
    rw [parseRecords_eq_map (Allocator.grantsFor_unlimited _) rfl (by decide), htable]
    rfl
  rw [hparse] at hrows
  rw [hkeyed] at hrecords
  cases hrows
  cases hrecords
  rw [hkeys (by decide)] at hrecords'
  exact ⟨hparse, hparse', _, records', hkeyed, hrecords', rfl, hprefix⟩

end Delimited
