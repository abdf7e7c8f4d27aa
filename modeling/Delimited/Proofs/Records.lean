import Delimited.Proofs.Collecting

/-!
# Records under keys

A record has an entry for each key at whose place the row has a field. Where a key stands at several
such places, the field furthest right counts. Fields beyond the keys come to nothing.
-/

namespace Delimited

namespace Record

/-- The record is that of the row under the keys. -/
structure Holds (record : Record) (keys row : List (List UInt8)) : Prop where
  mem_iff (key : List UInt8) :
    key ∈ record ↔ ∃ i, i < min keys.length row.length ∧ keys[i]? = some key
  /-- The last place counts. -/
  getElem?_eq (key : List UInt8) (i : Nat) (hi : i < min keys.length row.length)
    (hkey : keys[i]? = some key)
    (hlast : ∀ j, i < j → j < min keys.length row.length → keys[j]? ≠ some key) :
    record[key]? = row[i]?

/-- Where there is a place for a key there is a last one. -/
theorem exists_last_key {Key : Type} {keys : List Key} {key : Key} {n i : Nat} (hi : i < n)
    (hkey : keys[i]? = some key) :
    ∃ i, i < n ∧ keys[i]? = some key ∧ ∀ j, i < j → j < n → keys[j]? ≠ some key := by
  induction n with
  | zero => omega
  | succ n ih =>
    by_cases hn : keys[n]? = some key
    · exact ⟨n, Nat.lt_succ_self n, hn, by omega⟩
    · have hne : i ≠ n := by
        rintro rfl
        exact hn hkey
      obtain ⟨i, hlt, hkey, hlast⟩ := ih (by omega)
      refine ⟨i, by omega, hkey, fun j hj hjn ↦ ?_⟩
      by_cases hjlast : j = n
      · rwa [hjlast]
      · exact hlast j hj (by omega)

/-- What a record holds says all there is to say of it. -/
theorem Holds.unique {record other : Record} {keys row : List (List UInt8)}
    (h : record.Holds keys row) (h' : other.Holds keys row) : record = other := by
  apply Std.ExtTreeMap.ext_getElem?
  intro key
  by_cases hkey : key ∈ record
  · obtain ⟨i, hi, hplace⟩ := (h.mem_iff key).mp hkey
    obtain ⟨last, hlt, hplace, hlast⟩ := exists_last_key hi hplace
    rw [h.getElem?_eq key last hlt hplace hlast, h'.getElem?_eq key last hlt hplace hlast]
  · have hother : key ∉ other := by rwa [h'.mem_iff, ← h.mem_iff]
    rw [Std.ExtTreeMap.getElem?_eq_none hkey, Std.ExtTreeMap.getElem?_eq_none hother]

theorem mem_foldl_enter {entries : List (List UInt8 × List UInt8)} {record : Record}
    {key : List UInt8} :
    key ∈ entries.foldl enter record ↔ key ∈ record ∨ ∃ entry ∈ entries, entry.1 = key := by
  induction entries generalizing record with
  | nil => simp
  | cons entry entries ih =>
    rw [List.foldl_cons, ih, enter, Std.ExtTreeMap.mem_insert, Std.LawfulEqCmp.compare_eq_iff_eq]
    simp only [List.mem_cons, or_and_right, exists_or, exists_eq_left]
    rw [or_assoc, or_left_comm]

/-- Entries under other keys leave an entry as it is. -/
theorem getElem?_foldl_enter_of_ne {entries : List (List UInt8 × List UInt8)} {record : Record}
    {key : List UInt8} (h : ∀ entry ∈ entries, entry.1 ≠ key) :
    (entries.foldl enter record)[key]? = record[key]? := by
  induction entries generalizing record with
  | nil => rfl
  | cons entry entries ih =>
    rw [List.foldl_cons, ih fun later hlater ↦ h later (.tail _ hlater), enter,
      Std.ExtTreeMap.getElem?_insert, if_neg]
    rw [Std.LawfulEqCmp.compare_eq_iff_eq]
    exact h entry (.head _)

/-- The last entry under a key stays. -/
theorem getElem?_foldl_enter_append {entries later : List (List UInt8 × List UInt8)}
    {record : Record} {key value : List UInt8} (h : ∀ entry ∈ later, entry.1 ≠ key) :
    ((entries ++ (key, value) :: later).foldl enter record)[key]? = some value := by
  rw [List.foldl_append, List.foldl_cons, getElem?_foldl_enter_of_ne h]
  exact Std.ExtTreeMap.getElem?_insert_self

/-- The record that is made of a row under keys is the one that is meant. -/
theorem holds_ofRow (keys row : List (List UInt8)) : (ofRow keys row).Holds keys row where
  mem_iff key := by
    unfold ofRow
    rw [mem_foldl_enter]
    constructor
    · rintro (hempty | ⟨entry, hentry, rfl⟩)
      · exact absurd hempty Std.ExtTreeMap.not_mem_empty
      · obtain ⟨i, hi, rfl⟩ := List.mem_iff_getElem.mp hentry
        rw [List.length_zip] at hi
        refine ⟨i, hi, ?_⟩
        rw [List.getElem_zip, List.getElem?_eq_getElem]
    · rintro ⟨i, hi, hkey⟩
      obtain ⟨hlt, rfl⟩ := List.getElem?_eq_some_iff.mp hkey
      have hzip : i < (keys.zip row).length := by rwa [List.length_zip]
      refine .inr ⟨(keys.zip row)[i], List.getElem_mem hzip, ?_⟩
      rw [List.getElem_zip]
  getElem?_eq key i hi hkey hlast := by
    have hzip : i < (keys.zip row).length := by rwa [List.length_zip]
    have hrow : i < row.length := by omega
    obtain ⟨hlt, rfl⟩ := List.getElem?_eq_some_iff.mp hkey
    have hsplit : keys.zip row =
        (keys.zip row).take i ++ (keys[i], row[i]) :: (keys.zip row).drop (i + 1) := by
      rw [← List.getElem_zip (h := hzip), ← List.drop_eq_getElem_cons hzip, List.take_append_drop]
    unfold ofRow
    rw [hsplit, getElem?_foldl_enter_append, List.getElem?_eq_getElem hrow]
    intro entry hentry
    obtain ⟨n, hn, rfl⟩ := List.mem_iff_getElem.mp hentry
    rw [List.length_drop, List.length_zip] at hn
    rw [List.getElem_drop, List.getElem_zip]
    intro hsame
    apply hlast (i + 1 + n) (by omega) (by omega)
    rw [List.getElem?_eq_getElem (by omega)]
    exact congrArg some hsame

/-- There is exactly one record that holds what a row has under keys. -/
theorem holds_iff_eq_ofRow {record : Record} {keys row : List (List UInt8)} :
    record.Holds keys row ↔ record = ofRow keys row := by
  constructor
  · intro h
    exact h.unique (holds_ofRow keys row)
  · rintro rfl
    exact holds_ofRow keys row

/-- Fields beyond the keys do not matter. -/
theorem ofRow_take (keys row : List (List UInt8)) :
    ofRow keys (row.take keys.length) = ofRow keys row := by
  have hzip : keys.zip (row.take keys.length) = keys.zip row := by
    induction keys generalizing row with
    | nil => rfl
    | cons key keys ih =>
      cases row with
      | nil => rfl
      | cons value row => exact congrArg ((key, value) :: ·) (ih row)
  rw [ofRow, hzip, ofRow]

end Record

/-- Reading records is reading rows and putting keys to them. The keys are those of the first row,
or none if there is no row, or they are given, and then no row is taken for them. The record of a
row under keys is the one that holds its fields under the keys at their places. -/
theorem records_follow_rows (alloc : Allocator) (d : Dialect) (bytes : List UInt8)
    (hg : alloc.GrantsFor bytes.length) (hd : d.validate = .ok ())
    (hfits : bytes.length < memoryLimit) :
    ∃ rows, parseRows alloc bytes d = .ok rows ∧
      parseRecords alloc bytes d =
        .ok (rows.tail.map (Record.ofRow (rows.headD [])), rows.headD []) ∧
      (∀ keys, parseRecordsUnder alloc bytes keys d = .ok (rows.map (Record.ofRow keys), [])) ∧
      ∀ keys row, (∀ record : Record, record.Holds keys row ↔ record = Record.ofRow keys row) ∧
        Record.ofRow keys (row.take keys.length) = Record.ofRow keys row := by
  refine ⟨Grammar.table d bytes, parseRows_eq_table hg hd hfits, parseRecords_eq_map hg hd hfits,
    parseRecordsUnder_eq_map hg hd hfits, ?_⟩
  intro keys row
  exact ⟨fun record ↦ Record.holds_iff_eq_ofRow, Record.ofRow_take keys row⟩

/-- A key that stands twice has the field furthest right, which in a short row is the first. -/
theorem records_follow_rows_of_repeated_key :
    let bytes : List UInt8 := [97, 44, 98, 44, 97, 10, 49, 44, 50, 10, 49, 44, 50, 44, 51, 44, 52]
    let key : List UInt8 := [97]
    ∃ first second : Record,
      parseRecords .unlimited bytes {} = .ok ([first, second], [[97], [98], [97]]) ∧
        first[key]? = some [49] ∧ second[key]? = some [51] := by
  intro bytes key
  obtain ⟨rows, hrows, hrecords, -⟩ :=
    records_follow_rows .unlimited {} bytes (Allocator.grantsFor_unlimited _) rfl (by decide)
  have htable : rows = [[[97], [98], [97]], [[49], [50]], [[49], [50], [51], [52]]] := by
    rw [parseRows_eq_table (Allocator.grantsFor_unlimited _) rfl (by decide)] at hrows
    rw [← Except.ok.inj hrows]
    decide +kernel
  subst htable
  exact ⟨_, _, hrecords, by decide +kernel, by decide +kernel⟩

end Delimited
