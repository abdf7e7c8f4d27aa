import Delimited.Proofs.Records
import Delimited.Table
import Mathlib.Data.List.Induction

/-!
# Entries under decoded keys

A record of texts has its keys in the order in which they come first, each with the value that comes
last. Since keys are compared after they are decoded, those of different bytes may be one.
-/

namespace Delimited.Table

open Text.Utf8 (decodeLossy)

/-- A new key comes last, and another one keeps its place. -/
theorem map_fst_assign (key value : String) (entries : List (String × String)) :
    (assign key value entries).map Prod.fst =
      if key ∈ entries.map Prod.fst then entries.map Prod.fst
      else entries.map Prod.fst ++ [key] := by
  induction entries with
  | nil => rfl
  | cons entry entries ih =>
    rw [assign]
    by_cases hkey : entry.1 = key
    · simp [hkey]
    · rw [if_neg hkey, List.map_cons, ih]
      by_cases hmem : key ∈ entries.map Prod.fst
      · rw [if_pos hmem, if_pos (.tail _ hmem), List.map_cons]
      · rw [if_neg hmem, if_neg (by simp_all [eq_comm]), List.map_cons, List.cons_append]

theorem lookup_cons_eq_ite (key value other : String) (entries : List (String × String)) :
    ((key, value) :: entries).lookup other =
      if other = key then some value else entries.lookup other := by
  rw [List.lookup_cons]
  by_cases h : other = key
  · rw [if_pos h, beq_iff_eq.mpr h]
  · rw [if_neg h, beq_eq_false_iff_ne.mpr h]

theorem lookup_assign (key value other : String) (entries : List (String × String)) :
    (assign key value entries).lookup other =
      if other = key then some value else entries.lookup other := by
  induction entries with
  | nil => exact lookup_cons_eq_ite key value other []
  | cons entry entries ih =>
    obtain ⟨k, v⟩ := entry
    rw [assign]
    split
    · next hkey =>
      obtain rfl : k = key := hkey
      rw [lookup_cons_eq_ite, lookup_cons_eq_ite]
      split
      · rfl
      · rfl
    · next hkey =>
      rw [lookup_cons_eq_ite, ih, lookup_cons_eq_ite]
      by_cases hother : other = k
      · have hne : other ≠ key := fun h ↦ hkey (hother.symm.trans h)
        rw [if_pos hother, if_neg hne, if_pos hother]
      · rw [if_neg hother, if_neg hother]

theorem entries_append_singleton (pairs : List (String × String)) (pair : String × String) :
    entries (pairs ++ [pair]) = assign pair.1 pair.2 (entries pairs) :=
  List.foldl_append

/-- The keys stand in the order in which they come first. -/
theorem map_fst_entries (pairs : List (String × String)) :
    (entries pairs).map Prod.fst = (pairs.map Prod.fst).eraseDups := by
  induction pairs using List.reverseRecOn with
  | nil => rfl
  | append_singleton pairs pair ih =>
    rw [entries_append_singleton, map_fst_assign, ih, List.map_append, List.eraseDups_append,
      List.map_singleton]
    by_cases hmem : pair.1 ∈ pairs.map Prod.fst
    · have hnone : [pair.1].removeAll (pairs.map Prod.fst) = [] := by
        simpa [List.removeAll] using hmem
      rw [if_pos (List.mem_eraseDups.mpr hmem), hnone]
      exact (List.append_nil _).symm
    · have hnew : [pair.1].removeAll (pairs.map Prod.fst) = [pair.1] := by
        simpa [List.removeAll] using hmem
      rw [if_neg (hmem ∘ List.mem_eraseDups.mp), hnew]
      rfl

/-- Every key stands once. -/
theorem nodup_map_fst_entries (pairs : List (String × String)) :
    ((entries pairs).map Prod.fst).Nodup := by
  induction pairs using List.reverseRecOn with
  | nil => exact List.nodup_nil
  | append_singleton pairs pair ih =>
    rw [entries_append_singleton, map_fst_assign]
    split
    · exact ih
    · next hmem =>
      refine List.nodup_append.mpr ⟨ih, List.pairwise_singleton _ _, ?_⟩
      rintro key hkey _ hlast rfl
      rw [List.mem_singleton.mp hlast] at hkey
      exact hmem hkey

/-- The last value under a key stays. -/
theorem lookup_entries_append {earlier later : List (String × String)} {key value : String}
    (h : ∀ pair ∈ later, pair.1 ≠ key) :
    (entries (earlier ++ (key, value) :: later)).lookup key = some value := by
  induction later using List.reverseRecOn with
  | nil => rw [entries_append_singleton, lookup_assign, if_pos rfl]
  | append_singleton later pair ih =>
    obtain ⟨hlater, hpair⟩ := List.forall_mem_append.mp h
    rw [← List.cons_append, ← List.append_assoc, entries_append_singleton, lookup_assign,
      if_neg (List.forall_mem_singleton.mp hpair).symm, ih hlater]

/-- The record is that of the row under the keys: a decoded key stands once, in the order in which
it comes first, with the decoded field at its last place. Keys without a field do not count. -/
structure Holds (record : List (String × String)) (keys row : List (List UInt8)) : Prop where
  keys_eq : record.map Prod.fst = ((keys.take row.length).map decodeLossy).eraseDups
  lookup_eq (key : String) (i : Nat) (hi : i < min keys.length row.length)
    (hkey : keys[i]?.map decodeLossy = some key)
    (hlast : ∀ j, i < j → j < min keys.length row.length →
      keys[j]?.map decodeLossy ≠ some key) :
    record.lookup key = row[i]?.map decodeLossy

/-- The pairs of a row under keys, decoded. -/
def pairs (keys row : List (List UInt8)) : List (String × String) :=
  (keys.zip row).map fun entry ↦ (decodeLossy entry.1, decodeLossy entry.2)

/-- The record of a row under keys. -/
def recordOf (keys row : List (List UInt8)) : List (String × String) := entries (pairs keys row)

theorem map_fst_pairs (keys row : List (List UInt8)) :
    (pairs keys row).map Prod.fst = (keys.take row.length).map decodeLossy := by
  induction keys generalizing row with
  | nil => simp [pairs]
  | cons key keys ih =>
    cases row with
    | nil => rfl
    | cons field row => exact congrArg (decodeLossy key :: ·) (ih row)

theorem holds_recordOf (keys row : List (List UInt8)) : Holds (recordOf keys row) keys row where
  keys_eq := by rw [recordOf, map_fst_entries, map_fst_pairs]
  lookup_eq key i hi hkey hlast := by
    have hzip : i < (keys.zip row).length := by rwa [List.length_zip]
    have hrow : i < row.length := by omega
    obtain ⟨bytes, hbytes, rfl⟩ := Option.map_eq_some_iff.mp hkey
    obtain ⟨hlt, rfl⟩ := List.getElem?_eq_some_iff.mp hbytes
    have hsplit : pairs keys row =
        (pairs keys row).take i ++ (decodeLossy keys[i], decodeLossy row[i]) ::
          (pairs keys row).drop (i + 1) := by
      have hpairs : i < (pairs keys row).length := by rwa [pairs, List.length_map]
      have hpair : (pairs keys row)[i] = (decodeLossy keys[i], decodeLossy row[i]) := by
        simp [pairs]
      rw [← hpair, ← List.drop_eq_getElem_cons hpairs, List.take_append_drop]
    rw [recordOf, hsplit, lookup_entries_append, List.getElem?_eq_getElem hrow]
    · rfl
    · intro pair hpair
      obtain ⟨n, hn, rfl⟩ := List.mem_iff_getElem.mp hpair
      rw [List.length_drop, pairs, List.length_map, List.length_zip] at hn
      intro hsame
      apply hlast (i + 1 + n) (by omega) (by omega)
      rw [List.getElem?_eq_getElem (by omega), Option.map_some, ← hsame]
      simp [pairs]

/-- Entries are known from their keys, if these are all different, and what is found under them. -/
theorem eq_of_lookup {record other : List (String × String)}
    (hkeys : record.map Prod.fst = other.map Prod.fst) (hnodup : (record.map Prod.fst).Nodup)
    (hlookup : ∀ key ∈ record.map Prod.fst, record.lookup key = other.lookup key) :
    record = other := by
  induction record generalizing other with
  | nil => exact (List.map_eq_nil_iff.mp hkeys.symm).symm
  | cons entry record ih =>
    obtain ⟨k, v⟩ := entry
    obtain ⟨⟨k', v'⟩, other, rfl, hkey, hothers⟩ := List.map_eq_cons_iff.mp hkeys.symm
    obtain rfl : k' = k := hkey
    obtain ⟨hnotin, hnodup⟩ := List.nodup_cons.mp hnodup
    obtain ⟨hfirst, hlookup⟩ := List.forall_mem_cons.mp hlookup
    have hv : v = v' := by simpa using hfirst
    have hrest : record = other := by
      refine ih hothers.symm hnodup fun key hmem ↦ ?_
      have hne : key ≠ k' := by
        rintro rfl
        exact hnotin hmem
      have hlater := hlookup key hmem
      rwa [lookup_cons_eq_ite, if_neg hne, lookup_cons_eq_ite, if_neg hne] at hlater
    rw [hv, hrest]

/-- There is exactly one record of a row under keys. -/
theorem holds_iff_eq_recordOf {record : List (String × String)} {keys row : List (List UInt8)} :
    Holds record keys row ↔ record = recordOf keys row := by
  constructor
  · intro h
    have h' := holds_recordOf keys row
    have hkeys : record.map Prod.fst = (recordOf keys row).map Prod.fst :=
      h.keys_eq.trans h'.keys_eq.symm
    refine eq_of_lookup hkeys ?_ fun key hmem ↦ ?_
    · rw [hkeys]
      exact nodup_map_fst_entries _
    · rw [h.keys_eq, List.mem_eraseDups, List.mem_map] at hmem
      obtain ⟨bytes, hbytes, hkey⟩ := hmem
      obtain ⟨i, hi, rfl⟩ := List.mem_take_iff_getElem.mp hbytes
      have hplace : (keys.map decodeLossy)[i]? = some key := by
        rw [List.getElem?_map, List.getElem?_eq_getElem (by omega), Option.map_some, hkey]
      obtain ⟨last, hlt, hplace, hlast⟩ :=
        Record.exists_last_key (n := min keys.length row.length) (by omega) hplace
      simp only [List.getElem?_map] at hplace hlast
      rw [h.lookup_eq key last hlt hplace hlast, h'.lookup_eq key last hlt hplace hlast]
  · rintro rfl
    exact holds_recordOf keys row

end Delimited.Table
