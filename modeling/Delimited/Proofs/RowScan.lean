import Delimited.Proofs.FieldScan
import Delimited.Scan.Row

/-!
# A row is read as the grammar divides it

Reading a row hands over the values of the row in front, one by one, and leaves the text behind it.
Where the source fails before the row has ended for certain, the fields handed over are those behind
which a byte was still read.
-/

namespace Delimited

namespace Grammar

/-- The values of those fields in the row in front that do not reach to the end of the text. -/
def settledValues (d : Dialect) (text : List UInt8) : List (List UInt8) :=
  ((row d text).takeWhile fun f ↦ !f.rest.isEmpty).map Field.value

/-- What is to be noted of the fields of a row. -/
def rowEvents (d : Dialect) (text : List UInt8) : List Event :=
  (row d text).flatMap Field.events

end Grammar

namespace Scanner

variable {σ ε β : Type} [Source σ ε]
variable {alloc : Allocator} {take : List UInt8 → β → EStateM.Result GrowthError β Unit}
  {fields : Nat} {s t : Scanner σ} {taken taken' : β}

/-- Hands values over, one after the other. -/
def takeAll (take : List UInt8 → β → EStateM.Result GrowthError β Unit) :
    List (List UInt8) → β → EStateM.Result GrowthError β Unit
  | [], taken => .ok () taken
  | value :: values, taken =>
    match take value taken with
    | .ok () taken => takeAll take values taken
    | .error e taken => .error e taken

theorem takeAll_cons {value : List UInt8} {values : List (List UInt8)}
    (h : takeAll take (value :: values) taken = .ok () taken') :
    ∃ next, take value taken = .ok () next ∧ takeAll take values next = .ok () taken' := by
  rw [takeAll] at h
  cases hv : take value taken with
  | ok u next =>
    rw [hv] at h
    exact ⟨next, rfl, h⟩
  | error e next =>
    rw [hv] at h
    cases h

theorem readRow_of_record {next : β} (hf : readField alloc s = .ok .record t)
    (hv : take t.field.toList taken = .ok () next) :
    readRow alloc take fields s taken = .ok (fields + 1) (t, next) := by
  rw [readRow]
  split
  · next h => rw [hf] at h; cases h
  · next h =>
    rw [hf] at h
    cases h
    rw [hv]
  · next h => rw [hf] at h; cases h

theorem readRow_of_field {next : β} (hf : readField alloc s = .ok .field t)
    (hv : take t.field.toList taken = .ok () next) :
    readRow alloc take fields s taken = readRow alloc take (fields + 1) t next := by
  rw [readRow]
  split
  · next h => rw [hf] at h; cases h
  · next h => rw [hf] at h; cases h
  · next h =>
    rw [hf] at h
    cases h
    rw [hv]

theorem readRow_of_error {e : ReadError ε} (hf : readField alloc s = .error e t) :
    readRow alloc take fields s taken = .error e (t, taken) := by
  rw [readRow]
  split
  · next h => rw [hf] at h; cases h; rfl
  · next h => rw [hf] at h; cases h
  · next h => rw [hf] at h; cases h

theorem readRow_of_refusal {boundary : Boundary} {e : GrowthError} {lost : β}
    (hf : readField alloc s = .ok boundary t) (hv : take t.field.toList taken = .error e lost) :
    readRow alloc take fields s taken = .error (.buffer e) (t, lost) := by
  rw [readRow]
  split
  · next h => rw [hf] at h; cases h
  · next h => rw [hf] at h; cases h; rw [hv]
  · next h => rw [hf] at h; cases h; rw [hv]

/-- The fields of a row that is read do not depend on what they are handed to. -/
theorem exists_values_of_readRow {count : Nat}
    (hr : readRow alloc take fields s taken = .ok count (t, taken')) :
    ∃ values, takeAll take values taken = .ok () taken' ∧
      ∀ {β' : Type} {take' : List UInt8 → β' → EStateM.Result GrowthError β' Unit}
        {begun filled : β'}, takeAll take' values begun = .ok () filled →
        readRow alloc take' fields s begun = .ok count (t, filled) := by
  fun_induction readRow alloc take fields s taken with
  | case1 => cases hr
  | case2 => cases hr
  | case3 fields s taken u hf next ht =>
    cases hr
    refine ⟨[t.field.toList], by simp only [takeAll, ht], ?_⟩
    intro β' take' begun filled hall
    obtain ⟨next', ht', hrest⟩ := takeAll_cons hall
    cases hrest
    exact readRow_of_record hf ht'
  | case4 => cases hr
  | case5 fields s taken u hf next ht ih =>
    obtain ⟨values, hall, hothers⟩ := ih hr
    refine ⟨u.field.toList :: values, by simp only [takeAll, ht, hall], ?_⟩
    intro β' take' begun filled hall'
    obtain ⟨next', ht', hrest⟩ := takeAll_cons hall'
    rw [readRow_of_field hf ht']
    exact hothers hrest

/-- The fields are scanned one after the other, and none of them is the last of its record. -/
inductive FieldsRead (alloc : Allocator) : Scanner σ → List (List UInt8) → Scanner σ → Prop where
  | nil (s : Scanner σ) : FieldsRead alloc s [] s
  | cons {s t u : Scanner σ} {values : List (List UInt8)} (hf : readField alloc s = .ok .field t)
      (h : FieldsRead alloc t values u) : FieldsRead alloc s (t.field.toList :: values) u

/-- The row in front is cut off by an error right behind these fields. -/
def CutOff (alloc : Allocator) (s : Scanner σ) (values : List (List UInt8)) (e : ReadError ε) :
    Prop :=
  ∃ t u, FieldsRead alloc s values t ∧ readField alloc t = .error e u

/-- Where every field is accepted, a row fails because it is cut off, and the fields before have
been handed over. -/
theorem cutOff_of_readRow {e : ReadError ε}
    (htake : ∀ bytes taken, ∃ next, take bytes taken = .ok () next)
    (hr : readRow alloc take fields s taken = .error e (t, taken')) :
    ∃ values, CutOff alloc s values e ∧ takeAll take values taken = .ok () taken' := by
  fun_induction readRow alloc take fields s taken with
  | case1 fields s taken e u hf =>
    cases hr
    exact ⟨[], ⟨s, t, .nil s, hf⟩, rfl⟩
  | case2 fields s taken u hf e lost ht =>
    obtain ⟨next, hnext⟩ := htake u.field.toList taken
    rw [ht] at hnext
    cases hnext
  | case3 => cases hr
  | case4 fields s taken u hf e lost ht =>
    obtain ⟨next, hnext⟩ := htake u.field.toList taken
    rw [ht] at hnext
    cases hnext
  | case5 fields s taken u hf next ht ih =>
    obtain ⟨values, ⟨v, w, hread, herror⟩, hall⟩ := ih hr
    exact ⟨u.field.toList :: values, ⟨v, w, .cons hf hread, herror⟩, by
      simp only [takeAll, ht, hall]⟩

variable {d : Dialect} {text : List UInt8} {ending : Ending ε}

/-- A row that has been read was handed over in full, whether or not memory is always granted. -/
theorem of_readRow_eq_ok {count : Nat} (h : s.At d text ending)
    (hr : readRow alloc take fields s taken = .ok count (t, taken')) :
    takeAll take (Grammar.values d text) taken = .ok () taken' ∧
      t.At d (Grammar.behindRow d text) ending := by
  unfold Grammar.values
  fun_induction readRow alloc take fields s taken generalizing text with
  | case1 => cases hr
  | case2 => cases hr
  | case3 fields s taken u hf next ht =>
    cases hr
    obtain ⟨hat, hb, hv, -⟩ := of_readField_eq_ok h hf
    rw [Grammar.behindRow_of_record hb.symm, Grammar.row_of_record hb.symm]
    rw [hv] at ht
    refine ⟨?_, hat⟩
    simp only [List.map_cons, List.map_nil, takeAll, ht]
  | case4 => cases hr
  | case5 fields s taken u hf next ht ih =>
    obtain ⟨hat, hb, hv, -⟩ := of_readField_eq_ok h hf
    obtain ⟨hall, hbehind⟩ := ih hat hr
    rw [Grammar.behindRow_of_field hb.symm, Grammar.row_of_field hb.symm]
    rw [hv] at ht
    refine ⟨?_, hbehind⟩
    simp only [List.map_cons, takeAll, ht]
    exact hall

/-- A scan gives the field in front of a text that memory can hold. -/
theorem yields_readField_of_fits (hg : alloc.GrantsFor text.length) (h : s.At d text ending)
    (hfits : text.length ≤ memoryLimit) :
    Yields d (Grammar.field d text) ending s.journal.toList (readField alloc s) := by
  have hvalue := Grammar.length_value_le d text
  exact yields_readField (hg.mono hvalue) h (Nat.le_trans hvalue hfits)

/-- A row that ends before the source fails is read in full. -/
theorem readRow_eq_ok (fields : Nat) (hg : alloc.GrantsFor text.length) (h : s.At d text ending)
    (hfits : text.length ≤ memoryLimit)
    (hne : Grammar.behindRow d text ≠ [] ∨ ending = .done)
    (ht : takeAll take (Grammar.values d text) taken = .ok () taken') :
    ∃ t, readRow alloc take fields s taken =
        .ok (fields + (Grammar.row d text).length) (t, taken') ∧
      t.At d (Grammar.behindRow d text) ending ∧
      t.journal.toList = s.journal.toList ++ Grammar.rowEvents d text := by
  unfold Grammar.values at ht
  unfold Grammar.rowEvents
  fun_induction Grammar.behindRow d text generalizing fields s taken with
  | case1 text hb =>
    obtain ⟨boundary, t, hr, hat, rfl, hv, hj⟩ := (yields_readField_of_fits hg h hfits).ok hne
    rw [hb] at hr
    rw [Grammar.row_of_record hb] at ht ⊢
    obtain ⟨next, hnext, hrest⟩ := takeAll_cons ht
    cases hrest
    refine ⟨t, ?_, hat, ?_⟩
    · exact readRow_of_record hr (hv ▸ hnext)
    · simpa using hj
  | case2 text hb ih =>
    have hlt := Grammar.length_field_rest_lt d (Grammar.ne_nil_of_boundary_field hb)
    have hne' : (Grammar.field d text).rest ≠ [] ∨ ending = .done :=
      hne.imp_left fun hn hnil ↦ hn (by rw [hnil, Grammar.behindRow_nil])
    obtain ⟨boundary, t, hr, hat, rfl, hv, hj⟩ := (yields_readField_of_fits hg h hfits).ok hne'
    rw [hb] at hr
    rw [Grammar.row_of_field hb] at ht ⊢
    obtain ⟨next, hnext, hrest⟩ := takeAll_cons ht
    obtain ⟨u, hu, hat', hj'⟩ := ih (fields + 1) (hg.mono (by omega)) hat (by omega) hne hrest
    refine ⟨u, ?_, hat', ?_⟩
    · rw [readRow_of_field hr (hv ▸ hnext), hu, List.length_cons]
      congr 1
      omega
    · rw [hj', hj, List.flatMap_cons, List.append_assoc]

/-- A row that goes on to a failure of the source fails with it. -/
theorem readRow_eq_error (fields : Nat) {cause : ε} (hg : alloc.GrantsFor text.length)
    (h : s.At d text (.failure cause))
    (hfits : text.length ≤ memoryLimit) (hnil : Grammar.behindRow d text = [])
    (ht : takeAll take (Grammar.settledValues d text) taken = .ok () taken') :
    ∃ t, readRow alloc take fields s taken = .error (.reading cause) (t, taken') ∧ t.Fit d := by
  unfold Grammar.settledValues at ht
  fun_induction Grammar.behindRow d text generalizing fields s taken with
  | case1 text hb =>
    have hl := yields_readField_of_fits hg h hfits
    unfold Yields at hl
    rw [hnil] at hl
    obtain ⟨t, hr, hfit⟩ := hl.error
    rw [Grammar.row_of_record hb] at ht
    simp only [List.takeWhile_cons, hnil, List.isEmpty_nil, Bool.not_true, Bool.false_eq_true,
      if_false, List.map_nil] at ht
    cases ht
    exact ⟨t, readRow_of_error hr, hfit⟩
  | case2 text hb ih =>
    have hlt := Grammar.length_field_rest_lt d (Grammar.ne_nil_of_boundary_field hb)
    have hl := yields_readField_of_fits hg h hfits
    unfold Yields at hl
    rw [Grammar.row_of_field hb] at ht
    cases hrest : (Grammar.field d text).rest with
    | nil =>
      rw [hrest] at hl
      obtain ⟨t, hr, hfit⟩ := hl.error
      simp only [List.takeWhile_cons, hrest, List.isEmpty_nil, Bool.not_true, Bool.false_eq_true,
        if_false, List.map_nil] at ht
      cases ht
      exact ⟨t, readRow_of_error hr, hfit⟩
    | cons b behind =>
      have hne : (Grammar.field d text).rest ≠ [] := by
        rw [hrest]
        exact List.cons_ne_nil _ _
      obtain ⟨boundary, t, hr, hat, rfl, hv, -⟩ := hl.ok (.inl hne)
      rw [hb] at hr
      rw [List.takeWhile_cons_of_pos (by simp [hrest])] at ht
      obtain ⟨next, hnext, hothers⟩ := takeAll_cons ht
      obtain ⟨u, hu, hfit⟩ := ih (fields + 1) (hg.mono (by omega)) hat (by omega) hnil hothers
      refine ⟨u, ?_, hfit⟩
      rw [readRow_of_field hr (hv ▸ hnext), hu]

end Scanner
end Delimited
