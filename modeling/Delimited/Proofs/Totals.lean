import Delimited.Proofs.HeaderKeys
import Delimited.Proofs.Remaining
import Delimited.Proofs.Slots
import Delimited.Proofs.Splitting

/-!
# How much a pass can give

The bytes that a scan takes bound the field that it gives, and a field that is given with bytes in
view takes at least one. So the fields of a pass, those of its header and those of a row that is cut
off included, are no longer together than the source, and there is at most one more of them than
there are bytes.
-/

namespace Delimited

variable {σ ε β : Type} [Source σ ε] {alloc : Allocator}

namespace Scanner

variable {s t : Scanner σ} {boundary : Boundary}

theorem skipLineFeed_eq_ok (h : skipLineFeed s = .ok () t) :
    t.field = s.field ∧ t.remaining.length ≤ s.remaining.length := by
  unfold skipLineFeed at h
  split at h
  · next hl =>
    have hs : s.ahead ≠ none := by simp [hl]
    have hless := length_remaining_consume h hs
    exact ⟨((ends_consume hs).of_ok h).2, by omega⟩
  · cases h
    exact ⟨rfl, Nat.le_refl _⟩

/-- Closing a field leaves it as it is. -/
theorem closeField_eq_ok {delimiter : Delimiter} (h : closeField delimiter s = .ok boundary t)
    (hs : s.ahead ≠ none) : t.field = s.field ∧ t.remaining.length ≤ s.remaining.length := by
  unfold closeField at h
  split at h
  · cases h
  · next u hu =>
    have hless := length_remaining_consume hu hs
    obtain ⟨-, hfield⟩ := (ends_consume hs).of_ok hu
    cases delimiter with
    | separator =>
      cases h
      exact ⟨hfield, by omega⟩
    | lineFeed =>
      cases h
      exact ⟨hfield, by omega⟩
    | carriageReturn =>
      dsimp only at h
      split at h
      · cases h
      · next hv =>
        cases h
        obtain ⟨hfield', hle⟩ := skipLineFeed_eq_ok hv
        exact ⟨hfield'.trans hfield, by omega⟩

/-- Every byte that a scan adds to its field is one that remains no longer. -/
theorem length_field_of_readFrom {phase : Phase} (h : readFrom alloc phase s = .ok boundary t) :
    t.field.length + t.remaining.length ≤ s.field.length + s.remaining.length := by
  fun_induction readFrom alloc phase s with
  | case1 phase s hl =>
    cases h
    rw [field_finish, remaining_finish]
  | case2 => cases h
  | case3 phase s b hl next hs field hp u hu ih =>
    have hrest := ih h
    have hs : s.ahead ≠ none := by simp [hl]
    have hless : u.remaining.length + 1 = s.remaining.length :=
      length_remaining_consume (s := { s with field }) hu hs
    obtain ⟨-, hfield⟩ := (ends_consume (s := { s with field }) hs).of_ok hu
    have hlength := Buffer.length_of_push hp
    rw [hfield] at hrest
    dsimp only at hrest
    omega
  | case4 => cases h
  | case5 phase s b hl next hs u hu ih =>
    have hrest := ih h
    have hs : (s.dropping phase b).ahead ≠ none := by simp [ahead_dropping, hl]
    have hless := length_remaining_consume hu hs
    obtain ⟨-, hfield⟩ := (ends_consume hs).of_ok hu
    rw [remaining_dropping] at hless
    rw [hfield, field_dropping] at hrest
    omega
  | case6 => cases h
  | case7 phase s b hl next hs ih => exact ih h
  | case8 phase s b hl next delimiter hs =>
    obtain ⟨hfield, hle⟩ := closeField_eq_ok h (by simp [hl])
    rw [hfield]
    omega
  | case9 phase s b hl next hs =>
    cases h
    rw [field_finish, remaining_finish]

/-- The field that a scan gives is no longer than what it takes. -/
theorem length_field_le (h : readField alloc s = .ok boundary t) :
    t.field.toList.length + t.remaining.length ≤ s.remaining.length := by
  have htotal := length_field_of_readFrom h
  have hlist := Buffer.length_toList_le t.field
  have hclear : s.field.clear.length = 0 := rfl
  have hsame : Scanner.remaining { s with field := s.field.clear } = s.remaining := rfl
  rw [hsame] at htotal
  dsimp only at htotal
  omega

end Scanner

/-- The fields fit in between so many bytes that were found and those that are left. Each of them
takes a byte at least, only the last one may take none, and nothing is left then. -/
structure Within (found left : Nat) (fields : List (List UInt8)) : Prop where
  bytes : fields.flatten.length + left ≤ found
  count : fields.length + left ≤ found ∨ fields.length ≤ found + 1 ∧ left = 0

namespace Within

variable {found between left : Nat} {fields others : List (List UInt8)}

theorem nil (h : left ≤ found) : Within found left [] := by
  constructor
  · simpa using h
  · left
    simpa using h

theorem singleton {value : List UInt8} (hbytes : value.length + left ≤ found)
    (hcount : left + 1 ≤ found ∨ found = 0) : Within found left [value] := by
  constructor
  · simpa using hbytes
  · simp only [List.length_singleton]
    omega

/-- Behind a last field that takes no byte there is none. -/
theorem append (h : Within found between fields) (h' : Within between left others)
    (hlast : fields.length + between ≤ found ∨ others = []) :
    Within found left (fields ++ others) := by
  have hbytes := h.bytes
  have hbytes' := h'.bytes
  have hcount := h.count
  have hcount' := h'.count
  constructor
  · rw [List.flatten_append, List.length_append]
    omega
  · rw [List.length_append]
    obtain hlast | rfl := hlast
    · omega
    · rw [List.length_nil, Nat.add_zero]
      omega

theorem mono (h : Within between left fields) (hle : between ≤ found) :
    Within found left fields := by
  have hbytes := h.bytes
  have hcount := h.count
  constructor
  · omega
  · omega

theorem length_le (h : Within found left fields) : fields.length ≤ found + 1 := by
  have hcount := h.count
  omega

theorem length_flatten_le (h : Within found left fields) : fields.flatten.length ≤ found :=
  Nat.le_trans (Nat.le_add_right _ _) h.bytes

end Within

namespace Scanner

/-- The fields that a row hands over, which may be cut off. -/
def rowFields (alloc : Allocator) (s : Scanner σ) : List (List UInt8) :=
  match s.readRow alloc addField 0 [] with
  | .ok _ (_, row) => row
  | .error _ (_, row) => row

variable {s t : Scanner σ}

/-- Whether it is read to its end or cut off, a row hands over no more than the scanner takes. -/
theorem within_readRow (alloc : Allocator) (count : Nat) (s : Scanner σ)
    (row : List (List UInt8)) :
    Always (fun out : Scanner σ × List (List UInt8) ↦
        ∃ values, out.2 = row ++ values ∧ Within s.remaining.length out.1.remaining.length values)
      (s.readRow alloc addField count row) := by
  fun_induction readRow alloc addField count s row with
  | case1 count s row e t hf =>
    obtain ⟨hsuffix, -⟩ :=
      ((preserved_remaining s.remaining).readField (List.suffix_refl _)).of_error hf
    exact ⟨[], (List.append_nil _).symm, .nil hsuffix.length_le⟩
  | case2 count s row t hf e lost ht => cases ht
  | case3 count s row t hf next ht =>
    cases ht
    refine ⟨[t.field.toList], rfl, .singleton (length_field_le hf) ?_⟩
    by_cases hs : s.ahead = none
    · right
      rw [remaining_eq_nil_iff.mpr hs]
      rfl
    · left
      exact length_remaining_readField hf hs
  | case4 count s row t hf e lost ht => cases ht
  | case5 count s row t hf next ht ih =>
    cases ht
    have hs : s.ahead ≠ none := by
      intro hs
      rw [readField_of_ahead_eq_none alloc hs] at hf
      cases hf
    have hless := length_remaining_readField hf hs
    have hfield : Within s.remaining.length t.remaining.length [t.field.toList] :=
      .singleton (length_field_le hf) (.inl hless)
    apply ih.imp
    rintro out ⟨values, hout, hothers⟩
    refine ⟨t.field.toList :: values, ?_, hfield.append hothers (.inl ?_)⟩
    · rw [hout, List.append_assoc]
      rfl
    · rw [List.length_singleton]
      omega

theorem within_readRow_nil (alloc : Allocator) (s : Scanner σ) :
    Always (fun out : Scanner σ × List (List UInt8) ↦
        Within s.remaining.length out.1.remaining.length out.2)
      (s.readRow alloc addField 0 []) := by
  apply (within_readRow alloc 0 s []).imp
  rintro out ⟨values, hout, hwithin⟩
  rw [hout]
  exact hwithin

/-- The fields that a row hands over are within what it takes. -/
theorem within_rowFields (alloc : Allocator) (s : Scanner σ) :
    ∃ left, Within s.remaining.length left (s.rowFields alloc) := by
  have hrow := within_readRow_nil alloc s
  unfold rowFields
  cases hr : s.readRow alloc addField 0 [] with
  | ok count out => exact ⟨_, hrow.of_ok hr⟩
  | error e out => exact ⟨_, hrow.of_error hr⟩

/-- A row that is read consumes the byte in view, if there is one. -/
theorem remaining_of_readRow {take : List UInt8 → β → EStateM.Result GrowthError β Unit}
    {fields count : Nat} {taken taken' : β}
    (h : s.readRow alloc take fields taken = .ok count (t, taken')) :
    t.remaining <:+ s.remaining.tail := by
  fun_induction readRow alloc take fields s taken with
  | case1 => cases h
  | case2 => cases h
  | case3 fields s taken u hf next ht =>
    cases h
    exact remaining_of_readField hf
  | case4 => cases h
  | case5 fields s taken u hf next ht ih =>
    exact (ih h).trans ((List.tail_suffix _).trans (remaining_of_readField hf))

/-- Wherever they go, the fields of a row that is read are handed over in full. -/
theorem takeAll_rowFields {take : List UInt8 → β → EStateM.Result GrowthError β Unit}
    {count : Nat} {taken taken' : β}
    (h : s.readRow alloc take 0 taken = .ok count (t, taken')) :
    takeAll take (s.rowFields alloc) taken = .ok () taken' ∧
      Within s.remaining.length t.remaining.length (s.rowFields alloc) := by
  obtain ⟨values, hall, hothers⟩ := exists_values_of_readRow h
  have hrow := hothers (takeAll_addField values [])
  rw [List.nil_append] at hrow
  have hfields : s.rowFields alloc = values := by
    unfold rowFields
    rw [hrow]
  rw [hfields]
  exact ⟨hall, (within_readRow_nil alloc s).of_ok hrow⟩

end Scanner

namespace Pass

variable {φ ρ γ : Type} {p q : Pass σ φ ρ γ}

/-- The fields that the next request hands over. -/
def scanned (alloc : Allocator) (p : Pass σ φ ρ γ) : List (List UInt8) :=
  if p.finished then []
  else
    match Scanner.skipBlankLines p.scanner with
    | .error _ _ => []
    | .ok () s => if s.isAtEnd then [] else s.rowFields alloc

/-- The fields that all the requests to come hand over. -/
def fields (alloc : Allocator) (p : Pass σ φ ρ γ) : List (List UInt8) :=
  match _h : p.next alloc with
  | (none, _) => []
  | (some _, q) => p.scanned alloc ++ fields alloc q
termination_by p.left
decreasing_by exact left_lt_of_next _h

theorem fields_of_none (h : p.next alloc = (none, q)) : p.fields alloc = [] := by
  rw [fields]
  split
  · rfl
  · next h' =>
    rw [h] at h'
    cases h'

theorem fields_of_finished (h : p.finished = true) : p.fields alloc = [] :=
  fields_of_none (next_of_finished h)

/-- A pass at the end of the stream has no more fields. -/
theorem fields_of_ahead_eq_none (h : p.scanner.ahead = none) : p.fields alloc = [] := by
  cases hp : p.finished with
  | true => exact fields_of_finished hp
  | false =>
    have hskip := Scanner.skipBlankLines_of_ahead_eq_none h
    have hend : p.scanner.isAtEnd = true := by simp [Scanner.isAtEnd, h]
    exact fields_of_none (next_of_exhausted hp hskip hend)

theorem scanned_of_skipBlankLines (alloc : Allocator) {s : Scanner σ} (hp : p.finished = false)
    (hskip : Scanner.skipBlankLines p.scanner = .ok () s) (hend : s.isAtEnd = false) :
    p.scanned alloc = s.rowFields alloc := by
  unfold scanned
  simp [hp, hskip, hend]

/-- A row that is read is made of the fields that are handed over. They are within what the pass
takes, and that is a byte at least. -/
structure Reads (alloc : Allocator) (p : Pass σ φ ρ γ) (value : γ) (q : Pass σ φ ρ γ) : Prop where
  built : p.builder.build (p.scanned alloc) p.state = (value, q.state)
  builder : q.builder = p.builder
  suffix : q.scanner.remaining <:+ p.scanner.remaining
  less : q.scanner.remaining.length < p.scanner.remaining.length
  within : Within p.scanner.remaining.length q.scanner.remaining.length (p.scanned alloc)

theorem reads_of_next {value : γ} (h : p.next alloc = (some (.ok value), q)) :
    p.Reads alloc value q := by
  have hrequested := requested_next alloc p
  rw [h] at hrequested
  cases hrequested with
  | @row s t count row hp hskip hend hrow =>
    have hfields := scanned_of_skipBlankLines alloc hp hskip hend
    obtain ⟨hall, hwithin⟩ := Scanner.takeAll_rowFields hrow
    rw [takeAll_placing] at hall
    cases hall
    have hseek := Scanner.remaining_of_skipBlankLines hskip
    have hmoved := Scanner.remaining_of_readRow hrow
    have hpos := Scanner.length_remaining_pos (Scanner.ahead_ne_none_of_isAtEnd hend)
    have hshort := hmoved.length_le
    rw [List.length_tail] at hshort
    have hle := hseek.length_le
    constructor
    · rw [hfields]
      rfl
    · rfl
    · exact hmoved.trans ((List.tail_suffix _).trans hseek)
    · show t.remaining.length < p.scanner.remaining.length
      omega
    · rw [hfields]
      exact hwithin.mono hle

theorem finished_of_next_error {e : ReadError ε} (h : p.next alloc = (some (.error e), q)) :
    q.finished = true := by
  have hrequested := requested_next alloc p
  rw [h] at hrequested
  cases hrequested with
  | seeking => rfl
  | scanning => rfl

/-- Fields that leave to a pass what remains, and those that the pass hands over behind them, are
together within what was found. -/
theorem within_append_fields {found left : Nat} {fields : List (List UInt8)}
    (h : Within found p.scanner.remaining.length fields)
    (hp : Within p.scanner.remaining.length left (p.fields alloc)) :
    Within found left (fields ++ p.fields alloc) := by
  apply h.append hp
  obtain hcount | ⟨-, hleft⟩ := h.count
  · exact .inl hcount
  · -- The last of the fields may have taken no byte, but nothing remains then.
    right
    apply fields_of_ahead_eq_none
    exact Scanner.remaining_eq_nil_iff.mp (List.length_eq_zero_iff.mp hleft)

/-- Whatever the next request comes to, the fields that it hands over are within what remains. -/
theorem within_scanned (alloc : Allocator) (p : Pass σ φ ρ γ) :
    ∃ left, Within p.scanner.remaining.length left (p.scanned alloc) := by
  unfold scanned
  split
  · exact ⟨_, .nil (Nat.le_refl _)⟩
  · split
    · exact ⟨_, .nil (Nat.le_refl _)⟩
    · next s hskip =>
      split
      · exact ⟨_, .nil (Nat.le_refl _)⟩
      · have hseek := Scanner.remaining_of_skipBlankLines hskip
        obtain ⟨left, hwithin⟩ := Scanner.within_rowFields alloc s
        exact ⟨left, hwithin.mono hseek.length_le⟩

/-- The fields of a whole pass are within what remains. -/
theorem within_fields (alloc : Allocator) (p : Pass σ φ ρ γ) :
    ∃ left, Within p.scanner.remaining.length left (p.fields alloc) := by
  fun_induction fields alloc p with
  | case1 p q h => exact ⟨_, .nil (Nat.le_refl _)⟩
  | case2 p item q h ih =>
    cases item with
    | error e =>
      rw [fields_of_finished (finished_of_next_error h), List.append_nil]
      exact within_scanned alloc p
    | ok value =>
      have hreads := reads_of_next h
      obtain ⟨left, hothers⟩ := ih
      exact ⟨left, within_append_fields hreads.within hothers⟩

/-- The values of the rows that are read. -/
def delivered (alloc : Allocator) (p : Pass σ φ ρ γ) : List γ :=
  (p.items alloc).1.filterMap Except.toOption

/-- Every row takes a byte at least, and behind an error there are no more items. -/
theorem length_items_le (alloc : Allocator) (p : Pass σ φ ρ γ) :
    (p.items alloc).1.length ≤ p.scanner.remaining.length + 1 ∧
      (p.delivered alloc).length ≤ p.scanner.remaining.length := by
  unfold delivered
  fun_induction items alloc p with
  | case1 p q h => simp
  | case2 p item q h others ih =>
    cases item with
    | error e =>
      have hothers : others = ([], q) := items_of_none (next_of_finished (finished_of_next_error h))
      rw [hothers]
      exact ⟨Nat.le_add_left _ _, Nat.zero_le _⟩
    | ok value =>
      have hless := (reads_of_next h).less
      obtain ⟨hitems, hrows⟩ := ih
      constructor
      · show (q.items alloc).1.length + 1 ≤ _
        omega
      · show ((q.items alloc).1.filterMap Except.toOption).length + 1 ≤ _
        omega

/-- Rows that are delivered with all their fields hold the fields that are handed over. Those of a
row that is cut off come last. -/
theorem flatten_delivered {p : Pass σ Unit (List (List UInt8)) (List (List UInt8))}
    (hp : p.builder = Assembler.standard.rows) :
    (p.delivered alloc).flatten <+: p.fields alloc := by
  fun_induction fields alloc p with
  | case1 p q h =>
    rw [delivered, items_of_none h]
    exact List.prefix_refl _
  | case2 p item q h ih =>
    rw [delivered, items_of_some h]
    cases item with
    | error e =>
      rw [items_of_none (next_of_finished (finished_of_next_error h))]
      exact List.nil_prefix
    | ok value =>
      have hreads := reads_of_next h
      have hbuilt := hreads.built
      rw [hp, Assembler.build_standard_rows] at hbuilt
      obtain ⟨hvalue, -⟩ := Prod.mk.inj hbuilt
      rw [hvalue]
      exact (List.prefix_append_right_inj value).mpr (ih (hreads.builder.trans hp))

end Pass
end Delimited
