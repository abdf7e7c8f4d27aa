import Delimited.Proofs.PassItems
import Delimited.Reader

/-!
# How passes start

A pass that starts has its scanner before what the opened source gives, with the header row behind
it where keys were taken from one. A pass cannot start when the source fails at its first read, or,
where a header is to be read, before that row has ended for certain; then no keys are kept.
-/

namespace Delimited

/-- A freed buffer has no elements. -/
@[simp] theorem Buffer.toList_free {α : Type} (b : Buffer α) : b.free.toList = [] := by
  obtain ⟨_ | s, length, capacity⟩ := b
  · rfl
  · rfl

namespace Grammar

/-- A row has at most one field more than its text has bytes. -/
theorem length_row_le (d : Dialect) (text : List UInt8) :
    (row d text).length ≤ text.length + 1 := by
  fun_induction row d text with
  | case1 text hb =>
    rw [List.length_singleton]
    omega
  | case2 text hb ih =>
    have hlt := length_field_rest_lt d (ne_nil_of_boundary_field hb)
    rw [List.length_cons]
    omega

/-- No value in a row is longer than its text. -/
theorem length_le_of_mem_values {d : Dialect} {text value : List UInt8}
    (h : value ∈ values d text) : value.length ≤ text.length := by
  unfold values at h
  fun_induction row d text with
  | case1 text hb =>
    rw [List.map_singleton, List.mem_singleton] at h
    rw [h]
    exact length_value_le d text
  | case2 text hb ih =>
    rcases List.mem_cons.mp h with rfl | hrest
    · exact length_value_le d text
    · have hlt := length_field_rest_lt d (ne_nil_of_boundary_field hb)
      exact Nat.le_trans (ih hrest) (Nat.le_of_lt hlt)

/-- The fields that end before the text does are fields of the row. -/
theorem settledValues_subset (d : Dialect) (text : List UInt8) :
    settledValues d text ⊆ values d text :=
  List.map_subset _ (List.takeWhile_sublist _).subset

theorem length_settledValues_le (d : Dialect) (text : List UInt8) :
    (settledValues d text).length ≤ (row d text).length := by
  unfold settledValues
  rw [List.length_map]
  exact (List.takeWhile_sublist _).length_le

end Grammar

variable {π σ ε φ Field Row Keyed : Type} {alloc : Allocator} {d : Dialect} {text : List UInt8}
  {ending : Ending ε}

/-- Keys are added in their order. -/
theorem takeAll_addKey {most : Nat} (hg : alloc.GrantsFor most) (hmost : most < memoryLimit)
    {keys : Buffer (List UInt8)} (hk : keys.isSound = true) (values : List (List UInt8))
    (hfits : keys.toList.length + values.length ≤ most + 1)
    (hvalues : ∀ value ∈ values, value.length ≤ most) :
    ∃ keys', Scanner.takeAll (addKey alloc) values keys = .ok () keys' ∧ keys'.isSound = true ∧
      keys'.toList = keys.toList ++ values := by
  induction values generalizing keys with
  | nil => exact ⟨keys, rfl, hk, (List.append_nil _).symm⟩
  | cons value values ih =>
    rw [List.length_cons] at hfits
    obtain ⟨hvalue, hvalues⟩ := List.forall_mem_cons.mp hvalues
    obtain ⟨storage, hs⟩ : ∃ s, Storage.reserve (α := UInt8) alloc {} value.length = .ok s := by
      apply Storage.reserve_of_grantsFor hg (by decide)
      rw [Array.size_empty]
      omega
    obtain ⟨next, hpush, hsound, hlist⟩ :=
      Buffer.push_of_grantsFor hg (by decide) hk (by omega) (by omega) value
    have hadd : addKey alloc value keys = .ok () next := by
      unfold addKey
      rw [hs]
      exact hpush
    have hfits' : next.toList.length + values.length ≤ most + 1 := by
      rw [hlist, List.length_append, List.length_singleton]
      omega
    obtain ⟨keys', hall, hsound', hlist'⟩ := ih hsound hfits' hvalues
    refine ⟨keys', ?_, hsound', ?_⟩
    · unfold Scanner.takeAll
      rw [hadd]
      exact hall
    · rw [hlist', hlist, List.append_assoc]
      rfl

namespace Scanner

variable [Source σ ε] {s : Scanner σ} {keys : Buffer (List UInt8)}

/-- Without a row there are no keys to be taken, and nothing is noted. -/
theorem readHeader_of_done (alloc : Allocator) (keys : Buffer (List UInt8))
    (h : s.At d text .done) (hs : Grammar.recordStart d text = []) :
    ∃ t, readHeader alloc s keys = .ok () (t, keys) ∧ t.At d [] (.done : Ending ε) ∧
      t.journal = s.journal := by
  obtain ⟨u, t, hskip, hat, -, hjournal⟩ := (leaves_skipBlankLines h).ok (.inr rfl)
  unfold readHeader
  rw [hskip]
  dsimp only
  rw [if_pos (hat.isAtEnd_iff.mpr hs)]
  exact ⟨t, rfl, hs ▸ hat, hjournal⟩

/-- The keys are taken from the first row, if it is certain to end. The defects of the row and the
number of keys are noted. -/
theorem readHeader_of_row (hg : alloc.GrantsFor text.length) (h : s.At d text ending)
    (hfits : text.length < memoryLimit) (hk : keys.isSound = true) (hempty : keys.toList = [])
    (hs : Grammar.recordStart d text ≠ [])
    (hne : Grammar.behindRow d (Grammar.recordStart d text) ≠ [] ∨ ending = .done) :
    let start := Grammar.recordStart d text
    ∃ t keys', readHeader alloc s keys = .ok () (t, keys') ∧
      keys'.toList = Grammar.values d start ∧ t.At d (Grammar.behindRow d start) ending ∧
      t.journal.toList = s.journal.toList ++
        (Grammar.rowEvents d start ++ [.headerRead (Grammar.row d start).length]) := by
  obtain ⟨u, t, hskip, hat, -, hjournal⟩ := (leaves_skipBlankLines h).ok (.inl hs)
  have hstart := Grammar.length_recordStart_le d text
  have hrow := Grammar.length_row_le d (Grammar.recordStart d text)
  have hvalues : ∀ value ∈ Grammar.values d (Grammar.recordStart d text),
      value.length ≤ text.length := by
    intro value hvalue
    exact Nat.le_trans (Grammar.length_le_of_mem_values hvalue) hstart
  obtain ⟨keys', hall, hsound, hlist⟩ := takeAll_addKey hg hfits hk
    (Grammar.values d (Grammar.recordStart d text)) (by
      rw [hempty, List.length_nil, Grammar.values, List.length_map]
      omega) hvalues
  rw [hempty, List.nil_append] at hlist
  obtain ⟨v, hread, hat', hjournal'⟩ := readRow_eq_ok 0 (hg.mono hstart) hat (by omega) hne hall
  unfold readHeader
  rw [hskip]
  dsimp only
  rw [if_neg (fun hend ↦ hs (hat.isAtEnd_iff.mp hend)), hread]
  refine ⟨_, keys', rfl, hlist, hat'.of_eq rfl hat'.sound rfl rfl, ?_⟩
  have hcount : keys'.length = (Grammar.row d (Grammar.recordStart d text)).length := by
    rw [← Buffer.length_toList hsound, hlist, Grammar.values, List.length_map]
  show (v.journal.push _).toList = _
  rw [Array.toList_push, hjournal', hjournal, List.append_assoc, hcount]

/-- No keys can be taken where the source fails before the first row has ended for certain. -/
theorem readHeader_of_failure {cause : ε} (hg : alloc.GrantsFor text.length)
    (h : s.At d text (.failure cause)) (hfits : text.length < memoryLimit)
    (hk : keys.isSound = true) (hempty : keys.toList = [])
    (hnil : Grammar.behindRow d (Grammar.recordStart d text) = []) :
    ∃ t keys', readHeader alloc s keys = .error (.reading cause) (t, keys') := by
  have hl := leaves_skipBlankLines h
  unfold readHeader
  by_cases hs : Grammar.recordStart d text = []
  · rw [hs] at hl
    obtain ⟨t, hskip, -⟩ := hl.error
    rw [hskip]
    exact ⟨t, keys, rfl⟩
  · obtain ⟨u, t, hskip, hat, -⟩ := hl.ok (.inl hs)
    have hstart := Grammar.length_recordStart_le d text
    have hrow := Grammar.length_row_le d (Grammar.recordStart d text)
    have hsettled := Grammar.length_settledValues_le d (Grammar.recordStart d text)
    have hvalues : ∀ value ∈ Grammar.settledValues d (Grammar.recordStart d text),
        value.length ≤ text.length := by
      intro value hvalue
      exact Nat.le_trans (Grammar.length_le_of_mem_values (Grammar.settledValues_subset _ _ hvalue))
        hstart
    obtain ⟨keys', hall, -⟩ := takeAll_addKey hg hfits hk
      (Grammar.settledValues d (Grammar.recordStart d text)) (by
        rw [hempty, List.length_nil]
        omega) hvalues
    obtain ⟨v, hread, -⟩ := readRow_eq_error 0 (hg.mono hstart) hat (by omega) hnil hall
    rw [hskip]
    dsimp only
    rw [if_neg (fun hend ↦ hs (hat.isAtEnd_iff.mp hend)), hread]
    exact ⟨v, keys', rfl⟩

omit [Source σ ε] in
/-- What is announced is noted, and touches nothing else. -/
theorem foldl_note_eq (s : Scanner σ) (events : List Event) :
    events.foldl note s = { s with journal := s.journal ++ events.toArray } := by
  induction events generalizing s with
  | nil => rw [List.foldl_nil, Array.append_empty]
  | cons event events ih =>
    rw [List.foldl_cons, ih, note, List.push_append_toArray]

omit [Source σ ε] in
theorem toList_journal_foldl_note (s : Scanner σ) (events : List Event) :
    (events.foldl note s).journal.toList = s.journal.toList ++ events := by
  rw [foldl_note_eq, Array.toList_append]

omit [Source σ ε] in
theorem Fit.foldl_note (h : s.Fit d) (events : List Event) : (events.foldl note s).Fit d := by
  rw [foldl_note_eq]
  exact ⟨h.dialect, h.sound⟩

omit [Source σ ε] in
/-- A scanner can be had in any dialect, and is fit for a pass. -/
theorem create_of_grantsFor {length : Nat} (hg : alloc.GrantsFor length) (d : Dialect) :
    ∃ s : Scanner σ, create alloc d = .ok s ∧ s.Fit d := by
  obtain ⟨field, hf⟩ : ∃ field : Buffer UInt8, Buffer.create alloc 1 = .ok field :=
    Buffer.create_of_grantsFor hg (by decide) (by omega)
  unfold create
  rw [hf]
  exact ⟨_, rfl, rfl, (Buffer.create_eq_ok hf).1⟩

end Scanner

namespace Reader

/-- A reader with a usable dialect can be had, and is fit for a pass. -/
theorem create_of_validate {length : Nat} (hg : alloc.GrantsFor length)
    (hd : d.validate = .ok ()) (origin : π) :
    ∃ r : Reader π σ, create (ε := ε) alloc origin d = .ok r ∧ r.origin = origin ∧
      r.scanner.Fit d := by
  obtain ⟨scanner, hs, hfit⟩ := Scanner.create_of_grantsFor (σ := σ) hg d
  unfold create
  rw [hd]
  dsimp only
  rw [hs]
  exact ⟨_, rfl, rfl, hfit⟩

/-- A buffer for the keys can be had. -/
theorem exists_keyBuffer {length : Nat} (hg : alloc.GrantsFor length) :
    ∃ buffer : Buffer (List UInt8), Buffer.create alloc 2 = .ok buffer :=
  Buffer.create_of_grantsFor hg (by decide) (by omega)

variable [Source σ ε] [Origin π σ ε] {r : Reader π σ} {source : σ} {origin : π}

/-- The journal once the source is opened again: the opening is noted behind what is announced. -/
def reopenedJournal (r : Reader π σ) : List Event :=
  r.scanner.journal.toList ++ (Origin.announcement r.origin ++ [.sourceRewound])

/-- Opening the source again puts the scanner before what it gives. The keys are given up in any
case. -/
theorem reopen_of_gives (hfit : r.scanner.Fit d)
    (ho : Origin.openSource r.origin = (.ok source, origin))
    (hs : Source.Gives source text ending) (hne : text ≠ [] ∨ ending = .done) :
    ∃ r' : Reader π σ, reopen r = .ok () r' ∧ r'.scanner.At d text ending ∧ r'.keys = [] ∧
      r'.scanner.journal.toList = r.reopenedJournal := by
  have hfit' := hfit.foldl_note (Origin.announcement r.origin)
  have hnoted : Scanner.Fit (((Origin.announcement r.origin).foldl Scanner.note r.scanner).note
      .sourceRewound) d := ⟨hfit'.dialect, hfit'.sound⟩
  obtain ⟨u, t, hattach, hat, hjournal⟩ := (Scanner.leaves_attach hnoted hs).ok hne
  unfold reopen
  rw [ho]
  dsimp only
  rw [hattach]
  refine ⟨_, rfl, hat, Buffer.toList_free _, ?_⟩
  show t.journal.toList = _
  rw [hjournal, Scanner.note, Array.toList_push, Scanner.toList_journal_foldl_note,
    List.append_assoc, reopenedJournal]

/-- A source that fails at its first read cannot be read again from the beginning. -/
theorem reopen_of_failure {cause : ε} (hfit : r.scanner.Fit d)
    (ho : Origin.openSource r.origin = (.ok source, origin))
    (hs : Source.Gives source [] (.failure cause)) :
    ∃ r' : Reader π σ, reopen r = .error (.reading cause) r' ∧ r'.keys = [] := by
  have hfit' := hfit.foldl_note (Origin.announcement r.origin)
  have hnoted : Scanner.Fit (((Origin.announcement r.origin).foldl Scanner.note r.scanner).note
      .sourceRewound) d := ⟨hfit'.dialect, hfit'.sound⟩
  obtain ⟨t, hattach, -⟩ := (Scanner.leaves_attach hnoted hs).error
  unfold reopen
  rw [ho]
  dsimp only
  rw [hattach]
  exact ⟨_, rfl, Buffer.toList_free _⟩

variable (assembler : Assembler φ Field Row Keyed) (state : φ)

section Reopening

variable {t : Reader π σ} {e : ReadError ε}

/-- No pass starts where the source cannot be read from its beginning. -/
theorem start_of_reopen_error (alloc : Allocator) (h : r.reopen = .error e t) :
    r.startRows assembler state = .error e t ∧
      (∀ keys, r.startRecordsUnder assembler state keys = .error e t) ∧
      r.startRecords alloc assembler state = .error e t := by
  refine ⟨?_, fun keys ↦ ?_, ?_⟩
  · rw [startRows, h]
  · rw [startRecordsUnder, h]
  · rw [startRecords, h]

theorem startRows_of_reopen (h : r.reopen = .ok () t) :
    r.startRows assembler state = .ok (t.pass assembler.rows state) t := by
  rw [startRows, h]

theorem startRecordsUnder_of_reopen (keys : List (List UInt8)) (h : r.reopen = .ok () t) :
    r.startRecordsUnder assembler state keys =
      .ok (⟨keys, false⟩, t.pass (assembler.records keys) state) t := by
  rw [startRecordsUnder, h]

/-- A pass over rows that has started begins where the source was read from its beginning. -/
theorem reopen_of_startRows {p : Pass σ φ Row Row} (h : r.startRows assembler state = .ok p t) :
    r.reopen = .ok () t ∧ p = t.pass assembler.rows state := by
  unfold startRows at h
  split at h
  · cases h
  · next hr =>
    cases h
    exact ⟨hr, rfl⟩

theorem reopen_of_startRows_error (h : r.startRows assembler state = .error e t) :
    r.reopen = .error e t := by
  unfold startRows at h
  split at h
  · next hr =>
    cases h
    exact hr
  · cases h

end Reopening

/-- A pass over rows starts before the whole text. -/
theorem startRows_of_gives (hfit : r.scanner.Fit d)
    (ho : Origin.openSource r.origin = (.ok source, origin))
    (hs : Source.Gives source text ending) (hne : text ≠ [] ∨ ending = .done)
    (hfits : text.length < memoryLimit) :
    ∃ p r', r.startRows assembler state = .ok p r' ∧ p.builder = assembler.rows ∧
      p.state = state ∧ p.At d text ending ∧
      p.scanner.journal.toList = r.reopenedJournal := by
  obtain ⟨r', hr, hat, -, hjournal⟩ := reopen_of_gives hfit ho hs hne
  unfold startRows
  rw [hr]
  exact ⟨_, r', rfl, rfl, rfl, ⟨rfl, hat, hfits⟩, hjournal⟩

/-- A pass under keys starts before the whole text, and the reader keeps no keys. -/
theorem startRecordsUnder_of_gives (keys : List (List UInt8)) (hfit : r.scanner.Fit d)
    (ho : Origin.openSource r.origin = (.ok source, origin))
    (hs : Source.Gives source text ending) (hne : text ≠ [] ∨ ending = .done)
    (hfits : text.length < memoryLimit) :
    ∃ p r', r.startRecordsUnder assembler state keys = .ok (⟨keys, false⟩, p) r' ∧ r'.keys = [] ∧
      p.builder = assembler.records keys ∧ p.state = state ∧ p.At d text ending := by
  obtain ⟨r', hr, hat, hkeys, -⟩ := reopen_of_gives hfit ho hs hne
  unfold startRecordsUnder
  rw [hr]
  exact ⟨_, r', rfl, hkeys, rfl, rfl, rfl, hat, hfits⟩

/-- A pass under the fields of the first row starts behind that row. -/
theorem startRecords_of_row (hg : alloc.GrantsFor text.length) (hfit : r.scanner.Fit d)
    (ho : Origin.openSource r.origin = (.ok source, origin))
    (hs : Source.Gives source text ending) (hfits : text.length < memoryLimit)
    (hrow : Grammar.recordStart d text ≠ [])
    (hne : Grammar.behindRow d (Grammar.recordStart d text) ≠ [] ∨ ending = .done) :
    let start := Grammar.recordStart d text
    let keys := Grammar.values d start
    ∃ p r', r.startRecords alloc assembler state = .ok (⟨keys, true⟩, p) r' ∧ r'.keys = keys ∧
      p.builder = assembler.records keys ∧ p.state = state ∧
      p.At d (Grammar.behindRow d start) ending ∧
      p.scanner.journal.toList = r.reopenedJournal ++
        (Grammar.rowEvents d start ++ [.headerRead (Grammar.row d start).length]) := by
  have htext : text ≠ [] := by
    rintro rfl
    exact hrow (Grammar.recordStart_nil d)
  obtain ⟨r', hr, hat, -, hjournal⟩ := reopen_of_gives hfit ho hs (.inl htext)
  obtain ⟨buffer, hb⟩ := exists_keyBuffer hg
  obtain ⟨hsound, hempty, -⟩ := Buffer.create_eq_ok hb
  obtain ⟨t, keys, hheader, hkeys, hat', hjournal'⟩ :=
    Scanner.readHeader_of_row hg hat hfits hsound hempty hrow hne
  have hstart := Grammar.length_recordStart_le d text
  have hbehind := Grammar.length_behindRow_le d (Grammar.recordStart d text)
  dsimp only
  unfold startRecords
  rw [hr]
  dsimp only
  rw [hb]
  dsimp only
  rw [hheader, ← hkeys, ← hjournal]
  exact ⟨_, _, rfl, rfl, rfl, rfl, ⟨rfl, hat', by omega⟩, hjournal'⟩

/-- A pass under the fields of the first row starts without keys, and with nothing before it, where
there is no row. -/
theorem startRecords_of_done (hg : alloc.GrantsFor text.length) (hfit : r.scanner.Fit d)
    (ho : Origin.openSource r.origin = (.ok source, origin))
    (hs : Source.Gives source text .done) (hrow : Grammar.recordStart d text = []) :
    ∃ p r', r.startRecords alloc assembler state = .ok (⟨[], true⟩, p) r' ∧ r'.keys = [] ∧
      p.At d [] .done ∧ p.scanner.journal.toList = r.reopenedJournal := by
  obtain ⟨r', hr, hat, -, hjournal⟩ := reopen_of_gives hfit ho hs (.inr rfl)
  obtain ⟨buffer, hb⟩ := exists_keyBuffer hg
  obtain ⟨hsound, hempty, -⟩ := Buffer.create_eq_ok hb
  obtain ⟨t, hheader, hat', hjournal'⟩ := Scanner.readHeader_of_done alloc buffer hat hrow
  unfold startRecords
  rw [hr]
  dsimp only
  rw [hb]
  dsimp only
  rw [hheader]
  let r'' : Reader π σ := { r' with scanner := t, keyBuffer := buffer }
  have hkeys : r''.keys = [] := hempty
  refine ⟨r''.pass (assembler.records r''.keys) state, r'', ?_, hkeys, ⟨rfl, hat', by decide⟩, ?_⟩
  · show EStateM.Result.ok (RecordKeys.mk r''.keys true, _) _ = _
    rw [hkeys]
  · rw [← hjournal, ← hjournal']
    rfl

/-- A pass under the fields of the first row cannot start where the source fails before that row has
ended for certain, and no keys are kept. -/
theorem startRecords_of_failure {cause : ε} (hg : alloc.GrantsFor text.length)
    (hfit : r.scanner.Fit d)
    (ho : Origin.openSource r.origin = (.ok source, origin))
    (hs : Source.Gives source text (.failure cause)) (hfits : text.length < memoryLimit)
    (hnil : Grammar.behindRow d (Grammar.recordStart d text) = []) :
    ∃ r', r.startRecords alloc assembler state = .error (.reading cause) r' ∧ r'.keys = [] := by
  unfold startRecords
  by_cases htext : text = []
  · rw [htext] at hs
    obtain ⟨r', hr, hkeys⟩ := reopen_of_failure hfit ho hs
    rw [hr]
    exact ⟨r', rfl, hkeys⟩
  · obtain ⟨r', hr, hat, -⟩ := reopen_of_gives hfit ho hs (.inl htext)
    obtain ⟨buffer, hb⟩ := exists_keyBuffer hg
    obtain ⟨hsound, hempty, -⟩ := Buffer.create_eq_ok hb
    obtain ⟨t, keys, hheader⟩ := Scanner.readHeader_of_failure hg hat hfits hsound hempty hnil
    rw [hr]
    dsimp only
    rw [hb]
    dsimp only
    rw [hheader]
    exact ⟨_, rfl, Buffer.toList_free _⟩

end Reader
end Delimited
