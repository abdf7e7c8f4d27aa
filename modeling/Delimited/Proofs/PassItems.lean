import Delimited.Pass
import Delimited.Proofs.RowScan

/-!
# The items of a pass

A pass gives one item for each row, and keeps silent after that. Where the source fails, the rows
before the failure are those behind which a byte was still read; one error follows, and silence.
-/

namespace Delimited

namespace Grammar

variable {ε : Type}

/-- For each row that is certain to end before the stream stops, the text from that row on. A stream
that is done ends its last row; one that fails leaves it open. -/
def settledStarts (d : Dialect) (text : List UInt8) : Ending ε → List (List UInt8)
  | .done => starts d text
  | .failure _ => (starts d text).filter fun from' ↦ !(behindRow d from').isEmpty

/-- The rows that are certain to end, as the values of their fields. -/
def settledTable (d : Dialect) (text : List UInt8) (ending : Ending ε) : List (List (List UInt8)) :=
  (settledStarts d text ending).map (values d)

@[simp] theorem settledTable_done (d : Dialect) (text : List UInt8) :
    settledTable d text (.done : Ending ε) = table d text := rfl

theorem settledTable_of_eq_nil {d : Dialect} {text : List UInt8} {ending : Ending ε}
    (h : recordStart d text = []) : settledTable d text ending = [] := by
  unfold settledTable settledStarts
  cases ending <;> rw [starts_of_eq_nil h] <;> rfl

theorem settledTable_of_behindRow_eq_nil {d : Dialect} {text : List UInt8} {cause : ε}
    (h : behindRow d (recordStart d text) = []) :
    settledTable d text (.failure cause) = [] := by
  by_cases hs : recordStart d text = []
  · exact settledTable_of_eq_nil hs
  · unfold settledTable settledStarts
    rw [starts_of_ne_nil hs, h, starts_nil]
    simp [h]

theorem settledTable_of_ne_nil {d : Dialect} {text : List UInt8} {ending : Ending ε}
    (hs : recordStart d text ≠ [])
    (hne : behindRow d (recordStart d text) ≠ [] ∨ ending = .done) :
    settledTable d text ending =
      values d (recordStart d text) ::
        settledTable d (behindRow d (recordStart d text)) ending := by
  unfold settledTable settledStarts
  rw [starts_of_ne_nil hs]
  cases ending with
  | done => rfl
  | failure cause =>
    have hb : behindRow d (recordStart d text) ≠ [] := hne.resolve_right nofun
    simp [hb]

end Grammar

namespace RowBuilder

variable {φ ρ γ : Type}

/-- Takes all the fields of a row in. -/
def fill (builder : RowBuilder φ ρ γ) (values : List (List UInt8)) (row : ρ × φ) : ρ × φ :=
  values.foldl (fun row bytes ↦ builder.place row.1 bytes row.2) row

/-- What becomes of a row with these fields. -/
def build (builder : RowBuilder φ ρ γ) (values : List (List UInt8)) (state : φ) : γ × φ :=
  let row := builder.fill values (builder.start state)
  (builder.finish row.1, row.2)

/-- What becomes of rows with these fields, one after the other. -/
def buildAll (builder : RowBuilder φ ρ γ) : List (List (List UInt8)) → φ → List γ
  | [], _ => []
  | values :: rows, state =>
    let built := builder.build values state
    built.1 :: builder.buildAll rows built.2

/-- The state behind rows with these fields. -/
def stateAfter (builder : RowBuilder φ ρ γ) (rows : List (List (List UInt8))) (state : φ) : φ :=
  rows.foldl (fun state values ↦ (builder.build values state).2) state

end RowBuilder

/-- The errors at the end of a stream. -/
def Ending.errors {ε : Type} : Ending ε → List (ReadError ε)
  | .done => []
  | .failure cause => [.reading cause]

@[simp] theorem Ending.errors_done {ε : Type} : (.done : Ending ε).errors = [] := rfl

@[simp] theorem Ending.errors_failure {ε : Type} (cause : ε) :
    (Ending.failure cause).errors = [.reading cause] := rfl

namespace Pass

variable {σ ε φ ρ γ : Type} [Source σ ε]
variable {alloc : Allocator} {p q : Pass σ φ ρ γ} {d : Dialect} {text : List UInt8}
  {ending : Ending ε}

theorem takeAll_placing (builder : RowBuilder φ ρ γ) (values : List (List UInt8)) (row : ρ × φ) :
    Scanner.takeAll (placing builder) values row = .ok () (builder.fill values row) := by
  induction values generalizing row with
  | nil => rfl
  | cons value values ih => exact ih (builder.place row.1 value row.2)

section Next

variable {s t : Scanner σ} {e : ReadError ε} {fields : Nat} {row : ρ × φ}

/-- The search for a row fails. -/
theorem next_of_seeking (hp : p.finished = false)
    (hskip : Scanner.skipBlankLines p.scanner = .error e t) :
    p.next alloc = (some (.error e), { p with scanner := t, finished := true }) := by
  rw [next, hp, readRow, hskip]
  rfl

/-- The search for a row comes to the end of the stream. -/
theorem next_of_exhausted (hp : p.finished = false)
    (hskip : Scanner.skipBlankLines p.scanner = .ok () s) (hend : s.isAtEnd = true) :
    p.next alloc = (none, { p with scanner := s, finished := true }) := by
  rw [next, hp, readRow, hskip]
  simp only [hend, Bool.false_eq_true, if_true, if_false]

/-- A row is cut off. -/
theorem next_of_scanning (hp : p.finished = false)
    (hskip : Scanner.skipBlankLines p.scanner = .ok () s) (hend : s.isAtEnd = false)
    (hrow : s.readRow alloc (placing p.builder) 0 (p.builder.start p.state) = .error e (t, row)) :
    p.next alloc =
      (some (.error e), { p with scanner := t, state := row.2, finished := true }) := by
  rw [next, hp, readRow, hskip]
  simp only [hend, hrow, Bool.false_eq_true, if_false]

/-- A row is read. -/
theorem next_of_readRow (hp : p.finished = false)
    (hskip : Scanner.skipBlankLines p.scanner = .ok () s) (hend : s.isAtEnd = false)
    (hrow : s.readRow alloc (placing p.builder) 0 (p.builder.start p.state) =
      .ok fields (t, row)) :
    p.next alloc = (some (.ok (p.builder.finish row.1)),
      { p with scanner := t.note (p.builder.event fields), state := row.2 }) := by
  rw [next, hp, readRow, hskip]
  simp only [hend, hrow, Bool.false_eq_true, if_false, hp]

theorem next_of_finished (h : p.finished = true) : p.next alloc = (none, p) := by
  unfold next
  rw [h]
  rfl

/-- All that a request for the next item can come to. -/
inductive Requested (alloc : Allocator) (p : Pass σ φ ρ γ) :
    Option (Except (ReadError ε) γ) × Pass σ φ ρ γ → Prop where
  /-- The pass is over. -/
  | finished (hp : p.finished = true) : Requested alloc p (none, p)
  /-- The search for a row fails. -/
  | seeking {t : Scanner σ} {e : ReadError ε} (hp : p.finished = false)
      (hskip : Scanner.skipBlankLines p.scanner = .error e t) :
      Requested alloc p (some (.error e), { p with scanner := t, finished := true })
  /-- No row is left. -/
  | exhausted {s : Scanner σ} (hp : p.finished = false)
      (hskip : Scanner.skipBlankLines p.scanner = .ok () s) (hend : s.isAtEnd = true) :
      Requested alloc p (none, { p with scanner := s, finished := true })
  /-- A row is cut off. -/
  | scanning {s t : Scanner σ} {e : ReadError ε} {row : ρ × φ} (hp : p.finished = false)
      (hskip : Scanner.skipBlankLines p.scanner = .ok () s) (hend : s.isAtEnd = false)
      (hrow : s.readRow alloc (placing p.builder) 0 (p.builder.start p.state) =
        .error e (t, row)) :
      Requested alloc p
        (some (.error e), { p with scanner := t, state := row.2, finished := true })
  /-- A row is read. -/
  | row {s t : Scanner σ} {fields : Nat} {row : ρ × φ} (hp : p.finished = false)
      (hskip : Scanner.skipBlankLines p.scanner = .ok () s) (hend : s.isAtEnd = false)
      (hrow : s.readRow alloc (placing p.builder) 0 (p.builder.start p.state) =
        .ok fields (t, row)) :
      Requested alloc p (some (.ok (p.builder.finish row.1)),
        { p with scanner := t.note (p.builder.event fields), state := row.2 })

theorem requested_next (alloc : Allocator) (p : Pass σ φ ρ γ) :
    Requested alloc p (p.next alloc) := by
  cases hp : p.finished with
  | true =>
    rw [next_of_finished hp]
    exact .finished hp
  | false =>
    cases hskip : Scanner.skipBlankLines p.scanner with
    | error e t =>
      rw [next_of_seeking hp hskip]
      exact .seeking hp hskip
    | ok u s =>
      cases hend : s.isAtEnd with
      | true =>
        rw [next_of_exhausted hp hskip hend]
        exact .exhausted hp hskip hend
      | false =>
        cases hrow : s.readRow alloc (placing p.builder) 0 (p.builder.start p.state) with
        | error e cut =>
          rw [next_of_scanning hp hskip hend hrow]
          exact .scanning hp hskip hend hrow
        | ok fields read =>
          rw [next_of_readRow hp hskip hend hrow]
          exact .row hp hskip hend hrow

end Next

/-- The pass has not come to an end, and its scanner stands before the text. -/
structure At (p : Pass σ φ ρ γ) (d : Dialect) (text : List UInt8) (ending : Ending ε) : Prop where
  unfinished : p.finished = false
  scanner : p.scanner.At d text ending
  fits : text.length < memoryLimit

/-- The next item is the next row, if it is certain to end. Its defects and the row itself are
noted. -/
theorem next_of_row (hg : alloc.GrantsFor text.length) (h : p.At d text ending)
    (hs : Grammar.recordStart d text ≠ [])
    (hne : Grammar.behindRow d (Grammar.recordStart d text) ≠ [] ∨ ending = .done) :
    let start := Grammar.recordStart d text
    let built := p.builder.build (Grammar.values d start) p.state
    ∃ q : Pass σ φ ρ γ, p.next alloc = (some (.ok built.1), q) ∧ q.builder = p.builder ∧
      q.state = built.2 ∧ q.At d (Grammar.behindRow d start) ending ∧
      q.scanner.journal.toList = p.scanner.journal.toList ++
        (Grammar.rowEvents d start ++ [p.builder.event (Grammar.row d start).length]) := by
  obtain ⟨u, t, hskip, hat, hfield, hjournal⟩ :=
    (Scanner.leaves_skipBlankLines h.scanner).ok (.inl hs)
  have hstart := Grammar.length_recordStart_le d text
  have hbehind := Grammar.length_behindRow_le d (Grammar.recordStart d text)
  have hfits := h.fits
  obtain ⟨v, hrow, hat', hjournal'⟩ :=
    Scanner.readRow_eq_ok 0 (hg.mono hstart) hat (by omega) hne
      (takeAll_placing p.builder _ (p.builder.start p.state))
  refine ⟨_, next_of_readRow h.unfinished hskip (hat.isAtEnd_eq_false_iff.mpr hs) hrow, rfl, rfl,
    ⟨h.unfinished, hat'.of_eq rfl hat'.sound rfl rfl, by omega⟩, ?_⟩
  show (v.journal.push _).toList = _
  rw [Array.toList_push, hjournal', hjournal, List.append_assoc, Nat.zero_add]

/-- There is no item when no row is left, and nothing is noted. -/
theorem next_of_done (alloc : Allocator) (h : p.At d text .done)
    (hs : Grammar.recordStart d text = []) :
    ∃ q, p.next alloc = (none, q) ∧ q.finished = true ∧ q.state = p.state ∧
      q.scanner.journal = p.scanner.journal := by
  obtain ⟨u, t, hskip, hat, -, hjournal⟩ := (Scanner.leaves_skipBlankLines h.scanner).ok (.inr rfl)
  exact ⟨_, next_of_exhausted h.unfinished hskip (hat.isAtEnd_iff.mpr hs), rfl, rfl, hjournal⟩

/-- The next item is the failure of the source, where it comes before the next row has ended for
certain. -/
theorem next_of_failure {cause : ε} (hg : alloc.GrantsFor text.length)
    (h : p.At d text (.failure cause))
    (hnil : Grammar.behindRow d (Grammar.recordStart d text) = []) :
    ∃ q, p.next alloc = (some (.error (.reading cause)), q) ∧ q.finished = true := by
  have hl := Scanner.leaves_skipBlankLines h.scanner
  by_cases hs : Grammar.recordStart d text = []
  · rw [hs] at hl
    obtain ⟨t, hskip, -⟩ := hl.error
    exact ⟨_, next_of_seeking h.unfinished hskip, rfl⟩
  · obtain ⟨u, t, hskip, hat, -⟩ := hl.ok (.inl hs)
    have hstart := Grammar.length_recordStart_le d text
    have hfits := h.fits
    obtain ⟨v, hrow, -⟩ :=
      Scanner.readRow_eq_error 0 (hg.mono hstart) hat (by omega) hnil
        (takeAll_placing p.builder _ (p.builder.start p.state))
    exact ⟨_, next_of_scanning h.unfinished hskip (hat.isAtEnd_eq_false_iff.mpr hs) hrow, rfl⟩

theorem items_of_none (h : p.next alloc = (none, q)) : p.items alloc = ([], q) := by
  rw [items]
  split
  · next h' =>
    rw [h] at h'
    cases h'
    rfl
  · next h' =>
    rw [h] at h'
    cases h'

theorem items_of_some {item : Except (ReadError ε) γ} (h : p.next alloc = (some item, q)) :
    p.items alloc = (item :: (q.items alloc).1, (q.items alloc).2) := by
  rw [items]
  split
  · next h' =>
    rw [h] at h'
    cases h'
  · next h' =>
    rw [h] at h'
    cases h'
    rfl

/-- A pass gives what its builder makes of the rows that are certain to end, and then the failure of
the source, if there is one. -/
theorem items_eq (hg : alloc.GrantsFor text.length) (h : p.At d text ending) :
    (p.items alloc).1 =
      (p.builder.buildAll (Grammar.settledTable d text ending) p.state).map .ok ++
        ending.errors.map .error := by
  -- A row takes bytes, but no fixed number of them, so the induction is on the length of the text.
  induction hn : text.length using Nat.strongRecOn generalizing text p with
  | ind n ih =>
    by_cases hrow : Grammar.recordStart d text ≠ [] ∧
        (Grammar.behindRow d (Grammar.recordStart d text) ≠ [] ∨ ending = .done)
    · obtain ⟨hs, hne⟩ := hrow
      obtain ⟨q, hnext, hbuilder, hstate, hat, -⟩ := next_of_row hg h hs hne
      have hlt := Grammar.length_behindRow_lt d hs
      have hle := Grammar.length_recordStart_le d text
      have hrest := ih _ (by omega) (hg.mono (by omega)) hat rfl
      rw [Grammar.settledTable_of_ne_nil hs hne, items_of_some hnext, hrest, hbuilder, hstate]
      rfl
    · cases ending with
      | done =>
        have hs : Grammar.recordStart d text = [] := by
          apply Classical.byContradiction
          intro hs
          exact hrow ⟨hs, .inr rfl⟩
        obtain ⟨q, hnext, -⟩ := next_of_done alloc h hs
        rw [Grammar.settledTable_of_eq_nil hs, items_of_none hnext]
        rfl
      | failure cause =>
        have hnil : Grammar.behindRow d (Grammar.recordStart d text) = [] := by
          apply Classical.byContradiction
          intro hne
          exact hrow ⟨Grammar.recordStart_ne_nil hne, .inl hne⟩
        obtain ⟨q, hnext, hq⟩ := next_of_failure hg h hnil
        rw [Grammar.settledTable_of_behindRow_eq_nil hnil, items_of_some hnext,
          items_of_none (next_of_finished hq)]
        rfl

/-- The answers to so many requests for the next of these items: nothing when they are over. -/
def answers {α : Type} (items : List α) (n : Nat) : List (Option α) :=
  (items.take n).map some ++ List.replicate (n - items.length) none

theorem take_of_finished (h : p.finished = true) (n : Nat) :
    (p.take alloc n).1 = answers [] n := by
  induction n with
  | zero => rfl
  | succ n ih =>
    unfold take
    rw [next_of_finished h]
    dsimp only
    rw [ih]
    simp [answers, List.replicate_succ]

theorem finished_of_next_eq_none (h : p.next alloc = (none, q)) : q.finished = true := by
  have hrequested := requested_next alloc p
  rw [h] at hrequested
  cases hrequested with
  | finished hp => exact hp
  | exhausted hp hskip hend => rfl

/-- Requests are answered with the items of the pass, and with nothing for ever when they are
over. -/
theorem take_eq_answers (p : Pass σ φ ρ γ) (n : Nat) :
    (p.take alloc n).1 = answers (p.items alloc).1 n := by
  induction n generalizing p with
  | zero => simp [take, answers]
  | succ n ih =>
    unfold take
    cases hnext : p.next alloc with
    | mk item q =>
      dsimp only
      cases item with
      | none =>
        rw [items_of_none hnext, take_of_finished (finished_of_next_eq_none hnext)]
        simp [answers, List.replicate_succ]
      | some item =>
        rw [items_of_some hnext, ih]
        simp [answers]

theorem answers_cons {α : Type} (item : α) (items : List α) (n : Nat) :
    answers (item :: items) (n + 1) = some item :: answers items n := by
  simp [answers]

theorem take_succ {answer : Option (Except (ReadError ε) γ)}
    (h : p.next alloc = (answer, q)) (n : Nat) :
    p.take alloc (n + 1) = (answer :: (q.take alloc n).1, (q.take alloc n).2) := by
  rw [take, h]

/-- A finished pass stays as it is. -/
theorem take_eq_of_finished (h : p.finished = true) (n : Nat) :
    p.take alloc n = (answers [] n, p) := by
  refine Prod.ext (take_of_finished h n) ?_
  induction n with
  | zero => rfl
  | succ n ih =>
    rw [take_succ (next_of_finished h)]
    exact ih

/-- A pass that is finished at once gives no more than its next answer. -/
theorem take_of_next_finished {answer : Option (Except (ReadError ε) γ)}
    (h : p.next alloc = (answer, q)) (hq : q.finished = true) (n : Nat) :
    p.take alloc (n + 1) = (answers answer.toList (n + 1), q) := by
  rw [take_succ h, take_eq_of_finished hq]
  cases answer with
  | none => simp [answers, List.replicate_succ]
  | some item => rw [Option.toList_some, answers_cons]

/-- A pass that has come to the end of a stream gives nothing, and calls for nothing. -/
theorem take_of_done (alloc : Allocator) (h : p.At d [] .done)
    (n : Nat) : ∃ q, p.take alloc n = (answers [] n, q) ∧ q.state = p.state := by
  cases n with
  | zero => exact ⟨p, rfl, rfl⟩
  | succ n =>
    obtain ⟨q, hnext, hq, hstate, -⟩ := next_of_done alloc h (Grammar.recordStart_nil d)
    exact ⟨q, take_of_next_finished hnext hq n, hstate⟩

/-- After so many requests, the rows that have been given are behind the assembler, and have been
noted, each behind its own events. -/
theorem after_take (hg : alloc.GrantsFor text.length) (h : p.At d text .done) (n : Nat) :
    (p.take alloc n).2.state =
        p.builder.stateAfter ((Grammar.table d text).take n) p.state ∧
      (p.take alloc n).2.scanner.journal.toList =
        p.scanner.journal.toList ++ ((Grammar.starts d text).take n).flatMap fun start ↦
          Grammar.rowEvents d start ++ [p.builder.event (Grammar.row d start).length] := by
  unfold Grammar.table
  induction n generalizing p text with
  | zero => exact ⟨rfl, (List.append_nil _).symm⟩
  | succ n ih =>
    by_cases hs : Grammar.recordStart d text = []
    · obtain ⟨q, hnext, hq, hstate, hjournal⟩ := next_of_done alloc h hs
      rw [take_of_next_finished hnext hq, Grammar.starts_of_eq_nil hs]
      refine ⟨hstate, ?_⟩
      rw [hjournal]
      exact (List.append_nil _).symm
    · obtain ⟨q, hnext, hbuilder, hstate, hat, hjournal⟩ := next_of_row hg h hs (.inr rfl)
      have hbehind := Grammar.length_behindRow_recordStart_le d text
      obtain ⟨hstate', hjournal'⟩ := ih (hg.mono hbehind) hat
      rw [take_succ hnext, Grammar.starts_of_ne_nil hs, List.map_cons, List.take_succ_cons,
        List.take_succ_cons, List.flatMap_cons, ← List.append_assoc, ← hjournal, ← hbuilder]
      refine ⟨?_, hjournal'⟩
      rw [hstate', hstate, hbuilder]
      rfl

/-- Two passes that make the same of their rows, and stand before the same text, give the same items
and leave the same state. -/
theorem take_congr {σ' : Type} [Source σ' ε] {p' : Pass σ' φ ρ γ}
    (hg : alloc.GrantsFor text.length) (h : p.At d text .done) (h' : p'.At d text .done)
    (hbuilder : p'.builder = p.builder) (hstate : p'.state = p.state) (n : Nat) :
    (p'.take alloc n).1 = (p.take alloc n).1 ∧
      (p'.take alloc n).2.state = (p.take alloc n).2.state := by
  constructor
  · rw [take_eq_answers, take_eq_answers, items_eq hg h, items_eq hg h', hbuilder, hstate]
  · rw [(after_take hg h n).1, (after_take hg h' n).1, hbuilder, hstate]

end Pass
end Delimited
