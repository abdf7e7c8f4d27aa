import Delimited.Assembler.Calls
import Delimited.Assembler.Observing
import Delimited.Proofs.Failure
import Delimited.Proofs.HeaderKeys
import Delimited.Proofs.PassAgreement

/-!
# What an assembler is asked for

A pass asks its assembler for the rows that a pass over plain rows gives, one after the other, and
for nothing else. Skipped lines, a header, the end of the stream and the fields beyond the keys lead
to no call. A row that is cut off is asked for as far as its fields had been read.
-/

namespace Delimited

namespace RowBuilder

variable {φ ρ γ : Type}

@[simp] theorem fill_nil (builder : RowBuilder φ ρ γ) (row : ρ × φ) :
    builder.fill [] row = row := rfl

theorem fill_append_singleton (builder : RowBuilder φ ρ γ) (values : List (List UInt8))
    (bytes : List UInt8) (row : ρ × φ) :
    builder.fill (values ++ [bytes]) row =
      builder.place (builder.fill values row).1 bytes (builder.fill values row).2 :=
  List.foldl_append

end RowBuilder

namespace Assembler

variable {φ Field Row Keyed ρ α : Type} (f : Assembler φ Field Row Keyed)

/-- The builder makes its values by the calls of the assembly, and writes them down. -/
def Follows (builder : RowBuilder (φ × List (Call Field Row Keyed)) ρ α)
    (assemble : List (List UInt8) → φ → Assembly φ Field Row Keyed α) : Prop :=
  ∀ values state calls, builder.build values (state, calls) =
    let made := assemble values state
    (made.value, (made.state, calls ++ made.calls))

theorem fill_recorded_rows (values : List (List UInt8)) (row : Row) (state : φ)
    (calls : List (Call Field Row Keyed)) :
    f.recorded.rows.fill values (row, (state, calls)) =
      let filled := f.addFields values row state
      (filled.value, (filled.state, calls ++ filled.calls)) := by
  induction values generalizing row state calls with
  | nil => simp [addFields]
  | cons bytes values ih =>
    refine (ih _ _ _).trans ?_
    simp [addFields, recorded]

/-- A row is made by making and adding all its fields. -/
theorem follows_recorded_rows : Follows f.recorded.rows f.assembleRow := by
  intro values state calls
  refine (fill_recorded_rows f values _ _ _).trans ?_
  simp [assembleRow]

theorem fill_recorded_records (given keys values : List (List UInt8)) (record : Keyed) (state : φ)
    (calls : List (Call Field Row Keyed)) :
    (f.recorded.records given).fill values ((record, keys), (state, calls)) =
      let filled := f.addEntries (keys.zip values) record state
      ((filled.value, keys.drop values.length), (filled.state, calls ++ filled.calls)) := by
  induction values generalizing keys record state calls with
  | nil => simp [addEntries]
  | cons bytes values ih =>
    cases keys with
    | nil =>
      -- A field beyond the keys leads to no call.
      refine (ih [] record state calls).trans ?_
      simp [addEntries]
    | cons key keys =>
      refine (ih keys _ _ _).trans ?_
      simp [addEntries, recorded]

/-- A record is made by making and entering those fields of a row that have a key. -/
theorem follows_recorded_records (keys : List (List UInt8)) :
    Follows (f.recorded.records keys) (f.assembleRecord keys) := by
  intro values state calls
  have hfill := fill_recorded_records f keys keys values (f.emptyRecord state).1
    (f.emptyRecord state).2 (calls ++ [.emptyRecord (f.emptyRecord state).1])
  unfold RowBuilder.build
  refine (congrArg (fun row ↦ (row.1.1, row.2)) hfill).trans ?_
  simp [assembleRecord]

/-- Row after row, the calls of the assembly are written down. -/
theorem Follows.all {builder : RowBuilder (φ × List (Call Field Row Keyed)) ρ α}
    {assemble : List (List UInt8) → φ → Assembly φ Field Row Keyed α}
    (h : Follows builder assemble) (rows : List (List (List UInt8))) (state : φ)
    (calls : List (Call Field Row Keyed)) :
    let made := assembleAll assemble rows state
    builder.buildAll rows (state, calls) = made.value ∧
      builder.stateAfter rows (state, calls) = (made.state, calls ++ made.calls) := by
  induction rows generalizing state calls with
  | nil => simp [assembleAll, RowBuilder.buildAll, RowBuilder.stateAfter]
  | cons values rows ih =>
    obtain ⟨hvalues, hstate⟩ :=
      ih (assemble values state).state (calls ++ (assemble values state).calls)
    unfold RowBuilder.stateAfter at hstate ⊢
    rw [RowBuilder.buildAll, List.foldl_cons, h]
    dsimp only
    rw [hvalues, hstate, assembleAll, List.append_assoc]
    exact ⟨rfl, rfl⟩

/-- Writing the calls down changes nothing else. -/
theorem extends_recorded_rows : f.rows.Extends Prod.fst f.recorded.rows :=
  ⟨fun _ ↦ rfl, fun _ _ _ ↦ rfl, rfl⟩

theorem extends_recorded_records (keys : List (List UInt8)) :
    (f.records keys).Extends Prod.fst (f.recorded.records keys) where
  start _ := rfl
  place row bytes state := by
    obtain ⟨record, _ | ⟨key, keys⟩⟩ := row
    · rfl
    · rfl
  finish := rfl

end Assembler

namespace Pass

variable {σ ε φ ρ γ : Type} [Source σ ε] {alloc : Allocator}

/-- How a pass stops after the requests that have been answered with rows, and how much of another
row has been read by then. -/
inductive Stops (alloc : Allocator) (p : Pass σ φ ρ γ) :
    Option (ReadError ε) → Option (List (List UInt8)) → Prop where
  /-- No error comes. -/
  | silently : Stops alloc p none none
  /-- An error comes before there is a row. -/
  | seeking {e : ReadError ε} {t : Scanner σ}
      (hskip : Scanner.skipBlankLines p.scanner = .error e t) : Stops alloc p (some e) none
  /-- An error cuts a row off behind these fields. -/
  | scanning {e : ReadError ε} {t : Scanner σ} {values : List (List UInt8)}
      (hskip : Scanner.skipBlankLines p.scanner = .ok () t) (hend : t.isAtEnd = false)
      (hcut : t.CutOff alloc values e) : Stops alloc p (some e) (some values)

/-- A row that a pass cannot read to its end is cut off, and the fields before have been taken
in. -/
theorem cutOff_of_readRow {builder : RowBuilder φ ρ γ} {fields : Nat} {s t : Scanner σ}
    {row row' : ρ × φ} {e : ReadError ε}
    (hr : s.readRow alloc (placing builder) fields row = .error e (t, row')) :
    ∃ values, s.CutOff alloc values e ∧ row' = builder.fill values row := by
  have htake : ∀ bytes taken, ∃ next, placing builder bytes taken = .ok () next :=
    fun _ _ ↦ ⟨_, rfl⟩
  obtain ⟨values, hcut, hall⟩ := Scanner.cutOff_of_readRow htake hr
  rw [takeAll_placing] at hall
  cases hall
  exact ⟨values, hcut, rfl⟩

/-- A pass over plain rows and any other pass that goes on alike meet at the next request. What ties
the rows in progress: the plain row is the list of the fields taken in so far, and the other row is
what its builder makes of that list. -/
theorem meets_next_of_rows {σ' ε' : Type} [Source σ' ε'] {f : ε → ε'}
    {p : Pass σ Unit (List (List UInt8)) (List (List UInt8))} {q : Pass σ' φ ρ γ}
    (hbuilder : p.builder = Assembler.standard.rows) (hp : p.finished = false)
    (hq : q.finished = false) (htwins : Scanner.Twins f alloc alloc p.scanner q.scanner) :
    Meets f alloc alloc
      (fun row row' ↦ row' = q.builder.fill row.1 (q.builder.start q.state)) p q := by
  apply meets_next hp hq htwins
  · rw [hbuilder]
    rfl
  · rintro bytes row _ rfl
    rw [hbuilder]
    exact (RowBuilder.fill_append_singleton q.builder row.1 bytes _).symm

/-- A pass over plain rows and any other pass that goes on alike: the other builds the rows that the
first gives, and its state is that behind these rows and behind the fields of a row that is cut
off. -/
theorem exists_rows_take
    {p : Pass σ Unit (List (List UInt8)) (List (List UInt8))} {q : Pass σ φ ρ γ}
    (hbuilder : p.builder = Assembler.standard.rows) (hfinished : q.finished = p.finished)
    (htwins : p.finished = false → Scanner.Twins id alloc alloc p.scanner q.scanner) (n : Nat) :
    ∃ (rows : List (List (List UInt8))) (stop : Option (ReadError ε))
      (cut : Option (List (List UInt8))), rows.length + stop.toList.length ≤ n ∧
        (p.take alloc n).1 = answers (rows.map .ok ++ stop.toList.map .error) n ∧
        (p.take alloc rows.length).2.Stops alloc stop cut ∧
        (q.take alloc n).1 =
          answers ((q.builder.buildAll rows q.state).map .ok ++ stop.toList.map .error) n ∧
        (q.take alloc n).2.state = q.builder.stateAfter (rows ++ cut.toList) q.state := by
  induction n generalizing p q with
  | zero => exact ⟨[], none, none, Nat.le_refl 0, rfl, .silently, rfl, rfl⟩
  | succ n ih =>
    cases hp : p.finished with
    | true =>
      have hq : q.finished = true := hfinished.trans hp
      rw [take_eq_of_finished hp, take_eq_of_finished hq]
      exact ⟨[], none, none, Nat.zero_le _, rfl, .silently, rfl, rfl⟩
    | false =>
      cases meets_next_of_rows hbuilder hp (hfinished.trans hp) (htwins hp) with
      | exhausted hskip hend hn hn' =>
        rw [take_of_next_finished hn rfl, take_of_next_finished hn' rfl]
        exact ⟨[], none, none, Nat.zero_le _, rfl, .silently, rfl, rfl⟩
      | @seeking _ _ e hskip hn hn' =>
        rw [take_of_next_finished hn rfl, take_of_next_finished hn' rfl, ReadError.map_id]
        exact ⟨[], some e, none, Nat.succ_le_succ (Nat.zero_le n), rfl, .seeking hskip, rfl, rfl⟩
      | @scanning _ _ _ e row row' hskip hend hrow hr hn hn' =>
        obtain ⟨values, hcut, hfill⟩ := cutOff_of_readRow hrow
        have hvalues : row.1 = values := by
          rw [hfill, hbuilder]
          exact congrArg Prod.fst (Assembler.fill_standard_rows [] values)
        rw [take_of_next_finished hn rfl, take_of_next_finished hn' rfl, ReadError.map_id, hr,
          hvalues]
        exact ⟨[], some e, some values, Nat.succ_le_succ (Nat.zero_le n), rfl,
          .scanning hskip hend hcut, rfl, rfl⟩
      | @row t t' row row' hscanners hr hn hn' =>
        obtain ⟨rows, stop, cut, hle, hrows, hstops, hbuilt, hstate⟩ :=
          ih (p := { p with scanner := t, state := row.2 })
            (q := { q with scanner := t', state := row'.2 }) hbuilder hfinished fun _ ↦ hscanners
        rw [take_succ hn, take_succ hn', hrows, hbuilt, hstate, hr, hbuilder]
        refine ⟨row.1 :: rows, stop, cut, ?_, ?_, ?_, ?_, rfl⟩
        · rw [List.length_cons]
          omega
        · exact (answers_cons _ _ n).symm
        · rw [List.length_cons, take_succ hn]
          exact hstops
        · exact (answers_cons _ _ n).symm

variable {Field Row Keyed : Type}

/-- What becomes of a pass `q` with an assembler in a state, and of the same pass `log` that writes
its calls down, beside a pass `p` over plain rows. After any number of requests, `p` has given some
rows and maybe an error, which may have cut off another row. Then `q` has given what is assembled of
these rows, and the same error; and the calls are those that assemble these rows and the fields of
the row that was cut off, and no others. -/
def Tracks (alloc : Allocator) (p : Pass σ Unit (List (List UInt8)) (List (List UInt8)))
    (q : Pass σ φ ρ γ) (log : Pass σ (φ × List (Call Field Row Keyed)) ρ γ)
    (assemble : List (List UInt8) → φ → Assembly φ Field Row Keyed γ) (state : φ) : Prop :=
  ∀ n, ∃ (rows : List (List (List UInt8))) (stop : Option (ReadError ε))
    (cut : Option (List (List UInt8))), rows.length + stop.toList.length ≤ n ∧
      (p.take alloc n).1 = answers (rows.map .ok ++ stop.toList.map .error) n ∧
      (p.take alloc rows.length).2.Stops alloc stop cut ∧
      let made := Assembler.assembleAll assemble rows state
      let asked := Assembler.assembleAll assemble (rows ++ cut.toList) state
      (q.take alloc n).1 = answers (made.value.map .ok ++ stop.toList.map .error) n ∧
        (q.take alloc n).2.state = asked.state ∧
        (log.take alloc n).1 = (q.take alloc n).1 ∧
        (log.take alloc n).2.state = (asked.state, asked.calls)

variable {p : Pass σ Unit (List (List UInt8)) (List (List UInt8))} {q : Pass σ φ ρ γ}
  {log : Pass σ (φ × List (Call Field Row Keyed)) ρ γ}
  {assemble : List (List UInt8) → φ → Assembly φ Field Row Keyed γ} {state : φ}

/-- Passes that begin where a pass over plain rows begins keep to its rows. -/
theorem tracks_of_twins (hbuilder : p.builder = Assembler.standard.rows)
    (hassemble : Assembler.Follows log.builder assemble) (hlog : log.state = (state, []))
    (hrecorded : Twins id Prod.fst alloc alloc q log) (hfinished : log.finished = p.finished)
    (hscanners : p.finished = false → Scanner.Twins id alloc alloc p.scanner log.scanner) :
    Tracks alloc p q log assemble state := by
  intro n
  obtain ⟨rows, stop, cut, hle, hrows, hstops, hbuilt, hstate⟩ :=
    exists_rows_take hbuilder hfinished hscanners n
  obtain ⟨hanswers, hforgets⟩ := hrecorded.take n
  have hmade := (hassemble.all rows state []).1
  have hasked := (hassemble.all (rows ++ cut.toList) state []).2
  have hsame : (log.take alloc n).1 = (q.take alloc n).1 := by
    rw [hanswers, funext renamed_id]
    exact List.map_id _
  rw [hlog] at hbuilt hstate
  rw [hmade] at hbuilt
  rw [hasked, List.nil_append] at hstate
  refine ⟨rows, stop, cut, hle, hrows, hstops, hsame.symm.trans hbuilt, ?_, hsame, hstate⟩
  rw [hforgets, hstate]

/-- Nothing tracks a finished pass but a pass that gives nothing either. -/
theorem tracks_of_done {d : Dialect} (hp : p.finished = true) (hq : q.At d [] .done)
    (hlog : log.At d [] .done) (hstate : q.state = state) (hcalls : log.state = (state, [])) :
    Tracks alloc p q log assemble state := by
  intro n
  obtain ⟨q', hq', hstate'⟩ := take_of_done alloc hq n
  obtain ⟨log', hlog', hcalls'⟩ := take_of_done alloc hlog n
  refine ⟨[], none, none, Nat.zero_le n, ?_, .silently, ?_, ?_, ?_, ?_⟩
  · rw [take_eq_of_finished hp]
    rfl
  · rw [hq']
    rfl
  · rw [hq']
    exact hstate'.trans hstate
  · rw [hq', hlog']
  · rw [hlog']
    exact hcalls'.trans hcalls

end Pass

namespace Reader

variable {π σ ε φ φ' Field Row Keyed Field' Row' Keyed' : Type} [Source σ ε] [Origin π σ ε]
  {alloc : Allocator} {d : Dialect} {r t : Reader π σ}

/-- Whether a start that takes keys succeeds does not depend on the assembler. -/
theorem startRecords_congr {assembler : Assembler φ Field Row Keyed} {state : φ}
    {under : RecordKeys} {p : Pass σ φ (Keyed × List (List UInt8)) Keyed}
    (h : r.startRecords alloc assembler state = .ok (under, p) t)
    (assembler' : Assembler φ' Field' Row' Keyed') (state' : φ') :
    ∃ u keys, r.reopen = .ok () u ∧ Buffer.create alloc 2 = .ok keys ∧
      u.scanner.readHeader alloc keys = .ok () (t.scanner, t.keyBuffer) ∧
      under.keys = t.keys ∧ p = t.pass (assembler.records t.keys) state ∧
      r.startRecords alloc assembler' state' =
        .ok (under, t.pass (assembler'.records t.keys) state') t := by
  unfold startRecords at h ⊢
  cases hr : r.reopen with
  | error e u =>
    rw [hr] at h
    cases h
  | ok v u =>
    rw [hr] at h
    dsimp only at h ⊢
    cases hb : Buffer.create (α := List UInt8) alloc 2 with
    | error e =>
      rw [hb] at h
      cases h
    | ok keys =>
      rw [hb] at h
      dsimp only at h ⊢
      cases hheader : u.scanner.readHeader alloc keys with
      | error e cut =>
        rw [hheader] at h
        cases h
      | ok w read =>
        rw [hheader] at h
        cases h
        exact ⟨u, keys, rfl, rfl, hheader, rfl, rfl, rfl⟩

omit [Origin π σ ε] in
/-- Where keys are taken from the first row, a pass over plain rows gives that row first, and then
stands where the keys end. Without a row it gives nothing, and there are no keys. -/
theorem begun_of_readHeader {u : Reader π σ} {text : List UInt8} {ending : Ending ε}
    {keys : Buffer (List UInt8)} (hat : u.scanner.At d text ending) (hk : keys.isSound = true)
    (hempty : keys.toList = [])
    (hr : u.scanner.readHeader alloc keys = .ok () (t.scanner, t.keyBuffer)) :
    let begun := (u.pass Assembler.standard.rows ()).next alloc
    (begun.1 = none ∧ begun.2.finished = true ∧ t.keys = [] ∧ t.scanner.At d [] ending) ∨
    begun.1 = some (.ok t.keys) ∧ begun.2.builder = Assembler.standard.rows ∧
      begun.2.finished = false ∧ Scanner.Twins id alloc alloc begun.2.scanner t.scanner ∧
      ∃ behind, t.scanner.At d behind ending := by
  have hleaves := Scanner.leaves_skipBlankLines hat
  obtain ⟨s, hskip, hheader⟩ := Scanner.readHeader_eq_ok hr
  rw [hskip] at hleaves
  obtain ⟨hs, -⟩ := hleaves
  obtain ⟨hend, hscanner, hkeys⟩ | ⟨hend, count, v, hrow, hscanner⟩ := hheader
  · have hnext : (u.pass Assembler.standard.rows ()).next alloc =
        (none, { u.pass Assembler.standard.rows () with scanner := s, finished := true }) :=
      Pass.next_of_exhausted rfl hskip hend
    rw [hs.isAtEnd_iff.mp hend] at hs
    rw [hnext]
    exact .inl ⟨rfl, rfl, (congrArg Buffer.toList hkeys).trans hempty, hscanner ▸ hs⟩
  · -- The same row is read where its fields go to the keys and where they go to a plain row.
    obtain ⟨values, hall, hothers⟩ := Scanner.exists_values_of_readRow hrow
    have hkeys : t.keys = values := by
      refine (toList_of_takeAll_addKey hall hk).trans ?_
      rw [hempty, List.nil_append]
    have hplain : s.readRow alloc (Pass.placing Assembler.standard.rows) 0
        (Assembler.standard.rows.start ()) = .ok count (v, (values, ())) := by
      apply hothers
      rw [Pass.takeAll_placing]
      exact congrArg (EStateM.Result.ok ()) (Assembler.fill_standard_rows [] values)
    have hnext : (u.pass Assembler.standard.rows ()).next alloc =
        (some (.ok values),
          { u.pass Assembler.standard.rows () with scanner := v.note (.rowRead count) }) :=
      Pass.next_of_readRow (p := u.pass Assembler.standard.rows ()) rfl hskip hend hplain
    have hbehind := (Scanner.of_readRow_eq_ok hs hrow).2
    have hplaced : Scanner.Twins id alloc alloc (v.note (.rowRead count)) t.scanner := by
      rw [hscanner]
      exact (Scanner.Twins.refl alloc hbehind).note _ _
    rw [hnext, hkeys]
    refine .inr ⟨rfl, rfl, rfl, hplaced, Grammar.behindRow d (Grammar.recordStart d text), ?_⟩
    rw [hscanner]
    exact hbehind.of_eq rfl hbehind.sound rfl rfl

omit [Origin π σ ε] in
/-- A pass under the first row begins behind the first item of a pass over plain rows, which is the
row of keys, if there is one. -/
theorem tracks_of_readHeader {u : Reader π σ} {text : List UInt8} {ending : Ending ε}
    {keys : Buffer (List UInt8)} (hat : u.scanner.At d text ending) (hk : keys.isSound = true)
    (hempty : keys.toList = [])
    (hr : u.scanner.readHeader alloc keys = .ok () (t.scanner, t.keyBuffer))
    (f : Assembler φ Field Row Keyed) (state : φ) :
    let begun := (u.pass Assembler.standard.rows ()).next alloc
    (begun.1 = some (.ok t.keys) ∨ begun.1 = none ∧ t.keys = []) ∧
      begun.2.Tracks alloc (t.pass (f.records t.keys) state)
        (t.pass (f.recorded.records t.keys) (state, [])) (f.assembleRecord t.keys) state := by
  obtain ⟨hnone, hfinished, hkeys, hend⟩ | ⟨hfirst, hbuilder, hfinished, htwins, behind, hbehind⟩ :=
    begun_of_readHeader hat hk hempty hr
  · -- Without a row there is none behind the keys either: both passes are over.
    have hdone : t.scanner.At d [] (.done : Ending ε) := hend.eq_done ▸ hend
    exact ⟨.inr ⟨hnone, hkeys⟩, Pass.tracks_of_done hfinished ⟨rfl, hdone, by decide⟩
      ⟨rfl, hdone, by decide⟩ rfl rfl⟩
  · have hsame : Scanner.Twins id alloc alloc t.scanner t.scanner := .refl alloc hbehind
    exact ⟨.inl hfirst, Pass.tracks_of_twins hbuilder (Assembler.follows_recorded_records f t.keys)
      rfl ⟨Assembler.extends_recorded_records f t.keys, rfl, rfl, fun _ ↦ hsame⟩ hfinished.symm
      fun _ ↦ htwins⟩

end Reader

/-- For any use of a reader, in any state, and any assembler: where plain rows cannot be started,
nothing can; and where they can, the calls of a pass follow them. A pass over rows asks for all of
each row, a pass over records for as much as there are keys to. Where the keys stand in the first
row this is not asked for, and the pass follows the rows behind it. -/
theorem calls_follow_rows {π σ ε φ Field Row Keyed : Type} [Source σ ε] [Origin π σ ε]
    (alloc₀ alloc : Allocator) (origin : π) (d : Dialect) (created : Reader π σ)
    (history : List Operation) (f : Assembler φ Field Row Keyed) (state : φ)
    (hr : Reader.create (ε := ε) alloc₀ origin d = .ok created) :
    let r := created.run history
    (∀ e t, r.startRows Assembler.standard () = .error e t →
        (∃ t', r.startRows f state = .error e t') ∧
          (∀ keys, ∃ t', r.startRecordsUnder f state keys = .error e t') ∧
          ∃ t', r.startRecords alloc f state = .error e t') ∧
      ∀ p t, r.startRows Assembler.standard () = .ok p t →
        (∃ q log t', r.startRows f state = .ok q t' ∧
          r.startRows f.recorded (state, []) = .ok log t' ∧
          p.Tracks alloc q log f.assembleRow state) ∧
        (∀ keys, ∃ q log t', r.startRecordsUnder f state keys = .ok (⟨keys, false⟩, q) t' ∧
          r.startRecordsUnder f.recorded (state, []) keys = .ok (⟨keys, false⟩, log) t' ∧
          p.Tracks alloc q log (f.assembleRecord keys) state) ∧
        ∀ under q t', r.startRecords alloc f state = .ok (under, q) t' →
          ∃ log, r.startRecords alloc f.recorded (state, []) = .ok (under, log) t' ∧
            ((p.next alloc).1 = some (.ok under.keys) ∨
              (p.next alloc).1 = none ∧ under.keys = []) ∧
            (p.next alloc).2.Tracks alloc q log (f.assembleRecord under.keys) state := by
  intro r
  have hfit : r.scanner.Fit d :=
    (Reader.inOrder_run (Reader.inOrder_of_create hr).1 history).1.fit
  refine ⟨fun e t hs ↦ ?_, fun p t hs ↦ ?_⟩
  · obtain ⟨hrows, hunder, hrecords⟩ := Reader.start_of_reopen_error f state alloc
      (Reader.reopen_of_startRows_error Assembler.standard () hs)
    exact ⟨⟨t, hrows⟩, fun keys ↦ ⟨t, hunder keys⟩, t, hrecords⟩
  · obtain ⟨hreopen, rfl⟩ := Reader.reopen_of_startRows Assembler.standard () hs
    obtain ⟨source, -, hat⟩ := Reader.at_of_reopen hfit hreopen
    have hsame : Scanner.Twins id alloc alloc t.scanner t.scanner := .refl alloc hat
    refine ⟨?_, fun keys ↦ ?_, ?_⟩
    · exact ⟨t.pass f.rows state, t.pass f.recorded.rows (state, []), t,
        Reader.startRows_of_reopen f state hreopen,
        Reader.startRows_of_reopen f.recorded (state, []) hreopen,
        Pass.tracks_of_twins rfl f.follows_recorded_rows rfl
          ⟨f.extends_recorded_rows, rfl, rfl, fun _ ↦ hsame⟩ rfl fun _ ↦ hsame⟩
    · exact ⟨t.pass (f.records keys) state, t.pass (f.recorded.records keys) (state, []), t,
        Reader.startRecordsUnder_of_reopen f state keys hreopen,
        Reader.startRecordsUnder_of_reopen f.recorded (state, []) keys hreopen,
        Pass.tracks_of_twins rfl (f.follows_recorded_records keys) rfl
          ⟨f.extends_recorded_records keys, rfl, rfl, fun _ ↦ hsame⟩ rfl fun _ ↦ hsame⟩
    · intro under q t' hq
      obtain ⟨u, keys, hreopen', hb, hheader, hkeys, rfl, hlog⟩ :=
        Reader.startRecords_congr hq f.recorded (state, [])
      rw [hreopen] at hreopen'
      cases hreopen'
      obtain ⟨hsound, hempty, -⟩ := Buffer.create_eq_ok hb
      rw [hkeys]
      exact ⟨_, hlog, Reader.tracks_of_readHeader hat hsound hempty hheader f state⟩

/-- Two rows, the second of them cut off behind its first field, and an assembler that makes
lengths: the pass over rows keeps to the plain rows. -/
theorem calls_follow_rows_of_cut_row :
    let script : Script Unit := ⟨[.ok 97, .ok 10, .ok 98, .ok 44, .ok 99, .error ()]⟩
    let origin : SuccessiveOrigin (Script Unit) Unit := ⟨.ok script, [], 0⟩
    let f := Assembler.lengths
    ∃ (r t t' : Reader (SuccessiveOrigin (Script Unit) Unit) (Script Unit))
      (p : Pass (Script Unit) Unit (List (List UInt8)) (List (List UInt8)))
      (q : Pass (Script Unit) Unit (List Nat) (List Nat))
      (log : Pass (Script Unit) (Unit × List (Call Nat (List Nat) (List (List UInt8 × Nat))))
        (List Nat) (List Nat)),
      Reader.create (ε := Unit) .unlimited origin {} = .ok r ∧
        r.startRows Assembler.standard () = .ok p t ∧ r.startRows f () = .ok q t' ∧
        r.startRows f.recorded ((), []) = .ok log t' ∧
        p.Tracks .unlimited q log f.assembleRow () := by
  intro script origin f
  obtain ⟨r, hr, horigin, hfit⟩ := Reader.create_of_validate (σ := Script Unit) (ε := Unit)
    (d := {}) (Allocator.grantsFor_unlimited 0) rfl origin
  have ho : Origin.openSource r.origin = (.ok script, SuccessiveOrigin.mk (.ok script) [] 1) := by
    rw [horigin]
    rfl
  have hgives : Source.Gives script [97, 10, 98, 44, 99] (.failure ()) :=
    Script.gives_failure [97, 10, 98, 44, 99] () []
  obtain ⟨p, t, hp, -⟩ := Reader.startRows_of_gives Assembler.standard () hfit ho hgives
    (.inl (by decide)) (by decide)
  obtain ⟨-, hstarted⟩ := calls_follow_rows .unlimited .unlimited origin {} r [] f () hr
  obtain ⟨⟨q, log, t', hq, hlog, htracks⟩, -⟩ := hstarted p t hp
  exact ⟨r, t, t', p, q, log, hr, hp, hq, hlog, htracks⟩

end Delimited
