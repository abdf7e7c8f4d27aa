import Delimited.Proofs.Doubling
import Delimited.Proofs.Preservation
import Delimited.Proofs.Starting
import Delimited.Reader.History

/-!
# What lasts through every use

Whatever is done with a reader, and however it ends, its scanner stays in the dialect with a field
buffer that has grown by doubling. The source is opened once for every pass that is started, and for
nothing else.
-/

namespace Delimited

/-- Whether an operation succeeds or fails, it ends in such a state. -/
def Always {ε τ α : Type} (holds : τ → Prop) : EStateM.Result ε τ α → Prop
  | .ok _ t => holds t
  | .error _ t => holds t

section Always

variable {ε τ α : Type} {holds : τ → Prop} {result : EStateM.Result ε τ α} {t : τ}

theorem Always.of_ok {a : α} (h : Always holds result) (hr : result = .ok a t) : holds t := by
  rw [hr] at h
  exact h

theorem Always.of_error {e : ε} (h : Always holds result) (hr : result = .error e t) : holds t := by
  rw [hr] at h
  exact h

theorem Always.imp {holds' : τ → Prop} (h : Always holds result)
    (himp : ∀ t, holds t → holds' t) : Always holds' result := by
  cases result with
  | ok a t => exact himp t h
  | error e t => exact himp t h

theorem Always.ends (h : Always holds result) : Ends holds (fun _ _ ↦ True) result := by
  cases result with
  | ok a t => exact h
  | error e t => exact ⟨h, trivial⟩

theorem Ends.always {failed : ε → τ → Prop} (h : Ends holds failed result) :
    Always holds result := by
  cases result with
  | ok a t => exact h
  | error e t => exact h.1

end Always

variable {π σ ε φ Field Row Keyed ρ γ β : Type} [Source σ ε] {alloc : Allocator} {d : Dialect}

/-- Whether a key is added or refused its room, the buffer of the keys stays sound. -/
theorem sound_addKey (key : List UInt8) (keys : Buffer (List UInt8)) :
    Always (fun keys' : Buffer (List UInt8) ↦ keys.isSound = true → keys'.isSound = true)
      (addKey alloc key keys) := by
  unfold addKey
  split
  · exact id
  · cases hp : Buffer.push alloc key keys with
    | ok u keys' => exact fun hk ↦ (Buffer.push_eq_ok hp hk).1
    | error e keys' =>
      rw [Buffer.eq_of_push_eq_error hp]
      exact id

namespace Scanner.Preserved

variable {holds : Scanner σ → Prop} {failed : ReadError ε → Scanner σ → Prop} {s : Scanner σ}

/-- Reading a row preserves the condition, and keeps what the taking of every field keeps. -/
theorem readRow (hp : Preserved holds failed) {keeps : β → Prop}
    {take : List UInt8 → β → EStateM.Result GrowthError β Unit}
    (htake : ∀ bytes taken, keeps taken → Always keeps (take bytes taken)) (h : holds s)
    (fields : Nat) {taken : β} (hk : keeps taken) :
    Always (fun t : Scanner σ × β ↦ holds t.1 ∧ keeps t.2)
      (Scanner.readRow alloc take fields s taken) := by
  fun_induction Scanner.readRow alloc take fields s taken with
  | case1 fields s taken e t hf => exact ⟨((hp.readField h).of_error hf).1, hk⟩
  | case2 fields s taken t hf e lost ht =>
    exact ⟨(hp.readField h).of_ok hf, (htake _ _ hk).of_error ht⟩
  | case3 fields s taken t hf next ht =>
    exact ⟨(hp.readField h).of_ok hf, (htake _ _ hk).of_ok ht⟩
  | case4 fields s taken t hf e lost ht =>
    exact ⟨(hp.readField h).of_ok hf, (htake _ _ hk).of_error ht⟩
  | case5 fields s taken t hf next ht ih =>
    exact ih ((hp.readField h).of_ok hf) ((htake _ _ hk).of_ok ht)

/-- Reading the keys preserves the condition, and keeps the buffer of the keys sound. -/
theorem readHeader (hp : Preserved holds failed) (h : holds s) (keys : Buffer (List UInt8)) :
    Always (fun t : Scanner σ × Buffer (List UInt8) ↦
        holds t.1 ∧ (keys.isSound = true → t.2.isSound = true))
      (Scanner.readHeader alloc s keys) := by
  unfold Scanner.readHeader
  split
  · next ht => exact ⟨((hp.skipBlankLines h).of_error ht).1, id⟩
  · next t ht =>
    have hskipped : holds t := (hp.skipBlankLines h).of_ok ht
    have hrow : Always (fun u ↦ holds u.1 ∧ (keys.isSound = true → u.2.isSound = true))
        (t.readRow alloc (addKey alloc) 0 keys) :=
      hp.readRow (fun key taken hk ↦ (sound_addKey key taken).imp fun _ h ↦ h ∘ hk) hskipped 0 id
    split
    · exact ⟨hskipped, id⟩
    · split
      · next hr => exact hrow.of_error hr
      · next hr =>
        obtain ⟨hread, hsound⟩ := hrow.of_ok hr
        exact ⟨hp.note hread _, hsound⟩

/-- A pass preserves the condition, whatever the answer to a request is. -/
theorem next (hp : Preserved holds failed) {p : Pass σ φ ρ γ} (h : holds p.scanner) :
    holds (p.next alloc).2.scanner := by
  unfold Pass.next
  split
  · exact h
  · unfold Pass.readRow
    split
    · next ht => exact ((hp.skipBlankLines h).of_error ht).1
    · next t ht =>
      have hskipped : holds t := (hp.skipBlankLines h).of_ok ht
      have hplaced : ∀ bytes row, True → Always (fun _ ↦ True) (Pass.placing p.builder bytes row) :=
        fun _ _ _ ↦ trivial
      have hrow : Always (fun u ↦ holds u.1 ∧ True)
          (t.readRow alloc (Pass.placing p.builder) 0 (p.builder.start p.state)) :=
        hp.readRow hplaced hskipped 0 trivial
      split
      · exact hskipped
      · split
        · next hr => exact (hrow.of_error hr).1
        · next hr => exact hp.note (hrow.of_ok hr).1 _

/-- So does a pass over any number of requests. -/
theorem take (hp : Preserved holds failed) {p : Pass σ φ ρ γ} (h : holds p.scanner) (n : Nat) :
    holds (p.take alloc n).2.scanner := by
  induction n generalizing p with
  | zero => exact h
  | succ n ih => exact ih (hp.next h)

end Scanner.Preserved

namespace Scanner

/-- The scanner is of the dialect, and its field has grown by doubling. -/
structure InOrder (s : Scanner σ) (d : Dialect) : Prop where
  dialect : s.dialect = d
  field : s.field.Doubled

theorem InOrder.fit {s : Scanner σ} (h : s.InOrder d) : s.Fit d := ⟨h.dialect, h.field.sound⟩

/-- A scanner that differs in nothing else is in order as well. -/
theorem InOrder.of_eq {s t : Scanner σ} (h : s.InOrder d) (hd : t.dialect = s.dialect)
    (hf : t.field = s.field) : t.InOrder d :=
  ⟨hd.trans h.dialect, hf ▸ h.field⟩

omit [Source σ ε] in
/-- A new scanner has a buffer for a field, and nothing else. -/
theorem eq_of_create {s : Scanner σ} (h : create alloc d = .ok s) :
    ∃ field, Buffer.create alloc 1 = .ok field ∧ s = { dialect := d, field } := by
  unfold create at h
  cases hb : Buffer.create (α := UInt8) alloc 1 with
  | error e =>
    rw [hb] at h
    cases h
  | ok field =>
    rw [hb] at h
    cases h
    exact ⟨field, rfl, rfl⟩

omit [Source σ ε] in
/-- A new scanner is in order. -/
theorem inOrder_of_create {s : Scanner σ} (h : create alloc d = .ok s) : s.InOrder d := by
  obtain ⟨field, hb, rfl⟩ := eq_of_create h
  exact ⟨rfl, Buffer.doubled_of_create (n := 0) (by decide) hb⟩

theorem InOrder.close {s : Scanner σ} (h : s.InOrder d) : s.close.2.InOrder d :=
  ⟨h.dialect, h.field.free⟩

theorem InOrder.foldl_note {s : Scanner σ} (h : s.InOrder d) (events : List Event) :
    (events.foldl note s).InOrder d := by
  rw [foldl_note_eq]
  exact h.of_eq rfl rfl

theorem InOrder.consume {s : Scanner σ} (h : s.InOrder d) :
    Always (InOrder · d) (Scanner.consume s) := by
  unfold Scanner.consume
  split
  · exact h.of_eq rfl rfl
  · split
    · exact h.of_eq rfl rfl
    · exact h.of_eq rfl rfl
    · exact h.of_eq rfl rfl

theorem InOrder.attach {s : Scanner σ} (h : s.InOrder d) (source : σ) :
    Always (InOrder · d) (Scanner.attach source s) :=
  InOrder.consume ⟨h.dialect, h.field.clear⟩

/-- Every step of scanning keeps the scanner in order. -/
theorem preserved_inOrder (d : Dialect) : Preserved (σ := σ) (InOrder · d) fun _ _ ↦ True where
  note h _ := h.of_eq rfl rfl
  clear h := ⟨h.dialect, h.field.clear⟩
  push h hp := ⟨h.dialect, h.field.push hp⟩
  refused h _ hp := ⟨h.of_eq rfl (Buffer.eq_of_push_eq_error hp), trivial⟩
  consume h _ := h.consume.ends

theorem InOrder.skipBlankLines {s : Scanner σ} (h : s.InOrder d) :
    Always (InOrder · d) (Scanner.skipBlankLines s) :=
  ((preserved_inOrder d).skipBlankLines h).always

theorem InOrder.readField {s : Scanner σ} (h : s.InOrder d) :
    Always (InOrder · d) (Scanner.readField alloc s) :=
  ((preserved_inOrder d).readField h).always

end Scanner

namespace Reader

omit [Source σ ε] in
/-- A new reader has a new scanner, and no buffer for keys. -/
theorem eq_of_create {origin : π} {r : Reader π σ} (h : create (ε := ε) alloc origin d = .ok r) :
    ∃ scanner, Scanner.create alloc d = .ok scanner ∧ r = { origin, scanner } := by
  unfold create at h
  split at h
  · cases h
  · split at h
    · cases h
    · next scanner hs =>
      cases h
      exact ⟨scanner, hs, rfl⟩

omit [Source σ ε] in
/-- A new reader is in order, and has no keys. -/
theorem inOrder_of_create {origin : π} {r : Reader π σ}
    (h : create (ε := ε) alloc origin d = .ok r) :
    r.scanner.InOrder d ∧ r.origin = origin ∧ r.keys = [] := by
  obtain ⟨scanner, hs, rfl⟩ := eq_of_create h
  exact ⟨Scanner.inOrder_of_create hs, rfl, rfl⟩

variable [Origin π σ ε] {r : Reader π σ}

/-- The scanner once the opening is announced. -/
def announced (r : Reader π σ) : Scanner σ :=
  (Origin.announcement r.origin).foldl Scanner.note r.scanner

/-- All that opening the source again can come to. -/
inductive Reopens (r : Reader π σ) : EStateM.Result (ReadError ε) (Reader π σ) Unit → Prop where
  | unopened {cause : ε} {origin : π} (ho : Origin.openSource r.origin = (.error cause, origin)) :
      Reopens r (.error (.opening cause)
        { origin, scanner := r.announced, keyBuffer := r.keyBuffer.free })
  /-- The source fails at its first read. -/
  | unread {source : σ} {origin : π} {e : ReadError ε} {scanner : Scanner σ}
      (ho : Origin.openSource r.origin = (.ok source, origin))
      (ha : Scanner.attach source (r.announced.note .sourceRewound) = .error e scanner) :
      Reopens r (.error e { origin, scanner, keyBuffer := r.keyBuffer.free })
  | opened {source : σ} {origin : π} {scanner : Scanner σ}
      (ho : Origin.openSource r.origin = (.ok source, origin))
      (ha : Scanner.attach source (r.announced.note .sourceRewound) = .ok () scanner) :
      Reopens r (.ok () { origin, scanner, keyBuffer := r.keyBuffer.free })

theorem reopen_cases (r : Reader π σ) : Reopens r r.reopen := by
  unfold reopen
  split
  · next ho => exact .unopened ho
  · next ho =>
    dsimp only
    split
    · next ha => exact .unread ho ha
    · next ha => exact .opened ho ha

/-- A source that cannot be opened is announced, and the keys are given up. Nothing else is done. -/
theorem reopen_of_refused {cause : ε} (ho : (Origin.openSource r.origin).1 = .error cause) :
    r.reopen = .error (.opening cause)
      { origin := (Origin.openSource r.origin).2
        scanner := r.announced
        keyBuffer := r.keyBuffer.free } := by
  have hreopens := r.reopen_cases
  generalize r.reopen = outcome at hreopens ⊢
  cases hreopens with
  | unopened ho' =>
    rw [ho'] at ho ⊢
    cases ho
    rfl
  | unread ho' =>
    rw [ho'] at ho
    cases ho
  | opened ho' =>
    rw [ho'] at ho
    cases ho

/-- The keys of the pass before are given up whether the source can be opened again or not. -/
theorem keyBuffer_reopen (r : Reader π σ) :
    Always (fun t : Reader π σ ↦ t.keyBuffer = r.keyBuffer.free) r.reopen := by
  have hreopens := r.reopen_cases
  generalize r.reopen = outcome at hreopens ⊢
  cases hreopens with
  | unopened => rfl
  | unread => rfl
  | opened => rfl

/-- What lasts through a start: the scanner is in order, and the source has been opened once. -/
structure Reopened (d : Dialect) (r t : Reader π σ) : Prop where
  origin : t.origin = (Origin.openSource r.origin).2
  scanner : t.scanner.InOrder d

/-- The source is opened once, even if that fails or the source cannot be read. -/
theorem reopened_reopen (h : r.scanner.InOrder d) : Always (Reopened d r) r.reopen := by
  have hannounced : r.announced.InOrder d := h.foldl_note (Origin.announcement r.origin)
  have hnoted : (r.announced.note .sourceRewound).InOrder d := hannounced.of_eq rfl rfl
  have hreopens := r.reopen_cases
  generalize r.reopen = outcome at hreopens ⊢
  cases hreopens with
  | unopened ho => exact ⟨by rw [ho], hannounced⟩
  | unread ho ha => exact ⟨by rw [ho], (hnoted.attach _).of_error ha⟩
  | opened ho ha => exact ⟨by rw [ho], (hnoted.attach _).of_ok ha⟩

/-- All that a start can come to. -/
inductive Starts (alloc : Allocator) (assembler : Assembler φ Field Row Keyed) (state : φ)
    (r : Reader π σ) : {ρ γ : Type} → Mode Row Keyed ρ γ →
      EStateM.Result (ReadError ε) (Reader π σ) (Option RecordKeys × Pass σ φ ρ γ) → Prop where
  /-- The source cannot be read again from the beginning. -/
  | unopened {ρ γ : Type} {mode : Mode Row Keyed ρ γ} {e : ReadError ε} {t : Reader π σ}
      (hr : r.reopen = .error e t) : Starts alloc assembler state r mode (.error e t)
  | rows {t : Reader π σ} (hr : r.reopen = .ok () t) :
      Starts alloc assembler state r .rows (.ok (none, t.pass assembler.rows state) t)
  | recordsUnder {t : Reader π σ} {keys : List (List UInt8)} (hr : r.reopen = .ok () t) :
      Starts alloc assembler state r (.recordsUnder keys)
        (.ok (some ⟨keys, false⟩, t.pass (assembler.records keys) state) t)
  /-- There is no memory for any key. -/
  | withoutBuffer {t : Reader π σ} {e : GrowthError} (hr : r.reopen = .ok () t)
      (hb : Buffer.create (α := List UInt8) alloc 2 = .error e) :
      Starts alloc assembler state r .records (.error (.buffer e) t)
  /-- The keys that have been read by then are given up. -/
  | withoutHeader {t : Reader π σ} {keys lost : Buffer (List UInt8)} {s : Scanner σ}
      {e : ReadError ε} (hr : r.reopen = .ok () t) (hb : Buffer.create alloc 2 = .ok keys)
      (hheader : t.scanner.readHeader alloc keys = .error e (s, lost)) :
      Starts alloc assembler state r .records
        (.error e { t with scanner := s, keyBuffer := lost.free })
  | records {t u : Reader π σ} {keys : Buffer (List UInt8)} (hr : r.reopen = .ok () t)
      (hb : Buffer.create alloc 2 = .ok keys)
      (hheader : t.scanner.readHeader alloc keys = .ok () (u.scanner, u.keyBuffer))
      (horigin : u.origin = t.origin) :
      Starts alloc assembler state r .records
        (.ok (some ⟨u.keys, true⟩, u.pass (assembler.records u.keys) state) u)

variable (assembler : Assembler φ Field Row Keyed) (state : φ)
  {holds : Scanner σ → Prop} {failed : ReadError ε → Scanner σ → Prop}

/-- No pass starts where the source cannot be read from its beginning, in whatever mode. -/
theorem start_of_reopen_eq_error (alloc : Allocator) {e : ReadError ε} {t : Reader π σ}
    (hr : r.reopen = .error e t) (mode : Mode Row Keyed ρ γ) :
    r.start alloc mode assembler state = .error e t := by
  obtain ⟨hrows, hunder, hrecords⟩ := start_of_reopen_error assembler state alloc hr
  cases mode with
  | rows => rw [start, hrows]
  | recordsUnder keys => rw [start, hunder]
  | records => rw [start, hrecords]

theorem start_cases (alloc : Allocator) (mode : Mode Row Keyed ρ γ) :
    Starts alloc assembler state r mode (r.start alloc mode assembler state) := by
  cases hr : r.reopen with
  | error e t =>
    rw [start_of_reopen_eq_error assembler state alloc hr]
    exact .unopened hr
  | ok v t =>
    cases mode with
    | rows =>
      rw [start, startRows_of_reopen assembler state hr]
      exact .rows hr
    | recordsUnder keys =>
      rw [start, startRecordsUnder_of_reopen assembler state keys hr]
      exact .recordsUnder hr
    | records =>
      rw [start, startRecords, hr]
      dsimp only
      cases hb : Buffer.create (α := List UInt8) alloc 2 with
      | error e => exact .withoutBuffer hr hb
      | ok keys =>
        dsimp only
        cases hheader : t.scanner.readHeader alloc keys with
        | error e cut => exact .withoutHeader hr hb hheader
        | ok w read =>
          let u : Reader π σ := { t with scanner := read.1, keyBuffer := read.2 }
          exact Starts.records (u := u) hr hb hheader rfl

/-- What holds of the scanner where the source has been opened again, or could not be, holds
wherever a start ends if scanning preserves it. The origin is asked for nothing more. -/
theorem always_start (hp : Scanner.Preserved holds failed) {origin : π}
    (hreopen : Always (fun t ↦ t.origin = origin ∧ holds t.scanner) r.reopen)
    (mode : Mode Row Keyed ρ γ) :
    Always (fun t ↦ t.origin = origin ∧ holds t.scanner) (r.start alloc mode assembler state) := by
  have hstarts := r.start_cases assembler state alloc mode
  generalize r.start alloc mode assembler state = outcome at hstarts ⊢
  cases hstarts with
  | unopened hr => exact hreopen.of_error hr
  | rows hr => exact hreopen.of_ok hr
  | recordsUnder hr => exact hreopen.of_ok hr
  | withoutBuffer hr => exact hreopen.of_ok hr
  | withoutHeader hr hb hheader =>
    obtain ⟨horigin, hscanner⟩ := hreopen.of_ok hr
    exact ⟨horigin, ((hp.readHeader hscanner _).of_error hheader).1⟩
  | records hr hb hheader hkept =>
    obtain ⟨horigin, hscanner⟩ := hreopen.of_ok hr
    exact ⟨hkept.trans horigin, ((hp.readHeader hscanner _).of_ok hheader).1⟩

/-- A start opens the source once, whether it succeeds or not. -/
theorem reopened_start (alloc : Allocator) (h : r.scanner.InOrder d) (mode : Mode Row Keyed ρ γ) :
    Always (Reopened d r) (r.start alloc mode assembler state) := by
  have hreopen := (reopened_reopen h).imp fun t ht ↦ And.intro ht.origin ht.scanner
  apply (always_start assembler state (Scanner.preserved_inOrder d) hreopen mode).imp
  rintro t ⟨horigin, hscanner⟩
  exact ⟨horigin, hscanner⟩

/-- A pass begins where the reader stands that has started it. -/
theorem scanner_of_start {mode : Mode Row Keyed ρ γ} {under : Option RecordKeys}
    {p : Pass σ φ ρ γ} {t : Reader π σ}
    (h : r.start alloc mode assembler state = .ok (under, p) t) :
    p.scanner = t.scanner := by
  have hstarts := r.start_cases assembler state alloc mode
  rw [h] at hstarts
  cases hstarts with
  | rows hr => rfl
  | recordsUnder hr => rfl
  | records hr hb hheader horigin => rfl

/-- After any use the scanner is in order, and the source has been opened once if a pass was
started, and not at all otherwise. -/
theorem inOrder_perform (h : r.scanner.InOrder d) (operation : Operation) :
    (r.perform operation).scanner.InOrder d ∧
      (r.perform operation).origin =
        if operation.startsPass then (Origin.openSource r.origin).2 else r.origin := by
  cases operation with
  | close => exact ⟨h.close.of_eq rfl rfl, rfl⟩
  | pass mode alloc assembler state requests =>
    have hreopened := reopened_start assembler state alloc h mode
    unfold perform
    dsimp only
    cases hs : r.start alloc mode assembler state with
    | error e t =>
      obtain ⟨horigin, hscanner⟩ := hreopened.of_error hs
      exact ⟨hscanner, horigin⟩
    | ok started t =>
      obtain ⟨horigin, hscanner⟩ := hreopened.of_ok hs
      refine ⟨(Scanner.preserved_inOrder d).take ?_ requests, horigin⟩
      rw [scanner_of_start assembler state hs]
      exact hscanner

/-- After any history the scanner is in order, and the source has been opened once for every pass
that was started. -/
theorem inOrder_run (h : r.scanner.InOrder d) (history : List Operation) :
    (r.run history).scanner.InOrder d ∧
      (r.run history).origin = Origin.reopened (history.countP Operation.startsPass) r.origin := by
  induction history generalizing r with
  | nil => exact ⟨h, rfl⟩
  | cons operation history ih =>
    obtain ⟨hscanner, horigin⟩ := inOrder_perform h operation
    obtain ⟨hrun, hopened⟩ := ih hscanner
    refine ⟨hrun, hopened.trans ?_⟩
    rw [horigin, List.countP_cons]
    split
    · rfl
    · rfl

end Reader
end Delimited
