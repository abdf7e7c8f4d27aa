import Delimited.Proofs.History
import Mathlib.Data.List.Induction

/-!
# What closing releases

A source that has been opened is held until the reader is closed, whatever becomes of the passes in
between. Once the reader is closed it holds nothing, and holds nothing again until a source is
opened: a start that opens none does not touch the buffers either. So the answer of closing can be
told from the history alone.
-/

namespace Delimited

variable {π σ ε : Type} [Source σ ε] {d : Dialect}

namespace Scanner

theorem attached_consume {s : Scanner σ} (h : s.source.isSome = true) :
    Always (fun t : Scanner σ ↦ t.source.isSome = true) (consume s) := by
  obtain ⟨source, hs⟩ := Option.isSome_iff_exists.mp h
  unfold consume
  rw [hs]
  dsimp only
  split
  · rfl
  · rfl
  · rfl

/-- Scanning does not give up the source. -/
theorem preserved_attached :
    Preserved (σ := σ) (fun s ↦ s.source.isSome = true) fun _ _ ↦ True where
  note h _ := h
  clear h := h
  push h _ := h
  refused h _ _ := ⟨h, trivial⟩
  consume h _ := (attached_consume h).ends

end Scanner

namespace Reader

/-- There is nothing left to give up. -/
structure Released (r : Reader π σ) : Prop where
  source : r.scanner.source = none
  ahead : r.scanner.ahead = none
  field : r.scanner.field = .unallocated
  keyBuffer : r.keyBuffer = .unallocated

/-- There is a source, or a buffer for a field. -/
def Holds (r : Reader π σ) : Prop :=
  r.scanner.source.isSome = true ∨ r.scanner.field.isAllocated = true

variable [Origin π σ ε] {r : Reader π σ}

/-- Whether the operation opens a source. A start tries to, and may fail. -/
def opens (r : Reader π σ) (operation : Operation) : Bool :=
  operation.startsPass && (Origin.openSource r.origin).1.isOk

/-- Whether an operation of the history opens a source. -/
def opensIn (r : Reader π σ) : List Operation → Bool
  | [] => false
  | operation :: history => r.opens operation || (r.perform operation).opensIn history

/-- The reader is closed at some point of the history, and opens no source from then on. -/
def StaysClosed (r : Reader π σ) (history : List Operation) : Prop :=
  ∃ earlier later, history = earlier ++ .close :: later ∧
    (r.run (earlier ++ [.close])).opensIn later = false

section Histories

theorem opensIn_append_singleton (r : Reader π σ) (history : List Operation) (last : Operation) :
    r.opensIn (history ++ [last]) = (r.opensIn history || (r.run history).opens last) := by
  induction history generalizing r with
  | nil => exact Bool.or_false _
  | cons operation history ih =>
    rw [List.cons_append, opensIn, ih, opensIn, Bool.or_assoc]
    rfl

theorem not_staysClosed_nil : ¬ r.StaysClosed [] := by
  rintro ⟨earlier, later, h, -⟩
  simp at h

theorem staysClosed_append_close (history : List Operation) :
    r.StaysClosed (history ++ [.close]) :=
  ⟨history, [], rfl, rfl⟩

/-- A start leaves the reader closed if it was closed, unless a source is opened. -/
theorem staysClosed_append_iff {history : List Operation} {last : Operation}
    (hlast : last.startsPass = true) :
    r.StaysClosed (history ++ [last]) ↔
      r.StaysClosed history ∧ (r.run history).opens last = false := by
  constructor
  · rintro ⟨earlier, later, hsplit, hopens⟩
    rcases List.eq_nil_or_concat later with rfl | ⟨later, operation, rfl⟩
    · obtain ⟨-, hclose⟩ := List.append_inj' hsplit rfl
      cases hclose
      cases hlast
    · rw [List.concat_eq_append] at hsplit hopens
      rw [← List.cons_append, ← List.append_assoc] at hsplit
      obtain ⟨rfl, hsame⟩ := List.append_inj' hsplit rfl
      cases hsame
      rw [opensIn_append_singleton, Bool.or_eq_false_iff] at hopens
      obtain ⟨hnone, hopens⟩ := hopens
      refine ⟨⟨earlier, later, rfl, hnone⟩, ?_⟩
      rwa [← run_append, List.append_assoc] at hopens
  · rintro ⟨⟨earlier, later, rfl, hnone⟩, hopens⟩
    refine ⟨earlier, later ++ [last], List.append_assoc _ _ _, ?_⟩
    rw [opensIn_append_singleton, hnone, ← run_append, List.append_assoc]
    exact hopens

end Histories

section Steps

/-- Where the source can be opened, it is held, even if it cannot be read. -/
theorem attached_reopen (ho : (Origin.openSource r.origin).1.isOk = true) :
    Always (fun t ↦ t.origin = (Origin.openSource r.origin).2 ∧ t.scanner.source.isSome = true)
      r.reopen := by
  have hattached (source : σ) (s : Scanner σ) :
      Always (fun t : Scanner σ ↦ t.source.isSome = true) (Scanner.attach source s) :=
    Scanner.attached_consume rfl
  have hreopens := r.reopen_cases
  generalize r.reopen = outcome at hreopens ⊢
  cases hreopens with
  | unopened ho' =>
    rw [ho'] at ho
    cases ho
  | unread ho ha => exact ⟨by rw [ho], (hattached _ _).of_error ha⟩
  | opened ho ha => exact ⟨by rw [ho], (hattached _ _).of_ok ha⟩

/-- Of a start that opens no source nothing comes but that it is announced, that the origin moves on
and that the keys are given up. -/
theorem perform_of_not_opens {operation : Operation} (hstarts : operation.startsPass = true)
    (ho : r.opens operation = false) :
    r.perform operation =
      { origin := (Origin.openSource r.origin).2
        scanner := r.announced
        keyBuffer := r.keyBuffer.free } := by
  cases operation with
  | close => cases hstarts
  | pass mode alloc assembler state requests =>
    cases hopened : (Origin.openSource r.origin).1 with
    | ok source =>
      rw [opens, hopened] at ho
      cases ho
    | error cause =>
      rw [perform, start_of_reopen_eq_error assembler state alloc (reopen_of_refused hopened)]

/-- A reader that has opened a source holds it at the end of the pass. -/
theorem holds_of_opens {operation : Operation} (ho : r.opens operation = true) :
    (r.perform operation).Holds := by
  obtain ⟨hstarts, ho⟩ := Bool.and_eq_true_iff.mp ho
  cases operation with
  | close => cases hstarts
  | pass mode alloc assembler state requests =>
    have hstart : Always (fun t ↦ _ ∧ t.scanner.source.isSome = true)
        (r.start alloc mode assembler state) :=
      always_start assembler state Scanner.preserved_attached (attached_reopen ho) mode
    left
    unfold perform
    dsimp only
    cases hs : r.start alloc mode assembler state with
    | error e t => exact (hstart.of_error hs).2
    | ok started t =>
      apply Scanner.preserved_attached.take
      rw [scanner_of_start assembler state hs]
      exact (hstart.of_ok hs).2

/-- Without opening a source a start makes a reader hold nothing. -/
theorem Released.of_not_opens {operation : Operation} (h : r.Released)
    (hstarts : operation.startsPass = true) (ho : r.opens operation = false) :
    (r.perform operation).Released := by
  rw [perform_of_not_opens hstarts ho, announced, Scanner.foldl_note_eq, h.keyBuffer]
  exact ⟨h.source, h.ahead, h.field, rfl⟩

theorem Holds.of_not_opens {operation : Operation} (h : r.Holds)
    (hstarts : operation.startsPass = true) (ho : r.opens operation = false) :
    (r.perform operation).Holds := by
  rw [perform_of_not_opens hstarts ho, announced, Scanner.foldl_note_eq]
  exact h

/-- A reader whose buffers are sound holds nothing once it is closed. -/
theorem released_close (hfield : r.scanner.field.isSound = true)
    (hkeys : r.keyBuffer.isSound = true) : r.close.2.Released :=
  ⟨rfl, rfl, Buffer.free_eq_unallocated hfield, Buffer.free_eq_unallocated hkeys⟩

/-- Closing has nothing to give up and, but for the note of it, no effect. -/
theorem Released.close_eq (h : r.Released) :
    r.close = (false, { r with scanner := r.scanner.note (.sourceClosed false) }) := by
  obtain ⟨origin, ⟨dialect, source, ahead, field, journal⟩, keyBuffer⟩ := r
  obtain ⟨rfl, rfl, rfl, rfl⟩ := h
  rfl

theorem Holds.close_fst (h : r.Holds) : r.close.1 = true := by
  unfold close Scanner.close
  rcases h with h | h
  · simp [h]
  · simp [h]

/-- No use of a reader leaves the buffer of the keys unsound. -/
theorem sound_perform (h : r.scanner.InOrder d) (hk : r.keyBuffer.isSound = true)
    (operation : Operation) : (r.perform operation).keyBuffer.isSound = true := by
  cases operation with
  | close => exact Buffer.isSound_free hk
  | pass mode alloc assembler state requests =>
    have hreopened := reopened_reopen h
    have hfreed : Always (fun t : Reader π σ ↦ t.keyBuffer.isSound = true) r.reopen :=
      (keyBuffer_reopen r).imp fun t ht ↦ ht ▸ Buffer.isSound_free hk
    have hstarts := r.start_cases assembler state alloc mode
    unfold perform
    dsimp only
    generalize r.start alloc mode assembler state = outcome at hstarts ⊢
    cases hstarts with
    | unopened hr => exact hfreed.of_error hr
    | rows hr =>
      have hsound := hfreed.of_ok hr
      exact hsound
    | recordsUnder hr =>
      have hsound := hfreed.of_ok hr
      exact hsound
    | withoutBuffer hr => exact hfreed.of_ok hr
    | withoutHeader hr hb hheader =>
      obtain ⟨-, hread⟩ :=
        ((Scanner.preserved_inOrder d).readHeader (hreopened.of_ok hr).scanner _).of_error hheader
      exact Buffer.isSound_free (hread (Buffer.create_eq_ok hb).1)
    | records hr hb hheader =>
      obtain ⟨-, hread⟩ :=
        ((Scanner.preserved_inOrder d).readHeader (hreopened.of_ok hr).scanner _).of_ok hheader
      exact hread (Buffer.create_eq_ok hb).1

theorem sound_run (h : r.scanner.InOrder d) (hk : r.keyBuffer.isSound = true)
    (history : List Operation) : (r.run history).keyBuffer.isSound = true := by
  induction history generalizing r with
  | nil => exact hk
  | cons operation history ih => exact ih (inOrder_perform h operation).1 (sound_perform h hk _)

end Steps

/-- Whether an operation opens a source depends on how many starts came before it, and on nothing
else. -/
theorem opens_run (h : r.scanner.InOrder d) (history : List Operation) (last : Operation) :
    (r.run history).opens last =
      (last.startsPass &&
        (Origin.openSource (Origin.reopened (history.countP Operation.startsPass) r.origin)).1.isOk)
    := by
  rw [opens, (inOrder_run h history).2]

/-- After any history a reader that holds something to begin with holds nothing just when it stays
closed. -/
theorem released_or_holds_run (h : r.scanner.InOrder d) (hk : r.keyBuffer.isSound = true)
    (hr : r.Holds) (history : List Operation) :
    r.StaysClosed history ∧ (r.run history).Released ∨
      ¬ r.StaysClosed history ∧ (r.run history).Holds := by
  induction history using List.reverseRecOn with
  | nil => exact .inr ⟨not_staysClosed_nil, hr⟩
  | append_singleton history last ih =>
    rw [run_append_singleton]
    cases hlast : last.startsPass with
    | false =>
      obtain rfl : last = .close := by
        cases last with
        | close => rfl
        | pass => cases hlast
      have hfield := (inOrder_run h history).1.field.sound
      exact .inl ⟨staysClosed_append_close history, released_close hfield (sound_run h hk history)⟩
    | true =>
      rw [staysClosed_append_iff hlast]
      cases ho : (r.run history).opens last with
      | true => exact .inr ⟨nofun, holds_of_opens ho⟩
      | false =>
        obtain ⟨hclosed, hreleased⟩ | ⟨hopen, hholds⟩ := ih
        · exact .inl ⟨⟨hclosed, rfl⟩, hreleased.of_not_opens hlast ho⟩
        · exact .inr ⟨fun h ↦ hopen h.1, hholds.of_not_opens hlast ho⟩

omit [Origin π σ ε] [Source σ ε] in
/-- A new reader has a buffer for a field, and none for keys. -/
theorem holds_of_create {alloc : Allocator} {origin : π}
    (h : create (ε := ε) alloc origin d = .ok r) : r.Holds ∧ r.keyBuffer = .unallocated := by
  obtain ⟨scanner, hs, rfl⟩ := eq_of_create h
  obtain ⟨field, hb, rfl⟩ := Scanner.eq_of_create hs
  exact ⟨.inr (Buffer.isAllocated_of_create hb), rfl⟩

end Reader

/-- Closing a reader finds nothing to give up just where the reader has been closed before and has
not opened a source since. Behind it there is no source and no byte in view, the buffers for the
field and the keys are without storage, and no keys are kept; so closing again at once finds
nothing, and has no effect but the note of it. -/
theorem close_reports_releases [Origin π σ ε] (alloc₀ : Allocator) (origin : π) (r : Reader π σ)
    (hr : Reader.create (ε := ε) alloc₀ origin d = .ok r) (history : List Operation) :
    ((r.run history).close.1 = false ↔ r.StaysClosed history) ∧
      let closed := r.run (history ++ [.close])
      closed.scanner.source = none ∧ closed.scanner.ahead = none ∧
        closed.scanner.field = .unallocated ∧ closed.keyBuffer = .unallocated ∧
        closed.keys = [] ∧
        closed.close = (false, { closed with scanner := closed.scanner.note (.sourceClosed false) })
    := by
  obtain ⟨hscanner, -, -⟩ := Reader.inOrder_of_create hr
  obtain ⟨hholds, hkeys⟩ := Reader.holds_of_create hr
  have hsound : r.keyBuffer.isSound = true := by rw [hkeys, Buffer.isSound_unallocated]
  have hrun := Reader.released_or_holds_run hscanner hsound hholds
  constructor
  · obtain ⟨hclosed, hreleased⟩ | ⟨hopen, hheld⟩ := hrun history
    · rw [hreleased.close_eq]
      exact iff_of_true rfl hclosed
    · rw [hheld.close_fst]
      exact iff_of_false nofun hopen
  · intro closed
    have hreleased : closed.Released := by
      obtain ⟨-, h⟩ | ⟨hopen, -⟩ := hrun (history ++ [.close])
      · exact h
      · exact absurd (Reader.staysClosed_append_close history) hopen
    refine ⟨hreleased.source, hreleased.ahead, hreleased.field, hreleased.keyBuffer, ?_,
      hreleased.close_eq⟩
    rw [Reader.keys, hreleased.keyBuffer]
    rfl

/-- A start that opens nothing leaves a closed reader with nothing to give up. The next one opens a
source that fails at its first read: no pass comes of it, but there is something to give up. -/
theorem close_reports_releases_of_failing_openings :
    let origin : SuccessiveOrigin (Script Unit) Unit :=
      ⟨.error (), [.error (), .ok ⟨[.error ()]⟩], 0⟩
    let rows : Operation := .pass .rows .unlimited Assembler.standard () 2
    ∃ r : Reader (SuccessiveOrigin (Script Unit) Unit) (Script Unit),
      Reader.create (ε := Unit) .unlimited origin {} = .ok r ∧ (r.run [rows]).close.1 = true ∧
        (r.run [rows, .close, rows]).close.1 = false ∧
        (r.run [rows, .close, rows, rows]).close.1 = true ∧
        (r.run [rows, .close, rows, rows, .close]).close.1 = false := by
  intro origin rows
  obtain ⟨r, hr, -⟩ := Reader.create_of_validate (σ := Script Unit) (ε := Unit) (d := {})
    (Allocator.grantsFor_unlimited 0) rfl origin
  obtain ⟨hscanner, horigin, -⟩ := Reader.inOrder_of_create hr
  have hcloses (history : List Operation) :=
    (close_reports_releases .unlimited origin r hr history).1
  have hstarts : rows.startsPass = true := rfl
  have hclosed : r.StaysClosed [rows, .close, rows] := by
    refine (Reader.staysClosed_append_iff hstarts).mpr ⟨Reader.staysClosed_append_close [rows], ?_⟩
    rw [Reader.opens_run hscanner, horigin]
    rfl
  refine ⟨r, hr, ?_, (hcloses _).mpr hclosed, ?_, ?_⟩
  · rw [← Bool.not_eq_false, hcloses]
    intro h
    exact Reader.not_staysClosed_nil ((Reader.staysClosed_append_iff hstarts).mp h).1
  · rw [← Bool.not_eq_false, hcloses]
    intro h
    have hlast : r.StaysClosed ([rows, .close, rows] ++ [rows]) := h
    obtain ⟨-, hopens⟩ := (Reader.staysClosed_append_iff hstarts).mp hlast
    rw [Reader.opens_run hscanner, horigin] at hopens
    cases hopens
  · exact (hcloses _).mpr (Reader.staysClosed_append_close [rows, .close, rows, rows])

end Delimited
