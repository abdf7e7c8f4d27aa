import Delimited.Error
import Delimited.Journal
import Delimited.Scan.Phase
import Delimited.Source.Basic

/-!
# The field scanner

A scanner holds a source, one byte of it in view, and a buffer for the field at hand. The byte in
view is the first that is not consumed; without one the stream has ended. Scanning consumes a
field and the delimiter behind it. Every scan ends: a step either consumes the byte in view,
which leaves fewer bytes pending, or leads to a phase of lower rank.
-/

namespace Delimited

/-- How a field was closed: with more fields to follow in its record, or as the last of it.
Specification 10.5, `FieldEnd`. -/
inductive Boundary where
  | field
  | record
  deriving DecidableEq, Repr

/-- Splits a source into fields and records. Specification 4.2 and 10.5, `FieldScanner`. -/
structure Scanner (σ : Type) where
  dialect : Dialect
  /-- What the bytes come from, once there is something. -/
  source : Option σ := none
  /-- The first byte that is not consumed; none at the end of the stream. -/
  ahead : Option UInt8 := none
  /-- The bytes of the field scanned last. -/
  field : Buffer UInt8
  /-- What has happened, earliest first. -/
  journal : Array Event := #[]

namespace Scanner

variable {σ ε : Type}

/-- A scanner without a source, with one slot reserved for a field. Specification 10.5, `new`. -/
def create (alloc : Allocator) (dialect : Dialect) : Except GrowthError (Scanner σ) :=
  (Buffer.create alloc 1).map fun field ↦ { dialect, field }

/-- Enters an event into the journal. -/
def note (s : Scanner σ) (event : Event) : Scanner σ := { s with journal := s.journal.push event }

/-- Whether every byte is consumed. The operation `is_exhausted`. -/
def isAtEnd (s : Scanner σ) : Bool := s.ahead.isNone

/-- Gives up the source and the field buffer, and tells whether there was anything to give up. The
operation `close` of a scanner. -/
def close (s : Scanner σ) : Bool × Scanner σ :=
  (s.source.isSome || s.field.isAllocated,
    { s with source := none, ahead := none, field := s.field.free })

variable [Source σ ε]

/-- Consumes the byte in view and reads the next one. After a failure no byte is in view. The
operation `advance`. -/
def consume (s : Scanner σ) : EStateM.Result (ReadError ε) (Scanner σ) Unit :=
  match s.source with
  | none => .ok () { s with ahead := none }
  | some source =>
    match Source.read source with
    | (.byte b, source) => .ok () { s with source := some source, ahead := some b }
    | (.stop .done, source) => .ok () { s with source := some source, ahead := none }
    | (.stop (.failure cause), source) =>
      .error (.reading cause) { s with source := some source, ahead := none }

/-- Turns to another source and reads its first byte. The operation `reset`. -/
def attach (source : σ) (s : Scanner σ) : EStateM.Result (ReadError ε) (Scanner σ) Unit :=
  consume { s with source := some source, field := s.field.clear }

/-- A bound on the bytes to be consumed: the one in view and those that the source has left. -/
def pending (s : Scanner σ) : Nat :=
  match s.ahead with
  | none => 0
  | some _ =>
    match s.source with
    | none => 1
    | some source => 1 + Source.left source

/-- Without a byte in view none are pending. -/
theorem pending_eq_zero_iff {s : Scanner σ} : s.pending = 0 ↔ s.ahead = none := by
  unfold pending
  split
  · next h => simp [h]
  · next h =>
    rw [h]
    split <;> simp

/-- Consuming the byte in view leaves fewer bytes pending. -/
theorem pending_lt_of_consume {s t : Scanner σ} (h : consume s = .ok () t)
    (hs : s.ahead ≠ none) : t.pending < s.pending := by
  have hpos : 0 < s.pending := Nat.pos_of_ne_zero fun hz ↦ hs (pending_eq_zero_iff.mp hz)
  unfold consume at h
  split at h
  · cases h
    exact hpos
  · next source hsource =>
    split at h
    · next b source' hread =>
      cases h
      have hleft := Source.left_read hread
      unfold pending
      simp only [hsource]
      split
      · next hn => exact absurd hn hs
      · omega
    · cases h
      exact hpos
    · cases h

/-- The same for a scanner whose buffer or journal has changed. -/
theorem pending_lt_of_consume_of_eq {s s' t : Scanner σ} (h : consume s' = .ok () t)
    (hs : s.ahead ≠ none) (hl : s'.ahead = s.ahead) (hsource : s'.source = s.source) :
    t.pending < s.pending := by
  have := pending_lt_of_consume h (hl ▸ hs)
  simpa only [pending, hl, hsource] using this

/-- Consumes line endings as long as one is in view. The loop of `seek_record`. -/
def skipLineEndings (s : Scanner σ) : EStateM.Result (ReadError ε) (Scanner σ) Unit :=
  match _hl : s.ahead with
  | none => .ok () s
  | some b =>
    match Phase.step s.dialect .betweenRecords (some b) with
    | (_, .drop) =>
      match _h : consume s with
      | .ok () t => skipLineEndings t
      | .error e t => .error e t
    | _ => .ok () s
termination_by s.pending
decreasing_by exact pending_lt_of_consume _h (by simp [_hl])

/-- Consumes the blank lines before a record, where the dialect skips them. Specification 10.5,
`seek_record`. -/
def skipBlankLines (s : Scanner σ) : EStateM.Result (ReadError ε) (Scanner σ) Unit :=
  if s.dialect.skipBlankLines then skipLineEndings s else .ok () s

/-- The end of the stream closes the field. It is noted when a quote is left open. -/
def finish (phase : Phase) (s : Scanner σ) : Scanner σ :=
  if phase = .quoted then s.note (.quoteUnterminated s.field.length) else s

/-- A byte that is left out is noted behind a closing quote. -/
def dropping (phase : Phase) (b : UInt8) (s : Scanner σ) : Scanner σ :=
  if phase = .afterQuoted then s.note (.byteDropped b) else s

theorem ahead_dropping (phase : Phase) (b : UInt8) (s : Scanner σ) :
    (s.dropping phase b).ahead = s.ahead := by
  unfold dropping
  split <;> rfl

theorem source_dropping (phase : Phase) (b : UInt8) (s : Scanner σ) :
    (s.dropping phase b).source = s.source := by
  unfold dropping
  split <;> rfl

/-- Consumes a line feed, should one be in view. -/
def skipLineFeed (s : Scanner σ) : EStateM.Result (ReadError ε) (Scanner σ) Unit :=
  if s.ahead = some lineFeed then consume s else .ok () s

/-- Consumes a delimiter. A carriage return takes a line feed right after it along. -/
def closeField (delimiter : Delimiter) (s : Scanner σ) :
    EStateM.Result (ReadError ε) (Scanner σ) Boundary :=
  match consume s with
  | .error e t => .error e t
  | .ok () t =>
    match delimiter with
    | .separator => .ok .field t
    | .lineFeed => .ok .record t
    | .carriageReturn =>
      match skipLineFeed t with
      | .error e u => .error e u
      | .ok () u => .ok .record u

/-- Scans on from a phase until the field is closed. The loop of `scan_field`. -/
def readFrom (alloc : Allocator) (phase : Phase) (s : Scanner σ) :
    EStateM.Result (ReadError ε) (Scanner σ) Boundary :=
  match _hl : s.ahead with
  | none => .ok .record (s.finish phase)
  | some b =>
    match _hs : phase.step s.dialect (some b) with
    | (next, .append) =>
      match Buffer.push alloc b s.field with
      | .error e field => .error (.buffer e) { s with field }
      | .ok () field =>
        match _ha : consume { s with field } with
        | .ok () t => readFrom alloc next t
        | .error e t => .error e t
    | (next, .drop) =>
      match _ha : consume (s.dropping phase b) with
      | .ok () t => readFrom alloc next t
      | .error e t => .error e t
    | (next, .stay) => readFrom alloc next s
    | (_, .close delimiter) => closeField delimiter s
    | (_, .finish) => .ok .record (s.finish phase)
termination_by (s.pending, phase.rank)
decreasing_by
  · exact .left _ _ (pending_lt_of_consume_of_eq _ha (by simp [_hl]) rfl rfl)
  · exact .left _ _ (pending_lt_of_consume_of_eq _ha (by simp [_hl])
      (ahead_dropping _ _ _) (source_dropping _ _ _))
  · exact .right _ (Phase.rank_lt_of_stay _hs)

/-- Scans one field. At the end of the stream that is an empty field that ends its record.
Specification 10.5, `scan_field`. -/
def readField (alloc : Allocator) (s : Scanner σ) :
    EStateM.Result (ReadError ε) (Scanner σ) Boundary :=
  readFrom alloc .fieldStart { s with field := s.field.clear }

end Scanner
end Delimited
