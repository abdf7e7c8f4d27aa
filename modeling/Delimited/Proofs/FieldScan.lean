import Delimited.Proofs.Growth
import Delimited.Proofs.View
import Delimited.Scan.Steps

/-!
# A scan gives the field in front

Phase by phase, a scan of the text before a scanner gives the field that the grammar sees in front,
with its events, and leaves the text behind its delimiter. The field buffer may hold anything when
the scan begins, and the dialect may be ambiguous.
-/

namespace Delimited

variable {σ ε : Type} [Source σ ε]

theorem Dialect.isPlain_eq_true_iff {d : Dialect} {b : UInt8} :
    d.isPlain b = true ↔ d.delimiter? b = none := by
  unfold isPlain delimiter? isLineEnding
  split
  · next hs => simp [hs]
  · next hs =>
    split
    · next hl => simp [hl]
    · next hl =>
      split
      · next hc => simp [hc]
      · next hc => simp [hs, hl, hc]

theorem Grammar.closing_of_separator {d : Dialect} {b : UInt8} {text : List UInt8}
    (h : d.delimiter? b = some .separator) : closing d (b :: text) = (.field, text) := by
  have hb : b = d.separator := by
    unfold Dialect.delimiter? at h
    grind
  rw [closing, if_pos hb]

theorem Grammar.closing_of_lineFeed {d : Dialect} {b : UInt8} {text : List UInt8}
    (h : d.delimiter? b = some .lineFeed) : closing d (b :: text) = (.record, text) := by
  have hb : b ≠ d.separator ∧ b = lineFeed := by
    unfold Dialect.delimiter? at h
    grind
  obtain ⟨hs, rfl⟩ := hb
  rw [closing, if_neg hs, if_neg (fun hc ↦ absurd hc.1 (by decide))]

theorem Grammar.closing_of_carriageReturn {d : Dialect} {b : UInt8} {text : List UInt8}
    (h : d.delimiter? b = some .carriageReturn) :
    closing d (b :: text) =
      if text.head? = some lineFeed then (.record, text.tail) else (.record, text) := by
  have hb : b ≠ d.separator ∧ b = carriageReturn := by
    unfold Dialect.delimiter? at h
    grind
  obtain ⟨hs, rfl⟩ := hb
  rw [closing, if_neg hs]
  simp

namespace Scanner

variable {d : Dialect} {text : List UInt8} {ending : Ending ε}

private theorem leaves_skipLineFeed {s : Scanner σ} (h : s.At d text ending) :
    Leaves d (if text.head? = some lineFeed then text.tail else text) ending
      (fun _ t ↦ t.field = s.field ∧ t.journal = s.journal) (skipLineFeed s) := by
  unfold skipLineFeed
  rw [h.ahead]
  split
  · next hl =>
    cases text with
    | nil => cases hl
    | cons b text => exact leaves_consume h
  · exact ⟨h, rfl, rfl⟩

/-- Consuming a delimiter closes the field as the grammar has it. -/
theorem leaves_closeField {s : Scanner σ} {b : UInt8} {delimiter : Delimiter}
    (h : s.At d (b :: text) ending) (hb : d.delimiter? b = some delimiter) :
    Leaves d (Grammar.closing d (b :: text)).2 ending
      (fun boundary t ↦ boundary = (Grammar.closing d (b :: text)).1 ∧ t.field = s.field ∧
        t.journal = s.journal) (closeField delimiter s) := by
  have hl := leaves_consume h
  unfold closeField
  cases hc : consume s with
  | error e t =>
    rw [hc] at hl
    apply hl.error_of_error
    rintro rfl
    unfold Grammar.closing
    grind
  | ok u t =>
    rw [hc] at hl
    obtain ⟨hat, hfield, hjournal⟩ := hl
    cases delimiter with
    | separator =>
      rw [Grammar.closing_of_separator hb]
      exact ⟨hat, rfl, hfield, hjournal⟩
    | lineFeed =>
      rw [Grammar.closing_of_lineFeed hb]
      exact ⟨hat, rfl, hfield, hjournal⟩
    | carriageReturn =>
      have hl := leaves_skipLineFeed hat
      rw [Grammar.closing_of_carriageReturn hb]
      dsimp only
      cases hc : skipLineFeed t with
      | error e v =>
        rw [hc] at hl
        apply hl.error_of_error
        intro hnil
        split at hnil <;> next hf => simp [hf, hnil]
      | ok u v =>
        rw [hc] at hl
        obtain ⟨hat, hfield', hjournal'⟩ := hl
        refine ⟨?_, ?_, hfield'.trans hfield, hjournal'.trans hjournal⟩
        · split at hat <;> next hf => simpa [hf] using hat
        · split <;> rfl

variable {alloc : Allocator} {f : Grammar.Field} {events : List Event} {phase next : Phase}
  {s : Scanner σ} {b : UInt8}

/-- What comes of a scan that gives the field, when these events came before. -/
def Yields (d : Dialect) (f : Grammar.Field) (ending : Ending ε) (events : List Event) :
    EStateM.Result (ReadError ε) (Scanner σ) Boundary → Prop :=
  Leaves d f.rest ending fun boundary t ↦
    boundary = f.boundary ∧ t.field.toList = f.value ∧ t.journal.toList = events ++ f.events

theorem field_dropping (phase : Phase) (b : UInt8) (s : Scanner σ) :
    (s.dropping phase b).field = s.field := by
  unfold dropping
  split <;> rfl

theorem At.dropping (h : s.At d text ending) (phase : Phase) (b : UInt8) :
    (s.dropping phase b).At d text ending := by
  unfold Scanner.dropping
  split
  · exact h.of_eq rfl h.sound rfl rfl
  · exact h

/-- The operation fails because memory is refused. -/
def Refused {α : Type} (result : EStateM.Result (ReadError ε) (Scanner σ) α) : Prop :=
  ∃ e t, result = .error (.buffer e) t

private theorem yields_of_append (hroom : ¬ Refused (readFrom alloc phase s))
    (h : s.At d (b :: text) ending)
    (hs : phase.step d (some b) = (next, .append)) (hnil : text = [] → f.rest = [])
    (hnext : ∀ t : Scanner σ, ¬ Refused (readFrom alloc next t) → t.At d text ending →
      t.field.toList = s.field.toList ++ [b] → t.journal = s.journal →
      Yields d f ending events (readFrom alloc next t)) :
    Yields d f ending events (readFrom alloc phase s) := by
  cases hpush : Buffer.push alloc b s.field with
  | error e field =>
    exact absurd ⟨e, _, readFrom_append_refused h.ahead (h.dialect ▸ hs) hpush⟩ hroom
  | ok u field =>
    obtain ⟨hsound, hlist⟩ := Buffer.push_eq_ok hpush h.sound
    have hat : Scanner.At { s with field } d (b :: text) ending := h.of_eq rfl hsound rfl rfl
    have hl := leaves_consume hat
    cases hc : consume { s with field } with
    | ok u t =>
      rw [hc] at hl
      obtain ⟨ht, hfield, hjournal⟩ := hl
      rw [readFrom_append h.ahead (h.dialect ▸ hs) hpush hc] at hroom ⊢
      exact hnext t hroom ht ((congrArg Buffer.toList hfield).trans hlist) hjournal
    | error e t =>
      rw [hc] at hl
      rw [readFrom_append_error h.ahead (h.dialect ▸ hs) hpush hc]
      exact hl.error_of_error hnil

private theorem yields_of_drop (h : s.At d (b :: text) ending)
    (hs : phase.step d (some b) = (next, .drop)) (hnil : text = [] → f.rest = [])
    (hnext : ∀ t : Scanner σ, readFrom alloc phase s = readFrom alloc next t →
      t.At d text ending → t.field = s.field → t.journal = (s.dropping phase b).journal →
      Yields d f ending events (readFrom alloc next t)) :
    Yields d f ending events (readFrom alloc phase s) := by
  have hl := leaves_consume (h.dropping phase b)
  cases hc : consume (s.dropping phase b) with
  | ok u t =>
    rw [hc] at hl
    obtain ⟨ht, hfield, hjournal⟩ := hl
    have hread : readFrom alloc phase s = readFrom alloc next t :=
      readFrom_drop h.ahead (h.dialect ▸ hs) hc
    rw [hread]
    exact hnext t hread ht (hfield.trans (field_dropping phase b s)) hjournal
  | error e t =>
    rw [hc] at hl
    rw [readFrom_drop_error h.ahead (h.dialect ▸ hs) hc]
    exact hl.error_of_error hnil

private theorem yields_of_close {delimiter : Delimiter} {value dropped : List UInt8}
    (h : s.At d (b :: text) ending) (hb : d.delimiter? b = some delimiter)
    (hs : phase.step d (some b) = (next, .close delimiter)) (hv : s.field.toList = value)
    (hj : s.journal.toList = events ++ dropped.map .byteDropped) :
    Yields d (Grammar.closed d value dropped (b :: text)) ending events
      (readFrom alloc phase s) := by
  rw [readFrom_close h.ahead (h.dialect ▸ hs)]
  have hl := leaves_closeField h hb
  cases hc : closeField delimiter s with
  | ok boundary t =>
    rw [hc] at hl
    obtain ⟨hat, hboundary, hfield, hjournal⟩ := hl
    refine ⟨hat, hboundary, (congrArg Buffer.toList hfield).trans hv, ?_⟩
    rw [hjournal, hj]
    simp [Grammar.closed, Grammar.Field.events]
  | error e t =>
    rw [hc] at hl
    exact hl.error_of_error id

theorem yields_unquoted (hroom : ¬ Refused (readFrom alloc .unquoted s)) (h : s.At d text ending) :
    Yields d (Grammar.closed d (s.field.toList ++ text.takeWhile d.isPlain) []
      (text.dropWhile d.isPlain)) ending s.journal.toList (readFrom alloc .unquoted s) := by
  induction text generalizing s with
  | nil =>
    rw [readFrom_of_ahead_eq_none h.ahead]
    refine ⟨h, rfl, ?_, ?_⟩
    · simp [Grammar.closed, finish]
    · simp [Grammar.closed, Grammar.Field.events, finish]
  | cons b text ih =>
    cases hb : d.delimiter? b with
    | none =>
      have hp : d.isPlain b = true := Dialect.isPlain_eq_true_iff.mpr hb
      have hs : Phase.step d .unquoted (some b) = (.unquoted, .append) := by
        simp only [Phase.step, hb]
      rw [List.takeWhile_cons_of_pos hp, List.dropWhile_cons_of_pos hp]
      apply yields_of_append hroom h hs
      · rintro rfl
        rfl
      · intro t hroom ht hfield hjournal
        have hrest := ih hroom ht
        rw [hfield, hjournal, List.append_assoc] at hrest
        exact hrest
    | some delimiter =>
      have hp : ¬ d.isPlain b = true := by simp [Dialect.isPlain_eq_true_iff, hb]
      have hs : Phase.step d .unquoted (some b) = (.fieldStart, .close delimiter) := by
        simp only [Phase.step, hb]
      rw [List.takeWhile_cons_of_neg hp, List.dropWhile_cons_of_neg hp, List.append_nil]
      exact yields_of_close h hb hs rfl (by simp)

theorem yields_afterQuoted (alloc : Allocator) {dropped : List UInt8} (h : s.At d text ending)
    (hj : s.journal.toList = events ++ dropped.map .byteDropped) :
    Yields d (Grammar.closed d s.field.toList (dropped ++ text.takeWhile d.isPlain)
      (text.dropWhile d.isPlain)) ending events (readFrom alloc .afterQuoted s) := by
  induction text generalizing s dropped with
  | nil =>
    rw [readFrom_of_ahead_eq_none h.ahead]
    refine ⟨h, rfl, rfl, ?_⟩
    simp [Grammar.closed, Grammar.Field.events, finish, hj]
  | cons b text ih =>
    cases hb : d.delimiter? b with
    | none =>
      have hp : d.isPlain b = true := Dialect.isPlain_eq_true_iff.mpr hb
      have hs : Phase.step d .afterQuoted (some b) = (.afterQuoted, .drop) := by
        simp only [Phase.step, hb]
      rw [List.takeWhile_cons_of_pos hp, List.dropWhile_cons_of_pos hp]
      apply yields_of_drop h hs
      · rintro rfl
        rfl
      · intro t _ ht hfield hjournal
        have hj' : t.journal.toList = events ++ (dropped ++ [b]).map .byteDropped := by
          rw [hjournal]
          simp [dropping, note, hj]
        have hrest := ih ht hj'
        rw [hfield, List.append_assoc] at hrest
        exact hrest
    | some delimiter =>
      have hp : ¬ d.isPlain b = true := by simp [Dialect.isPlain_eq_true_iff, hb]
      have hs : Phase.step d .afterQuoted (some b) = (.fieldStart, .close delimiter) := by
        simp only [Phase.step, hb]
      rw [List.takeWhile_cons_of_neg hp, List.dropWhile_cons_of_neg hp, List.append_nil]
      exact yields_of_close h hb hs rfl hj

theorem yields_quoted (hroom : ¬ Refused (readFrom alloc .quoted s)) (h : s.At d text ending) :
    Yields d (Grammar.ofQuoted d (s.field.toList ++ (Grammar.quoted d.quote text).1)
      (Grammar.quoted d.quote text).2) ending s.journal.toList (readFrom alloc .quoted s) := by
  have hseen : Phase.step d .quoted (some d.quote) = (.quoteSeen, .drop) := by
    simp only [Phase.step, if_true]
  generalize hq : d.quote = quote at hseen
  fun_induction Grammar.quoted quote text generalizing s with
  | case1 =>
    rw [readFrom_of_ahead_eq_none h.ahead]
    refine ⟨h.of_eq rfl h.sound rfl rfl, rfl, ?_, ?_⟩
    · simp [Grammar.ofQuoted, finish, note]
    · simp [Grammar.ofQuoted, Grammar.Field.events, finish, note, Buffer.length_toList h.sound]
  | case2 =>
    apply yields_of_drop h hseen (fun _ ↦ rfl)
    intro t _ ht hfield hjournal
    have hj : t.journal = s.journal := hjournal
    rw [readFrom_of_ahead_eq_none ht.ahead]
    refine ⟨ht, rfl, ?_, ?_⟩
    · simp [Grammar.ofQuoted, Grammar.closed, finish, hfield]
    · simp [Grammar.ofQuoted, Grammar.closed, Grammar.Field.events, finish, hj]
  | case3 behind ih =>
    have hs : Phase.step d .quoteSeen (some quote) = (.quoted, .append) := by
      simp only [Phase.step, hq, if_true]
    have hnil : quote :: behind ≠ [] := List.cons_ne_nil _ _
    apply yields_of_drop h hseen (absurd · hnil)
    intro t hread ht hfield hjournal
    have hj : t.journal = s.journal := hjournal
    rw [hread] at hroom
    apply yields_of_append hroom ht hs
    · rintro rfl
      rfl
    · intro u hroom hu hfield' hjournal'
      have hrest := ih hroom hu
      rw [hfield', hjournal', hfield, hj, List.append_assoc] at hrest
      exact hrest
  | case4 c behind hc =>
    -- The quote was the closing one, and the byte behind it is looked at a second time.
    have hs : Phase.step d .quoteSeen (some c) = (.afterQuoted, .stay) := by
      simp only [Phase.step, hq, if_neg hc]
    have hnil : c :: behind ≠ [] := List.cons_ne_nil _ _
    apply yields_of_drop h hseen (absurd · hnil)
    intro t _ ht hfield hjournal
    have hj : t.journal.toList = s.journal.toList ++ ([] : List UInt8).map .byteDropped := by
      rw [show t.journal = s.journal from hjournal]
      simp
    rw [readFrom_stay ht.ahead (ht.dialect ▸ hs)]
    have hrest := yields_afterQuoted alloc ht hj
    rw [hfield] at hrest
    simpa [Grammar.ofQuoted] using hrest
  | case5 b text hb ih =>
    have hs : Phase.step d .quoted (some b) = (.quoted, .append) := by
      simp only [Phase.step, hq, if_neg hb]
    apply yields_of_append hroom h hs
    · rintro rfl
      rfl
    · intro t hroom ht hfield hjournal
      have hrest := ih hroom ht
      rw [hfield, hjournal, List.append_assoc] at hrest
      exact hrest

/-- A scan that is not refused memory gives the field in front, whatever the field buffer held
before. -/
theorem yields_of_not_refused (hroom : ¬ Refused (readField alloc s)) (h : s.At d text ending) :
    Yields d (Grammar.field d text) ending s.journal.toList (readField alloc s) := by
  have hat : Scanner.At { s with field := s.field.clear } d text ending :=
    h.of_eq rfl (Buffer.isSound_clear h.sound) rfl rfl
  have hclear : s.field.clear.toList = [] := Buffer.toList_clear _
  unfold readField at hroom ⊢
  cases text with
  | nil =>
    rw [readFrom_of_ahead_eq_none hat.ahead]
    refine ⟨hat, rfl, ?_, ?_⟩
    · simp [Grammar.field, Grammar.closed, finish, hclear]
    · simp [Grammar.field, Grammar.closed, Grammar.Field.events, finish]
  | cons b text =>
    rw [Grammar.field]
    split
    · next hb =>
      have hs : Phase.step d .fieldStart (some b) = (.quoted, .drop) := by
        simp only [Phase.step, if_pos hb]
      apply yields_of_drop hat hs
      · rintro rfl
        rfl
      · intro t hread ht hfield hjournal
        have hj : t.journal = s.journal := hjournal
        have hempty : t.field.toList = [] := (congrArg Buffer.toList hfield).trans hclear
        rw [hread] at hroom
        have hrest := yields_quoted hroom ht
        rw [hempty, hj] at hrest
        exact hrest
    · next hb =>
      have hs : Phase.step d .fieldStart (some b) = (.unquoted, .stay) := by
        simp only [Phase.step, if_neg hb]
      rw [readFrom_stay hat.ahead (hat.dialect ▸ hs)] at hroom ⊢
      have hrest := yields_unquoted hroom hat
      rw [hclear] at hrest
      exact hrest

/-- A field that has been scanned is the one in front, whether or not memory is always granted. -/
theorem of_readField_eq_ok {boundary : Boundary} {t : Scanner σ} (h : s.At d text ending)
    (hf : readField alloc s = .ok boundary t) :
    t.At d (Grammar.field d text).rest ending ∧ boundary = (Grammar.field d text).boundary ∧
      t.field.toList = (Grammar.field d text).value ∧
      t.journal.toList = s.journal.toList ++ (Grammar.field d text).events := by
  have hroom : ¬ Refused (readField alloc s) := by
    rintro ⟨e, u, he⟩
    rw [hf] at he
    cases he
  have hyields := yields_of_not_refused hroom h
  rw [hf] at hyields
  exact hyields

/-- Closing a field takes no memory. -/
theorem not_refused_closeField (delimiter : Delimiter) : ¬ Refused (closeField delimiter s) := by
  rintro ⟨e, t, h⟩
  unfold closeField at h
  split at h
  · next hc =>
    cases h
    exact consume_ne_buffer hc
  · split at h
    · cases h
    · cases h
    · split at h
      · next hl =>
        cases h
        unfold skipLineFeed at hl
        split at hl
        · exact consume_ne_buffer hl
        · cases hl
      · cases h

end Scanner

namespace Grammar

variable {d : Dialect} {phase next : Phase} {b : UInt8}

/-- The bytes that a scan adds to its field from a phase on. -/
def collected (d : Dialect) : Phase → List UInt8 → List UInt8
  | .fieldStart, text => (field d text).value
  | .unquoted, text => text.takeWhile d.isPlain
  | .quoted, text => (quoted d.quote text).1
  | .quoteSeen, text => (quoted d.quote (d.quote :: text)).1
  | .betweenRecords, text => (field d (text.dropWhile isLineEnding)).value
  | .afterQuoted, _ => []
  | .ended, _ => []

theorem collected_of_append (hs : phase.step d (some b) = (next, .append)) (text : List UInt8) :
    collected d phase (b :: text) = b :: collected d next text := by
  cases phase with
  | unquoted =>
    simp only [Phase.step] at hs
    split at hs
    · cases hs
    · next hb =>
      cases hs
      exact List.takeWhile_cons_of_pos (Dialect.isPlain_eq_true_iff.mpr hb)
  | quoted =>
    simp only [Phase.step] at hs
    split at hs
    · cases hs
    · next hb =>
      cases hs
      simp only [collected, quoted_of_ne hb, prepend]
  | quoteSeen =>
    simp only [Phase.step] at hs
    split at hs
    · next hb =>
      cases hs
      simp only [collected, hb, quoted_pair, prepend]
    · cases hs
  | _ =>
    simp only [Phase.step] at hs
    try split at hs
    all_goals cases hs

theorem collected_of_drop (hs : phase.step d (some b) = (next, .drop)) (text : List UInt8) :
    collected d phase (b :: text) = collected d next text := by
  cases phase with
  | fieldStart =>
    simp only [Phase.step] at hs
    split at hs
    · next hb =>
      cases hs
      simp only [collected, field, if_pos hb, value_ofQuoted]
    · cases hs
  | quoted =>
    simp only [Phase.step] at hs
    split at hs
    · next hb =>
      cases hs
      rw [hb]
      rfl
    · cases hs
  | afterQuoted =>
    simp only [Phase.step] at hs
    split at hs
    · cases hs
    · cases hs
      rfl
  | betweenRecords =>
    simp only [Phase.step] at hs
    split at hs
    · next hb =>
      cases hs
      simp only [collected, List.dropWhile_cons_of_pos hb]
    · cases hs
  | _ =>
    simp only [Phase.step] at hs
    try split at hs
    all_goals cases hs

theorem collected_of_stay (hs : phase.step d (some b) = (next, .stay)) (text : List UInt8) :
    collected d phase (b :: text) = collected d next (b :: text) := by
  cases phase with
  | fieldStart =>
    simp only [Phase.step] at hs
    split at hs
    · cases hs
    · next hb =>
      cases hs
      simp only [collected, field, if_neg hb, closed]
  | quoteSeen =>
    simp only [Phase.step] at hs
    split at hs
    · cases hs
    · next hb =>
      cases hs
      have hhead : (b :: text).head? ≠ some d.quote := by simpa using hb
      simp only [collected, quoted_of_head? hhead]
  | betweenRecords =>
    simp only [Phase.step] at hs
    split at hs
    · cases hs
    · next hb =>
      cases hs
      simp only [collected, List.dropWhile_cons_of_neg hb]
  | _ =>
    simp only [Phase.step] at hs
    try split at hs
    all_goals cases hs

end Grammar

namespace Scanner

variable {d : Dialect} {text : List UInt8} {ending : Ending ε} {alloc : Allocator}
  {s : Scanner σ}

/-- A scan is not refused memory where it is granted and the field does not become too long. -/
theorem not_refused_readFrom {most : Nat} (hg : alloc.GrantsFor most) (hmost : most ≤ memoryLimit)
    (h : s.At d text ending) {phase : Phase}
    (hfits : s.field.toList.length + (Grammar.collected d phase text).length ≤ most) :
    ¬ Refused (readFrom alloc phase s) := by
  fun_induction readFrom alloc phase s generalizing text with
  | case1 phase s hl => rintro ⟨e, t, ⟨⟩⟩
  | case2 phase s b hl next hs e field hp =>
    obtain ⟨behind, rfl⟩ := h.exists_cons hl
    rw [Grammar.collected_of_append (h.dialect ▸ hs), List.length_cons] at hfits
    obtain ⟨grown, hpush, -⟩ := 
      Buffer.push_of_grantsFor hg (by decide) h.sound (by omega) (by omega) b
    rw [hp] at hpush
    cases hpush
  | case3 phase s b hl next hs field hp t ht ih =>
    obtain ⟨behind, rfl⟩ := h.exists_cons hl
    rw [Grammar.collected_of_append (h.dialect ▸ hs), List.length_cons] at hfits
    obtain ⟨hsound, hlist⟩ := Buffer.push_eq_ok hp h.sound
    have hconsume := leaves_consume (s := { s with field }) (h.of_eq rfl hsound rfl rfl)
    rw [ht] at hconsume
    obtain ⟨hat, hfield, -⟩ := hconsume
    apply ih hat
    rw [hfield, hlist, List.length_append, List.length_singleton]
    omega
  | case4 phase s b hl next hs field hp e t ht =>
    rintro ⟨e, t, ⟨⟩⟩
    exact consume_ne_buffer ht
  | case5 phase s b hl next hs t ht ih =>
    obtain ⟨behind, rfl⟩ := h.exists_cons hl
    rw [Grammar.collected_of_drop (h.dialect ▸ hs)] at hfits
    have hconsume := leaves_consume (h.dropping phase b)
    rw [ht] at hconsume
    obtain ⟨hat, hfield, -⟩ := hconsume
    apply ih hat
    rwa [hfield, field_dropping]
  | case6 phase s b hl next hs e t ht =>
    rintro ⟨e, t, ⟨⟩⟩
    exact consume_ne_buffer ht
  | case7 phase s b hl next hs ih =>
    obtain ⟨behind, rfl⟩ := h.exists_cons hl
    rw [Grammar.collected_of_stay (h.dialect ▸ hs)] at hfits
    exact ih h hfits
  | case8 phase s b hl next delimiter hs => exact not_refused_closeField delimiter
  | case9 phase s b hl next hs => rintro ⟨e, t, ⟨⟩⟩

/-- A scan gives the field in front, whatever the field buffer held before. Only the field itself
takes memory. -/
theorem yields_readField (hg : alloc.GrantsFor (Grammar.field d text).value.length)
    (h : s.At d text ending) (hfits : (Grammar.field d text).value.length ≤ memoryLimit) :
    Yields d (Grammar.field d text) ending s.journal.toList (readField alloc s) := by
  have hat : Scanner.At { s with field := s.field.clear } d text ending :=
    h.of_eq rfl (Buffer.isSound_clear h.sound) rfl rfl
  apply yields_of_not_refused (not_refused_readFrom hg hfits hat ?_) h
  rw [Buffer.toList_clear, List.length_nil, Nat.zero_add]
  exact Nat.le_refl _

end Scanner
end Delimited
