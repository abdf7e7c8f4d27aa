import Delimited.Proofs.Grammar
import Delimited.Source.Contents
import Delimited.Buffer.Lemmas

/-!
# What a scanner has before it

A scanner stands before a text: the byte in view and those that its source gives before it stops.
An operation that consumes a part of the text either leaves the scanner before the rest, or fails,
and the second happens exactly when the part was all of it and the source stops with a failure.
-/

namespace Delimited

variable {σ ε α β : Type} [Source σ ε]

/-- The source gives these bytes and then stops in this way. Nothing is said about later reads. -/
def Source.Gives (source : σ) (text : List UInt8) (ending : Ending ε) : Prop :=
  ∃ t, Source.drain source = (text, ending, t)

/-- A source that gives no bytes stops at the next read. -/
theorem Source.read_of_gives_nil {source : σ} {ending : Ending ε}
    (h : Source.Gives source [] ending) : ∃ t, Source.read source = (.stop ending, t) := by
  obtain ⟨t, h⟩ := h
  cases hr : Source.read source with
  | mk answer s =>
    cases answer with
    | byte b =>
      rw [Source.drain_of_byte hr] at h
      cases h
    | stop e =>
      rw [Source.drain_of_stop hr] at h
      cases h
      exact ⟨t, rfl⟩

/-- A source that gives bytes answers the next read with the first of them. -/
theorem Source.read_of_gives_cons {source : σ} {b : UInt8} {text : List UInt8} {ending : Ending ε}
    (h : Source.Gives source (b :: text) ending) :
    ∃ t, Source.read source = (.byte b, t) ∧ Source.Gives t text ending := by
  obtain ⟨u, h⟩ := h
  cases hr : Source.read source with
  | mk answer s =>
    cases answer with
    | byte c =>
      rw [Source.drain_of_byte hr] at h
      obtain ⟨hb, hd⟩ := Prod.mk.inj h
      obtain ⟨rfl, ht⟩ := List.cons.inj hb
      exact ⟨s, rfl, u, Prod.ext ht hd⟩
    | stop e =>
      rw [Source.drain_of_stop hr] at h
      cases h

/-- A script of bytes gives the bytes. -/
theorem Script.gives_done (bytes : List UInt8) :
    Source.Gives (Script.mk (bytes.map .ok) : Script ε) bytes .done := by
  have hdrain := drain_append (ε := ε) bytes []
  rw [drain_nil, List.append_nil, List.append_nil] at hdrain
  exact ⟨_, hdrain⟩

/-- A script of bytes and a failure gives the bytes and fails, whatever it would go on with. -/
theorem Script.gives_failure (bytes : List UInt8) (cause : ε) (later : List (Except ε UInt8)) :
    Source.Gives (Script.mk (bytes.map .ok ++ .error cause :: later)) bytes (.failure cause) := by
  refine ⟨⟨later⟩, ?_⟩
  rw [drain_append, drain_failure, List.append_nil]

namespace Scanner

/-- The scanner works in the dialect, and its field buffer is sound. -/
structure Fit (s : Scanner σ) (d : Dialect) : Prop where
  dialect : s.dialect = d
  sound : s.field.isSound = true

/-- A byte in view has the source behind it. Without one the source is done, as far as is known. -/
def Backed (source : Option σ) : List UInt8 → Ending ε → Prop
  | [], ending => ending = .done
  | _ :: behind, ending => ∃ s, source = some s ∧ Source.Gives s behind ending

/-- The scanner stands before the text, behind which its source stops in this way. -/
structure At (s : Scanner σ) (d : Dialect) (text : List UInt8) (ending : Ending ε) : Prop
    extends Fit s d where
  ahead : s.ahead = text.head?
  backed : Backed s.source text ending

/-- What comes of an operation that consumes everything up to the text. It fails where the source
fails right there, and nothing is left then; otherwise it succeeds, with the condition on its
answer. -/
def Leaves (d : Dialect) (text : List UInt8) (ending : Ending ε) (post : α → Scanner σ → Prop) :
    EStateM.Result (ReadError ε) (Scanner σ) α → Prop
  | .ok a t => t.At d text ending ∧ post a t
  | .error e t => t.Fit d ∧ text = [] ∧ ∃ cause, ending = .failure cause ∧ e = .reading cause

variable {d : Dialect} {text : List UInt8} {ending : Ending ε} {post : α → Scanner σ → Prop}

/-- A scanner that has nothing before it has not come there by a failure. -/
theorem At.eq_done {s : Scanner σ} (h : s.At d [] ending) : ending = .done := h.backed

/-- No byte is in view exactly where nothing is before the scanner. -/
theorem At.isAtEnd_iff {s : Scanner σ} (h : s.At d text ending) : s.isAtEnd = true ↔ text = [] := by
  unfold isAtEnd
  rw [h.ahead]
  cases text <;> simp

theorem At.isAtEnd_eq_false_iff {s : Scanner σ} (h : s.At d text ending) :
    s.isAtEnd = false ↔ text ≠ [] :=
  Bool.eq_false_iff.trans (not_congr h.isAtEnd_iff)

/-- The byte in view is the first of the text. -/
theorem At.exists_cons {s : Scanner σ} {b : UInt8} (h : s.At d text ending)
    (hs : s.ahead = some b) : ∃ behind, text = b :: behind := by
  rw [h.ahead] at hs
  exact List.head?_eq_some_iff.mp hs

/-- Whatever changes the journal or the field leaves the scanner where it is. -/
theorem At.of_eq {s t : Scanner σ} (h : s.At d text ending) (hd : t.dialect = s.dialect)
    (hf : t.field.isSound = true) (ha : t.ahead = s.ahead) (hs : t.source = s.source) :
    t.At d text ending where
  dialect := hd.trans h.dialect
  sound := hf
  ahead := ha.trans h.ahead
  backed := hs ▸ h.backed

/-- Without a failure right there an operation succeeds. -/
theorem Leaves.ok {result : EStateM.Result (ReadError ε) (Scanner σ) α}
    (h : Leaves d text ending post result) (hne : text ≠ [] ∨ ending = .done) :
    ∃ a t, result = .ok a t ∧ t.At d text ending ∧ post a t := by
  cases result with
  | ok a t => exact ⟨a, t, rfl, h⟩
  | error e t =>
    obtain ⟨-, hnil, cause, hfail, -⟩ := h
    rcases hne with hne | hdone
    · exact absurd hnil hne
    · rw [hdone] at hfail
      cases hfail

/-- With a failure right there an operation fails in the same way. -/
theorem Leaves.error {result : EStateM.Result (ReadError ε) (Scanner σ) α} {cause : ε}
    (h : Leaves d [] (.failure cause) post result) :
    ∃ t, result = .error (.reading cause) t ∧ t.Fit d := by
  cases result with
  | ok a t => cases h.1.eq_done
  | error e t =>
    obtain ⟨hfit, -, cause', hfail, rfl⟩ := h
    cases hfail
    exact ⟨t, rfl, hfit⟩

/-- A failure is passed on by whatever would have followed. -/
theorem Leaves.error_of_error {post' : β → Scanner σ → Prop} {text' : List UInt8}
    {e : ReadError ε} {t : Scanner σ}
    (h : Leaves d text ending post (.error e t)) (hnil : text = [] → text' = []) :
    Leaves d text' ending post' (.error e t) :=
  ⟨h.1, hnil h.2.1, h.2.2⟩

/-- Reading from a source puts the scanner before what the source gives. -/
theorem leaves_consume_of_gives {s : Scanner σ} {source : σ} (hfit : s.Fit d)
    (hs : s.source = some source) (hg : Source.Gives source text ending) :
    Leaves d text ending (fun _ t ↦ t.field = s.field ∧ t.journal = s.journal) (consume s) := by
  unfold consume
  rw [hs]
  dsimp only
  cases text with
  | nil =>
    obtain ⟨t, hr⟩ := Source.read_of_gives_nil hg
    rw [hr]
    cases ending with
    | done => exact ⟨⟨⟨hfit.dialect, hfit.sound⟩, rfl, rfl⟩, rfl, rfl⟩
    | failure cause => exact ⟨⟨hfit.dialect, hfit.sound⟩, rfl, cause, rfl, rfl⟩
  | cons b behind =>
    obtain ⟨t, hr, hg⟩ := Source.read_of_gives_cons hg
    rw [hr]
    exact ⟨⟨⟨hfit.dialect, hfit.sound⟩, rfl, t, rfl, hg⟩, rfl, rfl⟩

/-- Consuming the byte in view leaves the text behind it. -/
theorem leaves_consume {s : Scanner σ} {b : UInt8} (h : s.At d (b :: text) ending) :
    Leaves d text ending (fun _ t ↦ t.field = s.field ∧ t.journal = s.journal) (consume s) := by
  obtain ⟨source, hs, hg⟩ := h.backed
  exact leaves_consume_of_gives h.toFit hs hg

/-- Whatever else consuming may fail for, it takes no memory. -/
theorem consume_ne_buffer {s t : Scanner σ} {e : GrowthError} :
    consume s ≠ (.error (.buffer e) t : EStateM.Result (ReadError ε) _ _) := by
  intro h
  unfold consume at h
  split at h
  · cases h
  · split at h
    · cases h
    · cases h
    · cases h

/-- Turning to a source puts the scanner before what it gives. -/
theorem leaves_attach {s : Scanner σ} {source : σ} (hfit : s.Fit d)
    (hg : Source.Gives source text ending) :
    Leaves d text ending (fun _ t ↦ t.journal = s.journal) (attach source s) := by
  have hfit' : Fit { s with source := some source, field := s.field.clear } d :=
    ⟨hfit.dialect, Buffer.isSound_clear hfit.sound⟩
  have h := leaves_consume_of_gives hfit' rfl hg
  unfold attach
  cases hc : consume { s with source := some source, field := s.field.clear } with
  | ok u t =>
    rw [hc] at h
    exact ⟨h.1, h.2.2⟩
  | error e t =>
    rw [hc] at h
    exact h.error_of_error id

private theorem step_betweenRecords (d : Dialect) (b : UInt8) :
    Phase.step d .betweenRecords (some b) =
      if isLineEnding b then (.betweenRecords, .drop) else (.fieldStart, .stay) := rfl

private theorem leaves_skipLineEndings {s : Scanner σ} (h : s.At d text ending) :
    Leaves d (text.dropWhile isLineEnding) ending
      (fun _ t ↦ t.field = s.field ∧ t.journal = s.journal) (skipLineEndings s) := by
  induction text generalizing s with
  | nil =>
    rw [skipLineEndings]
    split
    · exact ⟨h, rfl, rfl⟩
    · next hb =>
      rw [h.ahead] at hb
      cases hb
  | cons b text ih =>
    rw [skipLineEndings]
    split
    · next hn =>
      rw [h.ahead] at hn
      cases hn
    · next c hc =>
      obtain rfl : b = c := Option.some.inj (h.ahead.symm.trans hc)
      by_cases hb : isLineEnding b = true
      · rw [List.dropWhile_cons_of_pos hb]
        have hl := leaves_consume h
        split
        · split
          · next t ht =>
            rw [ht] at hl
            have hrest := ih hl.1
            rw [hl.2.1, hl.2.2] at hrest
            exact hrest
          · next e t ht =>
            rw [ht] at hl
            apply hl.error_of_error
            rintro rfl
            rfl
        · next hstep =>
          rw [step_betweenRecords, if_pos hb] at hstep
          exact absurd rfl (hstep _)
      · rw [List.dropWhile_cons_of_neg hb]
        split
        · next hstep =>
          rw [step_betweenRecords, if_neg hb] at hstep
          cases hstep
        · exact ⟨h, rfl, rfl⟩

/-- The search for a record leaves the text from the next row on. -/
theorem leaves_skipBlankLines {s : Scanner σ} (h : s.At d text ending) :
    Leaves d (Grammar.recordStart d text) ending
      (fun _ t ↦ t.field = s.field ∧ t.journal = s.journal) (skipBlankLines s) := by
  unfold skipBlankLines Grammar.recordStart
  rw [h.dialect]
  split
  · exact leaves_skipLineEndings h
  · exact ⟨h, rfl, rfl⟩

end Scanner
end Delimited
