import Delimited.Proofs.Agreement
import Delimited.Proofs.PassItems

/-!
# Passes that go on alike

Two passes whose scanners go on alike find rows, errors and the end of the stream at the same
requests. What they make of a row is up to their builders; with the same builder, or with one that
only keeps more in its state, they give the same items for ever.
-/

namespace Delimited

/-- The second builder makes what the first one makes, and its state holds the state of the
first. -/
structure RowBuilder.Extends {φ φ' ρ γ : Type} (g : φ' → φ) (builder : RowBuilder φ ρ γ)
    (builder' : RowBuilder φ' ρ γ) : Prop where
  start (state : φ') :
    builder.start (g state) = ((builder'.start state).1, g (builder'.start state).2)
  place (row : ρ) (bytes : List UInt8) (state : φ') :
    builder.place row bytes (g state) =
      ((builder'.place row bytes state).1, g (builder'.place row bytes state).2)
  finish : builder'.finish = builder.finish

theorem RowBuilder.Extends.refl {φ ρ γ : Type} (builder : RowBuilder φ ρ γ) :
    Extends id builder builder :=
  ⟨fun _ ↦ rfl, fun _ _ _ ↦ rfl, rfl⟩

namespace Pass

variable {σ σ' ε ε' φ φ' ρ ρ' γ γ' : Type} [Source σ ε] [Source σ' ε'] {f : ε → ε'}
  {alloc alloc' : Allocator}

/-- What the next request comes to on two passes that are not over. The rows in progress are tied by
a relation, since each pass has a builder of its own. -/
inductive Meets (f : ε → ε') (alloc alloc' : Allocator) (related : ρ × φ → ρ' × φ' → Prop)
    (p : Pass σ φ ρ γ) (p' : Pass σ' φ' ρ' γ') : Prop where
  /-- No row is left. -/
  | exhausted {t : Scanner σ} {t' : Scanner σ'}
      (hskip : Scanner.skipBlankLines p.scanner = .ok () t) (hend : t.isAtEnd = true)
      (h : p.next alloc = (none, { p with scanner := t, finished := true }))
      (h' : p'.next alloc' = (none, { p' with scanner := t', finished := true }))
  /-- The search for a row fails. -/
  | seeking {t : Scanner σ} {t' : Scanner σ'} {e : ReadError ε}
      (hskip : Scanner.skipBlankLines p.scanner = .error e t)
      (h : p.next alloc = (some (.error e), { p with scanner := t, finished := true }))
      (h' : p'.next alloc' =
        (some (.error (e.map f)), { p' with scanner := t', finished := true }))
  /-- A row is cut off. -/
  | scanning {s t : Scanner σ} {t' : Scanner σ'} {e : ReadError ε} {row : ρ × φ} {row' : ρ' × φ'}
      (hskip : Scanner.skipBlankLines p.scanner = .ok () s) (hend : s.isAtEnd = false)
      (hrow : s.readRow alloc (placing p.builder) 0 (p.builder.start p.state) = .error e (t, row))
      (hr : related row row')
      (h : p.next alloc =
        (some (.error e), { p with scanner := t, state := row.2, finished := true }))
      (h' : p'.next alloc' =
        (some (.error (e.map f)), { p' with scanner := t', state := row'.2, finished := true }))
  /-- A row is read. -/
  | row {t : Scanner σ} {t' : Scanner σ'} {row : ρ × φ} {row' : ρ' × φ'}
      (htwins : Scanner.Twins f alloc alloc' t t') (hr : related row row')
      (h : p.next alloc =
        (some (.ok (p.builder.finish row.1)), { p with scanner := t, state := row.2 }))
      (h' : p'.next alloc' =
        (some (.ok (p'.builder.finish row'.1)), { p' with scanner := t', state := row'.2 }))

/-- Passes that go on alike meet at every request, if their builders keep the rows in progress
tied. -/
theorem meets_next {related : ρ × φ → ρ' × φ' → Prop} {p : Pass σ φ ρ γ} {p' : Pass σ' φ' ρ' γ'}
    (hp : p.finished = false) (hp' : p'.finished = false)
    (h : Scanner.Twins f alloc alloc' p.scanner p'.scanner)
    (hstart : related (p.builder.start p.state) (p'.builder.start p'.state))
    (hplace : ∀ bytes row row', related row row' →
      related (p.builder.place row.1 bytes row.2) (p'.builder.place row'.1 bytes row'.2)) :
    Meets f alloc alloc' related p p' := by
  have hskips := Scanner.concur_skipBlankLines h
  cases hskip : Scanner.skipBlankLines p.scanner with
  | error e t =>
    rw [hskip] at hskips
    obtain ⟨_, t', hskip', rfl, -⟩ := hskips.of_error
    exact .seeking hskip (next_of_seeking hp hskip) (next_of_seeking hp' hskip')
  | ok u s =>
    rw [hskip] at hskips
    obtain ⟨s', hskip', hs⟩ := hskips.of_ok
    have hends : s'.isAtEnd = s.isAtEnd := congrArg Option.isNone hs.ahead_eq
    cases hend : s.isAtEnd with
    | true =>
      exact .exhausted hskip hend (next_of_exhausted hp hskip hend)
        (next_of_exhausted hp' hskip' (hends.trans hend))
    | false =>
      -- A row in progress has room for every field.
      have hplaces : Scanner.TakeAlike alloc alloc' (fun _ ↦ related) (placing p.builder)
          (placing p'.builder) := by
        intro room more field field' row row' hfield hr
        rw [hfield.toList_eq]
        exact ⟨rfl, hplace field'.toList row row' hr⟩
      obtain ⟨_, text, _, hat, -⟩ := id hs
      have hrows := Scanner.agree_readRow hplaces hs hat (Nat.lt_succ_self text.length) hstart 0
      cases hrow : s.readRow alloc (placing p.builder) 0 (p.builder.start p.state) with
      | error e cut =>
        rw [hrow] at hrows
        obtain ⟨_, ⟨t', row'⟩, hrow', rfl, -, hr⟩ := hrows.of_error
        exact .scanning hskip hend hrow hr (next_of_scanning hp hskip hend hrow)
          (next_of_scanning hp' hskip' (hends.trans hend) hrow')
      | ok count read =>
        rw [hrow] at hrows
        obtain ⟨⟨t', row'⟩, hrow', htwins, -, hr⟩ := hrows.of_ok
        exact .row (htwins.note (p.builder.event count) (p'.builder.event count)) hr
          (next_of_readRow hp hskip hend hrow)
          (next_of_readRow hp' hskip' (hends.trans hend) hrow')

/-- The passes go on alike, and the builder of the second only keeps more in its state. -/
structure Twins (f : ε → ε') (g : φ' → φ) (alloc alloc' : Allocator) (p : Pass σ φ ρ γ)
    (p' : Pass σ' φ' ρ γ) : Prop where
  builder : p.builder.Extends g p'.builder
  state : p.state = g p'.state
  finished : p'.finished = p.finished
  scanner : p.finished = false → Scanner.Twins f alloc alloc' p.scanner p'.scanner

/-- An answer, with the failure of the source renamed. -/
def renamed (f : ε → ε') : Option (Except (ReadError ε) γ) → Option (Except (ReadError ε') γ) :=
  Option.map (Except.mapError (ReadError.map f))

@[simp] theorem renamed_id (answer : Option (Except (ReadError ε) γ)) :
    renamed id answer = answer := by
  cases answer with
  | none => rfl
  | some item =>
    cases item with
    | error e => exact congrArg (fun e ↦ some (Except.error e)) e.map_id
    | ok value => rfl

variable {g : φ' → φ} {p : Pass σ φ ρ γ} {p' : Pass σ' φ' ρ γ}

/-- One request is answered alike, and leaves the passes alike. -/
theorem Twins.next (h : Twins f g alloc alloc' p p') :
    (p'.next alloc').1 = renamed f (p.next alloc).1 ∧
      Twins f g alloc alloc' (p.next alloc).2 (p'.next alloc').2 := by
  cases hp : p.finished with
  | true =>
    rw [next_of_finished hp, next_of_finished (h.finished.trans hp)]
    exact ⟨rfl, h⟩
  | false =>
    have hstart : p.builder.start p.state =
        ((p'.builder.start p'.state).1, g (p'.builder.start p'.state).2) := by
      rw [h.state]
      exact h.builder.start p'.state
    have hplace : ∀ bytes (row : ρ × φ) (row' : ρ × φ'), row = (row'.1, g row'.2) →
        p.builder.place row.1 bytes row.2 =
          ((p'.builder.place row'.1 bytes row'.2).1,
            g (p'.builder.place row'.1 bytes row'.2).2) := by
      rintro bytes _ row' rfl
      exact h.builder.place row'.1 bytes row'.2
    cases meets_next hp (h.finished.trans hp) (h.scanner hp) hstart hplace with
    | exhausted _ _ hn hn' =>
      rw [hn, hn']
      exact ⟨rfl, h.builder, h.state, rfl, nofun⟩
    | seeking _ hn hn' =>
      rw [hn, hn']
      exact ⟨rfl, h.builder, h.state, rfl, nofun⟩
    | scanning _ _ _ hr hn hn' =>
      rw [hn, hn', hr]
      exact ⟨rfl, h.builder, rfl, rfl, nofun⟩
    | row htwins hr hn hn' =>
      rw [hn, hn', hr, h.builder.finish]
      exact ⟨rfl, h.builder, rfl, h.finished, fun _ ↦ htwins⟩

/-- So is any number of requests. -/
theorem Twins.take (h : Twins f g alloc alloc' p p') (n : Nat) :
    (p'.take alloc' n).1 = (p.take alloc n).1.map (renamed f) ∧
      (p.take alloc n).2.state = g (p'.take alloc' n).2.state := by
  induction n generalizing p p' with
  | zero => exact ⟨rfl, h.state⟩
  | succ n ih =>
    obtain ⟨hanswer, hnext⟩ := h.next
    obtain ⟨hanswers, hstate⟩ := ih hnext
    unfold Pass.take
    refine ⟨?_, hstate⟩
    rw [List.map_cons, ← hanswer, ← hanswers]

end Pass
end Delimited
