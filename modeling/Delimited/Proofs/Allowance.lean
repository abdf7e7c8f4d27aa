import Delimited.Proofs.Mirroring
import Delimited.Source.Metered

/-!
# Reading without end

A stream that never ends is a source with an allowance. As long as the allowance lasts it makes no
difference: with a larger one, every request is answered in the same way. So what is known of
sources, which all come to a stop, is known of any reading, whether it stops, goes on behind a stop
or gives bytes for ever.
-/

namespace Delimited

variable {σ σ' τ ε φ ρ γ : Type}

namespace Metered

/-- The same reading with a larger allowance. -/
def more (extra : Nat) (m : Metered τ ε) : Metered τ ε :=
  { m with allowance := m.allowance + extra }

/-- Nothing more may be taken, and a byte may have been held back. -/
def IsUsedUp (m : Metered τ ε) : Prop := m.allowance = 0

section Reading

variable {reading : τ → Answer ε × τ} {state next : τ} {allowance : Nat}

theorem read_of_stop {ending : Ending ε} (h : reading state = (.stop ending, next)) :
    (Metered.mk reading state allowance).read = (.stop ending, ⟨reading, next, allowance⟩) := by
  unfold read
  dsimp only
  rw [h]

theorem read_of_byte {b : UInt8} (h : reading state = (.byte b, next)) :
    (Metered.mk reading state (allowance + 1)).read = (.byte b, ⟨reading, next, allowance⟩) := by
  unfold read
  dsimp only
  rw [h]

theorem isUsedUp_of_byte {b : UInt8} (h : reading state = (.byte b, next)) :
    (Metered.mk reading state 0).read.2.IsUsedUp := by
  unfold read
  dsimp only
  rw [h]
  rfl

end Reading

/-- A larger allowance makes no difference as long as the smaller one lasts. -/
theorem mirrors_more (extra : Nat) :
    Source.Mirrors (more extra) (IsUsedUp : Metered τ ε → Prop) where
  stays := by
    rintro ⟨reading, state, _⟩ rfl
    show (read _).2.IsUsedUp
    cases hread : reading state with
    | mk answer next =>
      cases answer with
      | byte b => exact isUsedUp_of_byte hread
      | stop ending =>
        rw [read_of_stop hread]
        rfl
  read := by
    rintro ⟨reading, state, allowance⟩
    show (read _).2.IsUsedUp ∨ read _ = ((read _).1, more extra (read _).2)
    cases hread : reading state with
    | mk answer next =>
      cases answer with
      | byte b =>
        cases allowance with
        | zero => exact .inl (isUsedUp_of_byte hread)
        | succ allowance =>
          right
          have hmore : (Metered.mk reading state (allowance + extra + 1)).read =
              (.byte b, ⟨reading, next, allowance + extra⟩) := read_of_byte hread
          rw [read_of_byte hread]
          unfold more
          dsimp only
          rw [Nat.add_right_comm, hmore]
      | stop ending =>
        right
        rw [read_of_stop hread]
        exact read_of_stop hread

/-- The answers to the first reads, and the state behind them. A stop among them is no end. -/
def readings (reading : τ → Answer ε × τ) (state : τ) : Nat → List (Answer ε) × τ
  | 0 => ([], state)
  | n + 1 =>
    let earlier := readings reading state n
    let answered := reading earlier.2
    (earlier.1 ++ [answered.1], answered.2)

end Metered

namespace Recorded

/-- The record of another source that has given the same answers. -/
def map (g : σ → σ') (r : Recorded σ ε) : Recorded σ' ε := ⟨g r.source, r.answers⟩

variable [Source σ ε] [Source σ' ε]

/-- What mirrors a source mirrors it on record too. -/
theorem mirrors_map {g : σ → σ'} {spent : σ → Prop} (h : Source.Mirrors g spent) :
    Source.Mirrors (map g) fun r : Recorded σ ε ↦ spent r.source where
  stays r hspent := h.stays r.source hspent
  read r := by
    refine (h.read r.source).imp id fun hread ↦ ?_
    show Recorded.read _ = ((Recorded.read r).1, map g (Recorded.read r).2)
    unfold Recorded.read map
    dsimp only
    rw [hread]

/-- A source mirrors its record. -/
theorem mirrors_source :
    Source.Mirrors (Recorded.source : Recorded σ ε → σ) fun _ ↦ False where
  stays _ h := h
  read _ := .inr rfl

/-- The record shows what the reading has answered. -/
def IsFaithful (reading : τ → Answer ε × τ) (state : τ) (r : Recorded (Metered τ ε) ε) : Prop :=
  r.source.reading = reading ∧
    Metered.readings reading state r.answers.length = (r.answers, r.source.state)

/-- The record stays faithful until the allowance is used up. -/
theorem isFaithful_read {reading : τ → Answer ε × τ} {state : τ} (r : Recorded (Metered τ ε) ε)
    (h : r.source.IsUsedUp ∨ r.IsFaithful reading state) :
    (Source.read r).2.source.IsUsedUp ∨ (Source.read r).2.IsFaithful reading state := by
  rcases h with hspent | ⟨hsame, hanswers⟩
  · exact .inl ((Metered.mirrors_more 0).stays r.source hspent)
  · obtain ⟨⟨other, now, allowance⟩, answers⟩ := r
    obtain rfl : other = reading := hsame
    show (Metered.read _).2.IsUsedUp ∨
      IsFaithful _ state ⟨(Metered.read _).2, answers ++ [(Metered.read _).1]⟩
    cases hread : other now with
    | mk answer next =>
      have hmore : Metered.readings other state (answers ++ [answer]).length =
          (answers ++ [answer], next) := by
        rw [List.length_append, List.length_singleton, Metered.readings, hanswers]
        dsimp only
        rw [hread]
      cases answer with
      | byte b =>
        cases allowance with
        | zero => exact .inl (Metered.isUsedUp_of_byte hread)
        | succ allowance =>
          rw [Metered.read_of_byte hread]
          exact .inr ⟨rfl, hmore⟩
      | stop ending =>
        rw [Metered.read_of_stop hread]
        exact .inr ⟨rfl, hmore⟩

end Recorded

namespace Scanner

variable [Source σ ε]

/-- A scanner gives the same whether its source is recorded or not. -/
theorem serveAll_unrecorded (s : Scanner (Recorded σ ε)) (requests : List Request) :
    (s.mapSource Recorded.source).serveAll requests =
      (s.serveAll requests).mapSource Recorded.source :=
  (serveAll_mapSource Recorded.mirrors_source s requests).resolve_left fun ⟨_, _, h⟩ ↦ h

/-- A scanner is asked for anything, and the allowance of its source lasts. With a larger one the
same becomes of it. -/
theorem serveAll_more (s : Scanner (Metered τ ε)) (requests : List Request)
    (h : ¬ (s.serveAll requests).SourceIs Metered.IsUsedUp) (extra : Nat) :
    (s.mapSource (Metered.more extra)).serveAll requests =
      (s.serveAll requests).mapSource (Metered.more extra) :=
  (serveAll_mapSource (Metered.mirrors_more extra) s requests).resolve_left h

end Scanner

/-- A pass is asked for any number of items, and the allowance of its source lasts. With a larger
one the answers are the same. -/
theorem Pass.take_more {alloc : Allocator} (p : Pass (Metered τ ε) φ ρ γ) (n : Nat)
    (h : ¬ (p.take alloc n).2.scanner.SourceIs Metered.IsUsedUp) (extra : Nat) :
    (p.mapSource (Metered.more extra)).take alloc n =
      ((p.take alloc n).1, (p.take alloc n).2.mapSource (Metered.more extra)) :=
  (take_mapSource (Metered.mirrors_more extra) p n).resolve_left h

/-- Answers that are one ahead of what is consumed are the bytes consumed and one more. -/
theorem Answer.dropLast_of_prefix {ending : Ending ε} {answers : List (Answer ε)}
    {consumed rest : List UInt8}
    (hbegins : answers <+: (consumed ++ rest).map .byte ++ [stop ending])
    (hlength : answers.length = consumed.length + 1) :
    answers.dropLast = consumed.map .byte := by
  obtain ⟨others, hall⟩ := hbegins
  have hfront : answers.take consumed.length = (answers ++ others).take consumed.length :=
    (List.take_append_of_le_length (by omega)).symm
  rw [List.dropLast_eq_take, hlength, Nat.add_sub_cancel, hfront, hall, List.map_append,
    List.append_assoc]
  exact List.take_left' (List.length_map _)

open Scanner

/-- Any reading is read one byte ahead, whether it comes to an end or not: a scanner that has been
used in any way is turned to it, with an allowance that lasts for the requests. The record shows the
first answers of the reading, of which all but the last are the bytes that the requests take, and
the last is in view. Behind a stop nothing is read, whatever is asked for. No larger allowance makes
a difference. -/
theorem reads_one_ahead_of_reading {alloc : Allocator} {d : Dialect}
    {fresh : Scanner (Recorded (Metered τ ε) ε)} (hs : create alloc d = .ok fresh)
    (reading : τ → Answer ε × τ) (state : τ) (allowance : Nat)
    (history : List (Use (Recorded (Metered τ ε) ε))) (requests : List Request) :
    let begun (allowance : Nat) :=
      (fresh.run history).perform (.attach ⟨⟨reading, state, allowance⟩, []⟩)
    let t := (begun allowance).serveAll requests
    ¬ t.SourceIs (fun r ↦ r.source.IsUsedUp) →
      ∃ consumed rest r, TakesAll d (begun allowance) requests (consumed ++ rest) rest ∧
        t.source = some r ∧
        r.answers = (Metered.readings reading state (consumed.length + 1)).1 ∧
        r.answers.dropLast = consumed.map .byte ∧
        t.ahead = r.answers.getLast?.bind Answer.byte? ∧
        (t.ahead = none → ∀ later,
          let u := t.serveAll later
          u.source = some r ∧ u.isAtEnd = true ∧ u.skipBlankLines = .ok () u ∧
            ∀ alloc, u.readField alloc = .ok .record { u with field := u.field.clear } ∧
              u.field.clear.toList = []) ∧
        ∀ extra, (begun (allowance + extra)).serveAll requests =
          t.mapSource (Recorded.map (Metered.more extra)) := by
  intro begun t hlasts
  let m : Metered τ ε := ⟨reading, state, allowance⟩
  have hg : Source.Gives m (Source.drain m).1 (Source.drain m).2.1 := ⟨_, rfl⟩
  obtain ⟨consumed, rest, r, htext, htakes, hsource, hlength, hbegins, hahead, hlast, -, hstop⟩ :=
    reads_one_ahead hs hg history requests
  rw [htext] at htakes hbegins
  have hfaithful : r.IsFaithful reading state := by
    have hbegun : (begun allowance).SourceIs
        fun r ↦ r.source.IsUsedUp ∨ r.IsFaithful reading state :=
      after_of_always (always_sourceIs_consume rfl
        (Recorded.isFaithful_read ⟨m, []⟩ (.inr ⟨rfl, rfl⟩)))
    obtain ⟨r', hr', h⟩ :=
      (preserved_sourceIs Recorded.isFaithful_read).serveAll hbegun requests
    obtain rfl : r' = r := Option.some.inj (hr'.symm.trans hsource)
    exact h.resolve_left fun hspent ↦ hlasts ⟨r', hr', hspent⟩
  refine ⟨consumed, rest, r, htakes, hsource, ?_, ?_, hahead.trans hlast.symm, fun hend ↦ ?_,
    fun extra ↦ ?_⟩
  · rw [← hlength, hfaithful.2]
  · exact Answer.dropLast_of_prefix hbegins hlength
  · exact hstop (List.head?_eq_none_iff.mp (hahead.symm.trans hend))
  · have hmirrors : Source.Mirrors (Recorded.map (Metered.more extra))
        fun r : Recorded (Metered τ ε) ε ↦ r.source.IsUsedUp :=
      Recorded.mirrors_map (Metered.mirrors_more extra)
    have hattach := (after_of_mirrored
      (mirrored_attach hmirrors ⟨m, []⟩ (fresh.run history))).resolve_left
        fun hspent ↦ hlasts ((preserved_sourceIs hmirrors.stays).serveAll hspent requests)
    have hbegun : begun (allowance + extra) =
        (begun allowance).mapSource (Recorded.map (Metered.more extra)) := hattach
    rw [hbegun]
    exact (serveAll_mapSource hmirrors _ requests).resolve_left hlasts

end Delimited
