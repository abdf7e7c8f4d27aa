import Delimited.Proofs.ReadingAhead

/-!
# Scanning what mirrors a source

One source mirrors another if a read of either comes to the same, until the other is spent. A source
that is spent has read something that does not count, and stays spent. Whatever is asked for, a
scanner over the mirror gives what the scanner over the source gives, as long as that is not spent.
-/

namespace Delimited

/-- The state of an outcome in another form. -/
def mapState {ε τ τ' α : Type} (g : τ → τ') : EStateM.Result ε τ α → EStateM.Result ε τ' α
  | .ok a t => .ok a (g t)
  | .error e t => .error e (g t)

/-- The second outcome is the first in another form, unless the first does not count. -/
def Mirrored {ε τ τ' α : Type} (spent : τ → Prop) (g : τ → τ') (result : EStateM.Result ε τ α)
    (result' : EStateM.Result ε τ' α) : Prop :=
  Always spent result ∨ result' = mapState g result

section Mirrored

variable {ε τ τ' α : Type} {spent : τ → Prop} {g : τ → τ'} {result : EStateM.Result ε τ α}
  {result' : EStateM.Result ε τ' α} {t : τ}

theorem Mirrored.of_ok {a : α} (h : Mirrored spent g result result') (hr : result = .ok a t) :
    spent t ∨ result' = .ok a (g t) := by
  subst hr
  exact h

theorem Mirrored.of_error {e : ε} (h : Mirrored spent g result result')
    (hr : result = .error e t) : spent t ∨ result' = .error e (g t) := by
  subst hr
  exact h

end Mirrored

/-- The images of sources mirror them until they are spent. -/
structure Source.Mirrors {σ σ' ε : Type} [Source σ ε] [Source σ' ε] (g : σ → σ')
    (spent : σ → Prop) : Prop where
  stays (s : σ) (h : spent s) : spent (read s).2
  read (s : σ) : spent (read s).2 ∨ read (g s) = ((read s).1, g (read s).2)

variable {σ σ' ε φ ρ γ β : Type} [Source σ ε] [Source σ' ε] {g : σ → σ'} {spent : σ → Prop}
  {alloc : Allocator}

namespace Scanner

omit [Source σ ε] [Source σ' ε] in
/-- A scanner in the same state, over another source. -/
def mapSource (g : σ → σ') (s : Scanner σ) : Scanner σ' :=
  { dialect := s.dialect, source := s.source.map g, ahead := s.ahead, field := s.field,
    journal := s.journal }

omit [Source σ ε] in
/-- The scanner has a source, and the source is as described. -/
def SourceIs (described : σ → Prop) (s : Scanner σ) : Prop :=
  ∃ source ∈ s.source, described source

omit [Source σ ε] [Source σ' ε] in
theorem finish_mapSource (phase : Phase) (s : Scanner σ) :
    (s.mapSource g).finish phase = (s.finish phase).mapSource g := by
  unfold finish
  split <;> rfl

omit [Source σ ε] [Source σ' ε] in
theorem dropping_mapSource (phase : Phase) (b : UInt8) (s : Scanner σ) :
    (s.mapSource g).dropping phase b = (s.dropping phase b).mapSource g := by
  unfold dropping
  split <;> rfl

/-- What holds of a source behind a read holds of it however consuming ends. -/
theorem always_sourceIs_consume {described : σ → Prop} {s : Scanner σ} {source : σ}
    (hs : s.source = some source) (h : described (Source.read source).2) :
    Always (SourceIs described) (consume s) := by
  unfold consume
  rw [hs]
  dsimp only
  cases hread : Source.read source with
  | mk answer next =>
    rw [hread] at h
    cases answer with
    | byte b => exact ⟨next, rfl, h⟩
    | stop ending => cases ending <;> exact ⟨next, rfl, h⟩

/-- What every read preserves is preserved by scanning. -/
theorem preserved_sourceIs {described : σ → Prop}
    (h : ∀ source, described source → described (Source.read source).2) :
    Preserved (SourceIs described) fun _ _ ↦ True where
  note hs _ := hs
  clear hs := hs
  push hs _ := hs
  refused hs _ _ := ⟨hs, trivial⟩
  consume {s} hs _ := by
    obtain ⟨source, hsource, hdescribed⟩ := hs
    exact (always_sourceIs_consume hsource (h source hdescribed)).ends

/-- Consuming the byte in view is mirrored. -/
theorem mirrored_consume (h : Source.Mirrors g spent) (s : Scanner σ) :
    Mirrored (SourceIs spent) (mapSource g) (consume s) (consume (s.mapSource g)) := by
  cases hs : s.source with
  | none =>
    right
    unfold consume mapSource
    rw [hs]
    rfl
  | some source =>
    rcases h.read source with hspent | hread
    · exact .inl (always_sourceIs_consume hs hspent)
    · right
      unfold consume mapSource
      rw [hs]
      dsimp only [Option.map_some]
      rw [hread]
      cases Source.read source with
      | mk answer next =>
        cases answer with
        | byte b => rfl
        | stop ending => cases ending <;> rfl

/-- So is turning to another source. -/
theorem mirrored_attach (h : Source.Mirrors g spent) (source : σ) (s : Scanner σ) :
    Mirrored (SourceIs spent) (mapSource g) (attach source s)
      (attach (g source) (s.mapSource g)) :=
  mirrored_consume h { s with source := some source, field := s.field.clear }

theorem mirrored_skipLineEndings (h : Source.Mirrors g spent) (s : Scanner σ) :
    Mirrored (SourceIs spent) (mapSource g) (skipLineEndings s)
      (skipLineEndings (s.mapSource g)) := by
  fun_induction skipLineEndings s with
  | case1 s hl =>
    rw [skipLineEndings_of_ahead_eq_none (s := s.mapSource g) hl]
    exact .inr rfl
  | case2 s b hl next hs t ht ih =>
    rcases (mirrored_consume h s).of_ok ht with hspent | heq
    · exact .inl ((preserved_sourceIs h.stays).skipLineEndings hspent).always
    · rw [skipLineEndings_eq (s := s.mapSource g) hl,
        show Phase.step (s.mapSource g).dialect _ _ = _ from hs, heq]
      exact ih
  | case3 s b hl next hs e t ht =>
    rcases (mirrored_consume h s).of_error ht with hspent | heq
    · exact .inl hspent
    · rw [skipLineEndings_eq (s := s.mapSource g) hl,
        show Phase.step (s.mapSource g).dialect _ _ = _ from hs, heq]
      exact .inr rfl
  | case4 s b hl hs =>
    right
    rw [skipLineEndings_eq (s := s.mapSource g) hl]
    split
    · next hd => exact absurd hd (hs _)
    · rfl

/-- So is the search for a record. -/
theorem mirrored_skipBlankLines (h : Source.Mirrors g spent) (s : Scanner σ) :
    Mirrored (SourceIs spent) (mapSource g) (skipBlankLines s)
      (skipBlankLines (s.mapSource g)) := by
  unfold skipBlankLines
  rw [show (s.mapSource g).dialect = s.dialect from rfl]
  split
  · exact mirrored_skipLineEndings h s
  · exact .inr rfl

theorem mirrored_skipLineFeed (h : Source.Mirrors g spent) (s : Scanner σ) :
    Mirrored (SourceIs spent) (mapSource g) (skipLineFeed s) (skipLineFeed (s.mapSource g)) := by
  unfold skipLineFeed
  rw [show (s.mapSource g).ahead = s.ahead from rfl]
  split
  · exact mirrored_consume h s
  · exact .inr rfl

theorem mirrored_closeField (h : Source.Mirrors g spent) (delimiter : Delimiter) (s : Scanner σ) :
    Mirrored (SourceIs spent) (mapSource g) (closeField delimiter s)
      (closeField delimiter (s.mapSource g)) := by
  have hp := preserved_sourceIs h.stays
  unfold closeField
  cases hc : consume s with
  | error e t =>
    rcases (mirrored_consume h s).of_error hc with hspent | heq
    · exact .inl hspent
    · rw [heq]
      exact .inr rfl
  | ok u t =>
    rcases (mirrored_consume h s).of_ok hc with hspent | heq
    · left
      cases delimiter with
      | separator => exact hspent
      | lineFeed => exact hspent
      | carriageReturn =>
        dsimp only
        have hskip := (hp.skipLineFeed hspent).always
        generalize skipLineFeed t = result at hskip ⊢
        cases result <;> exact hskip
    · rw [heq]
      cases delimiter with
      | separator => exact .inr rfl
      | lineFeed => exact .inr rfl
      | carriageReturn =>
        dsimp only
        have hskip := mirrored_skipLineFeed h t
        generalize skipLineFeed t = result at hskip ⊢
        generalize skipLineFeed (t.mapSource g) = result' at hskip ⊢
        rcases hskip with hspent | rfl
        · left
          cases result <;> exact hspent
        · right
          cases result <;> rfl

/-- Scanning on is mirrored from whatever phase it begins in. -/
theorem mirrored_readFrom (h : Source.Mirrors g spent) (phase : Phase) (s : Scanner σ) :
    Mirrored (SourceIs spent) (mapSource g) (readFrom alloc phase s)
      (readFrom alloc phase (s.mapSource g)) := by
  have hp := preserved_sourceIs h.stays
  fun_induction readFrom alloc phase s with
  | case1 phase s hl =>
    rw [readFrom_of_ahead_eq_none (s := s.mapSource g) hl, finish_mapSource]
    exact .inr rfl
  | case2 phase s b hl next hs e field hpush =>
    rw [readFrom_append_refused (s := s.mapSource g) hl hs hpush]
    exact .inr rfl
  | case3 phase s b hl next hs field hpush t ht ih =>
    rcases (mirrored_consume h { s with field }).of_ok ht with hspent | heq
    · exact .inl (hp.readFrom hspent next).always
    · rw [readFrom_append (s := s.mapSource g) hl hs hpush heq]
      exact ih
  | case4 phase s b hl next hs field hpush e t ht =>
    rcases (mirrored_consume h { s with field }).of_error ht with hspent | heq
    · exact .inl hspent
    · rw [readFrom_append_error (s := s.mapSource g) hl hs hpush heq]
      exact .inr rfl
  | case5 phase s b hl next hs t ht ih =>
    have hconsume := mirrored_consume h (s.dropping phase b)
    rw [← dropping_mapSource] at hconsume
    rcases hconsume.of_ok ht with hspent | heq
    · exact .inl (hp.readFrom hspent next).always
    · rw [readFrom_drop (s := s.mapSource g) hl hs heq]
      exact ih
  | case6 phase s b hl next hs e t ht =>
    have hconsume := mirrored_consume h (s.dropping phase b)
    rw [← dropping_mapSource] at hconsume
    rcases hconsume.of_error ht with hspent | heq
    · exact .inl hspent
    · rw [readFrom_drop_error (s := s.mapSource g) hl hs heq]
      exact .inr rfl
  | case7 phase s b hl next hs ih =>
    rw [readFrom_stay (s := s.mapSource g) hl hs]
    exact ih
  | case8 phase s b hl next delimiter hs =>
    rw [readFrom_close (s := s.mapSource g) hl hs]
    exact mirrored_closeField h delimiter s
  | case9 phase s b hl next hs =>
    rw [readFrom_finish (s := s.mapSource g) hl hs, finish_mapSource]
    exact .inr rfl

/-- So is a scan. -/
theorem mirrored_readField (h : Source.Mirrors g spent) (s : Scanner σ) :
    Mirrored (SourceIs spent) (mapSource g) (readField alloc s)
      (readField alloc (s.mapSource g)) :=
  mirrored_readFrom h .fieldStart { s with field := s.field.clear }

omit [Source σ ε] [Source σ' ε] in
theorem after_of_mirrored {τ τ' α : Type} {lost : τ → Prop} {f : τ → τ'}
    {result : EStateM.Result (ReadError ε) τ α} {result' : EStateM.Result (ReadError ε) τ' α}
    (h : Mirrored lost f result result') :
    lost (after result) ∨ after result' = f (after result) := by
  cases result with
  | ok a t => exact (h.of_ok rfl).imp id (congrArg after)
  | error e t => exact (h.of_error rfl).imp id (congrArg after)

/-- What becomes of the scanner in a request is mirrored. -/
theorem serve_mapSource (h : Source.Mirrors g spent) (s : Scanner σ) (request : Request) :
    (s.serve request).SourceIs spent ∨
      (s.mapSource g).serve request = (s.serve request).mapSource g := by
  cases request with
  | seek => exact after_of_mirrored (mirrored_skipBlankLines h s)
  | scan alloc => exact after_of_mirrored (mirrored_readField h s)

/-- So is what becomes of it in any number of requests. -/
theorem serveAll_mapSource (h : Source.Mirrors g spent) (s : Scanner σ)
    (requests : List Request) :
    (s.serveAll requests).SourceIs spent ∨
      (s.mapSource g).serveAll requests = (s.serveAll requests).mapSource g := by
  induction requests generalizing s with
  | nil => exact .inr rfl
  | cons request requests ih =>
    rw [serveAll_cons, serveAll_cons]
    rcases serve_mapSource h s request with hspent | heq
    · exact .inl ((preserved_sourceIs h.stays).serveAll hspent requests)
    · rw [heq]
      exact ih _

theorem always_spent_readRow (h : Source.Mirrors g spent)
    (take : List UInt8 → β → EStateM.Result GrowthError β Unit) (fields : Nat) {s : Scanner σ}
    (hs : s.SourceIs spent) (taken : β) :
    Always (fun t : Scanner σ × β ↦ t.1.SourceIs spent) (readRow alloc take fields s taken) := by
  have htake : ∀ bytes (taken : β), True → Always (fun _ ↦ True) (take bytes taken) := by
    intro bytes taken _
    cases take bytes taken <;> trivial
  exact ((preserved_sourceIs h.stays).readRow htake hs fields trivial).imp fun _ ht ↦ ht.1

/-- Reading a row is mirrored, whatever the fields are handed over to. -/
theorem mirrored_readRow (h : Source.Mirrors g spent)
    (take : List UInt8 → β → EStateM.Result GrowthError β Unit) (fields : Nat) (s : Scanner σ)
    (taken : β) :
    Mirrored (fun t : Scanner σ × β ↦ t.1.SourceIs spent) (fun t ↦ (t.1.mapSource g, t.2))
      (readRow alloc take fields s taken) (readRow alloc take fields (s.mapSource g) taken) := by
  fun_induction readRow alloc take fields s taken with
  | case1 fields s taken e t hf =>
    rcases (mirrored_readField h s).of_error hf with hspent | heq
    · exact .inl hspent
    · rw [readRow_of_error heq]
      exact .inr rfl
  | case2 fields s taken t hf e lost ht =>
    rcases (mirrored_readField h s).of_ok hf with hspent | heq
    · exact .inl hspent
    · rw [readRow_of_refusal heq ht]
      exact .inr rfl
  | case3 fields s taken t hf next ht =>
    rcases (mirrored_readField h s).of_ok hf with hspent | heq
    · exact .inl hspent
    · rw [readRow_of_record heq ht]
      exact .inr rfl
  | case4 fields s taken t hf e lost ht =>
    rcases (mirrored_readField h s).of_ok hf with hspent | heq
    · exact .inl hspent
    · rw [readRow_of_refusal heq ht]
      exact .inr rfl
  | case5 fields s taken t hf next ht ih =>
    rcases (mirrored_readField h s).of_ok hf with hspent | heq
    · exact .inl (always_spent_readRow h take (fields + 1) hspent next)
    · rw [readRow_of_field heq ht]
      exact ih

end Scanner

namespace Pass

omit [Source σ ε] [Source σ' ε] in
/-- A pass in the same state, over another source. -/
def mapSource (g : σ → σ') (p : Pass σ φ ρ γ) : Pass σ' φ ρ γ :=
  { builder := p.builder, state := p.state, scanner := p.scanner.mapSource g,
    finished := p.finished }

/-- The answer to a request for the next item is mirrored, and so is what becomes of the pass. -/
theorem next_mapSource (h : Source.Mirrors g spent) (alloc : Allocator) (p : Pass σ φ ρ γ) :
    (p.next alloc).2.scanner.SourceIs spent ∨
      (p.mapSource g).next alloc = ((p.next alloc).1, (p.next alloc).2.mapSource g) := by
  have hrequested := requested_next alloc p
  generalize p.next alloc = outcome at hrequested ⊢
  cases hrequested with
  | finished hp =>
    rw [next_of_finished (p := p.mapSource g) hp]
    exact .inr rfl
  | seeking hp hskip =>
    rcases (Scanner.mirrored_skipBlankLines h p.scanner).of_error hskip with hspent | heq
    · exact .inl hspent
    · rw [next_of_seeking (p := p.mapSource g) hp heq]
      exact .inr rfl
  | exhausted hp hskip hend =>
    rcases (Scanner.mirrored_skipBlankLines h p.scanner).of_ok hskip with hspent | heq
    · exact .inl hspent
    · rw [next_of_exhausted (p := p.mapSource g) hp heq hend]
      exact .inr rfl
  | @scanning s t e row hp hskip hend hrow =>
    rcases (Scanner.mirrored_skipBlankLines h p.scanner).of_ok hskip with hspent | heq
    · exact .inl ((Scanner.always_spent_readRow h _ 0 hspent _).of_error hrow)
    · rcases (Scanner.mirrored_readRow h _ 0 s _).of_error hrow with hspent | hsame
      · exact .inl hspent
      · rw [next_of_scanning (p := p.mapSource g) hp heq hend hsame]
        exact .inr rfl
  | @row s t fields row hp hskip hend hrow =>
    rcases (Scanner.mirrored_skipBlankLines h p.scanner).of_ok hskip with hspent | heq
    · exact .inl ((Scanner.always_spent_readRow h _ 0 hspent _).of_ok hrow)
    · rcases (Scanner.mirrored_readRow h _ 0 s _).of_ok hrow with hspent | hsame
      · exact .inl hspent
      · rw [next_of_readRow (p := p.mapSource g) hp heq hend hsame]
        exact .inr rfl

/-- So is every answer to a number of requests. -/
theorem take_mapSource (h : Source.Mirrors g spent) (p : Pass σ φ ρ γ) (n : Nat) :
    (p.take alloc n).2.scanner.SourceIs spent ∨
      (p.mapSource g).take alloc n = ((p.take alloc n).1, (p.take alloc n).2.mapSource g) := by
  induction n generalizing p with
  | zero => exact .inr rfl
  | succ n ih =>
    rcases next_mapSource h alloc p with hspent | heq
    · exact .inl ((Scanner.preserved_sourceIs h.stays).take hspent n)
    · refine (ih (p.next alloc).2).imp id fun hrest ↦ ?_
      unfold take
      rw [heq]
      dsimp only
      rw [hrest]

end Pass
end Delimited
