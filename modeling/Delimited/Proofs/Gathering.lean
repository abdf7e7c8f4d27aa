import Delimited.Proofs.CourseAgreement
import Delimited.Proofs.Protocol

/-!
# Gathering the items of a pass

All the items of a first pass are made of the rows that plain rows would be made of, whatever the
assembler and the kind of the source. An error at any place leaves nothing of them. Nothing is
assumed of the allocator.
-/

namespace Delimited

/-- What is made of an outcome of reading. An error stays what it is, up to the name of a
failure. -/
def ReadError.remake {ε ε' α β : Type} (f : ε → ε') (g : α → β) (outcome : Except (ReadError ε) α) :
    Except (ReadError ε') β :=
  (outcome.map g).mapError (ReadError.map f)

open ReadError (remake)

/-- Two outcomes are made of the same rows, or both are an error, which is the same up to its name
and is found where the rows or what is made of them cannot be had. -/
def MadeOf {ε₁ ε₂ ε₃ α β : Type} (rename : ε₂ → ε₃)
    (plain : Except ε₁ (List (List (List UInt8)))) (make : List (List (List UInt8)) → α)
    (make' : List (List (List UInt8)) → β) (outcome : Except ε₂ α) (outcome' : Except ε₃ β) :
    Prop :=
  (∃ e, outcome = .error e ∧ outcome' = .error (rename e)) ∨
    ∃ rows, plain = .ok rows ∧ outcome = .ok (make rows) ∧ outcome' = .ok (make' rows)

section MadeOf

variable {ε₁ ε₂ ε₃ ε₄ α β γ : Type} {rename : ε₂ → ε₃}
  {plain : Except ε₁ (List (List (List UInt8)))} {make : List (List (List UInt8)) → α}
  {make' : List (List (List UInt8)) → β} {outcome : Except ε₂ α} {outcome' : Except ε₃ β}

/-- More can be made of the second outcome, under another name of its error. -/
theorem MadeOf.further (h : MadeOf rename plain make make' outcome outcome') (rename' : ε₃ → ε₄)
    (g : β → γ) {make'' : List (List (List UInt8)) → γ}
    (hmake : ∀ rows, g (make' rows) = make'' rows) :
    MadeOf (rename' ∘ rename) plain make make'' outcome ((outcome'.map g).mapError rename') := by
  obtain ⟨e, rfl, rfl⟩ | ⟨rows, hplain, rfl, rfl⟩ := h
  · exact .inl ⟨e, rfl, rfl⟩
  · exact .inr ⟨rows, hplain, rfl, congrArg Except.ok (hmake rows)⟩

/-- Where there is the first outcome, there is the second one. -/
theorem MadeOf.exists_ok {a : α} (h : MadeOf rename plain make make' (.ok a) outcome') :
    ∃ b, outcome' = .ok b := by
  obtain ⟨e, he, -⟩ | ⟨rows, -, -, hmade⟩ := h
  · cases he
  · exact ⟨_, hmade⟩

end MadeOf

theorem mapM_id_remake {ε ε' α β : Type} (f : ε → ε') (g : α → β)
    (items : List (Except (ReadError ε) α)) :
    (items.map (remake f g)).mapM id = remake f (List.map g) (items.mapM id) := by
  induction items with
  | nil => rfl
  | cons item items ih =>
    rw [List.map_cons, List.mapM_cons, List.mapM_cons, ih]
    cases item with
    | error e => rfl
    | ok value =>
      cases items.mapM id with
      | error e => rfl
      | ok values => rfl

/-- What a builder without a state makes of a row. -/
def RowBuilder.make {ρ γ : Type} (builder : RowBuilder Unit ρ γ) (row : List (List UInt8)) : γ :=
  (builder.build row ()).1

namespace Pass

variable {σ σ' ε ε' ρ γ : Type} [Source σ ε] [Source σ' ε'] {f : ε → ε'} {alloc : Allocator}
  {d : Dialect} {text : List UInt8} {ending : Ending ε}

/-- The second pass goes on like the first one, a pass over plain rows, and has a builder of its
own. -/
structure Rebuilds (f : ε → ε') (alloc : Allocator)
    (p : Pass σ Unit (List (List UInt8)) (List (List UInt8))) (q : Pass σ' Unit ρ γ) : Prop where
  builder : p.builder = Assembler.standard.rows
  finished : q.finished = p.finished
  scanner : p.finished = false → Scanner.Twins f alloc alloc p.scanner q.scanner

variable {p : Pass σ Unit (List (List UInt8)) (List (List UInt8))} {q : Pass σ' Unit ρ γ}

/-- The next item is made of the next row. -/
theorem Rebuilds.next (h : Rebuilds f alloc p q) :
    (q.next alloc).1 = (p.next alloc).1.map (remake f q.builder.make) ∧
      (q.next alloc).2.builder = q.builder ∧
      Rebuilds f alloc (p.next alloc).2 (q.next alloc).2 := by
  cases hp : p.finished with
  | true =>
    rw [next_of_finished hp, next_of_finished (h.finished.trans hp)]
    exact ⟨rfl, rfl, h⟩
  | false =>
    cases meets_next_of_rows h.builder hp (h.finished.trans hp) (h.scanner hp) with
    | exhausted _ _ hn hn' =>
      rw [hn, hn']
      exact ⟨rfl, rfl, h.builder, rfl, nofun⟩
    | seeking _ hn hn' =>
      rw [hn, hn']
      exact ⟨rfl, rfl, h.builder, rfl, nofun⟩
    | scanning _ _ _ _ hn hn' =>
      rw [hn, hn']
      exact ⟨rfl, rfl, h.builder, rfl, nofun⟩
    | row htwins hr hn hn' =>
      rw [hn, hn', hr]
      refine ⟨?_, rfl, h.builder, h.finished, fun _ ↦ htwins⟩
      rw [h.builder]
      rfl

/-- All the items are made of the rows. -/
theorem Rebuilds.items (h : Rebuilds f alloc p q) :
    (q.items alloc).1 = (p.items alloc).1.map (remake f q.builder.make) := by
  -- Every item lowers the bound on the items to come.
  induction hleft : p.left using Nat.strongRecOn generalizing p q with
  | ind left ih =>
    obtain ⟨hnext, hbuilder, hrebuilds⟩ := h.next
    cases hn : p.next alloc with
    | mk answer p' =>
      rw [hn] at hnext hrebuilds
      cases answer with
      | none =>
        have hn' : q.next alloc = (none, (q.next alloc).2) := Prod.ext hnext rfl
        rw [items_of_none hn', items_of_none hn]
        rfl
      | some item =>
        have hn' : q.next alloc = (some (remake f q.builder.make item), (q.next alloc).2) :=
          Prod.ext hnext rfl
        rw [items_of_some hn', items_of_some hn,
          ih p'.left (hleft ▸ left_lt_of_next hn) hrebuilds rfl, hbuilder]
        rfl

/-- What is collected is made of the rows. -/
theorem Rebuilds.collect (h : Rebuilds f alloc p q) :
    q.collect alloc = remake f (List.map q.builder.make) (p.collect alloc) := by
  unfold Pass.collect
  rw [h.items, mapM_id_remake]

theorem collect_of_next_eq_none {q : Pass σ Unit ρ γ} (h : (q.next alloc).1 = none) :
    q.collect alloc = .ok [] := by
  have hnext : q.next alloc = (none, (q.next alloc).2) := Prod.ext h rfl
  rw [Pass.collect, items_of_none hnext]
  rfl

theorem collect_of_next_eq_some {q : Pass σ Unit ρ γ} {item : Except (ReadError ε) γ}
    (h : (q.next alloc).1 = some item) :
    q.collect alloc = (do return (← item) :: (← (q.next alloc).2.collect alloc)) := by
  have hnext : q.next alloc = (some item, (q.next alloc).2) := Prod.ext h rfl
  rw [Pass.collect, items_of_some hnext, List.mapM_cons]
  rfl

/-- A pass gives nothing only where the source is done, and behind a row it stands before the same
ending. -/
theorem next_leaves (alloc : Allocator) {q : Pass σ Unit ρ γ} (hq : q.finished = false)
    (h : q.scanner.At d text ending) :
    ((q.next alloc).1 = none → ending = .done) ∧
      ∀ value, (q.next alloc).1 = some (.ok value) →
        (q.next alloc).2.finished = false ∧
          ∃ behind, (q.next alloc).2.scanner.At d behind ending := by
  have hleaves := Scanner.leaves_skipBlankLines h
  cases hskip : Scanner.skipBlankLines q.scanner with
  | error e t =>
    rw [next_of_seeking hq hskip]
    exact ⟨nofun, nofun⟩
  | ok u s =>
    rw [hskip] at hleaves
    obtain ⟨hs, -⟩ := hleaves
    cases hend : s.isAtEnd with
    | true =>
      rw [next_of_exhausted hq hskip hend]
      rw [hs.isAtEnd_iff.mp hend] at hs
      exact ⟨fun _ ↦ hs.eq_done, nofun⟩
    | false =>
      cases hrow : s.readRow alloc (placing q.builder) 0 (q.builder.start q.state) with
      | error e cut =>
        rw [next_of_scanning hq hskip hend hrow]
        exact ⟨nofun, nofun⟩
      | ok count read =>
        have hread := (Scanner.of_readRow_eq_ok hs hrow).2
        rw [next_of_readRow hq hskip hend hrow]
        exact ⟨nofun, fun _ _ ↦ ⟨hq, _, hread.of_eq rfl hread.sound rfl rfl⟩⟩

/-- A pass over a source that fails is not collected. -/
theorem exists_error_of_failure (alloc : Allocator) {q : Pass σ Unit ρ γ} {cause : ε}
    (hq : q.finished = false) (h : q.scanner.At d text (.failure cause)) :
    ∃ e, q.collect alloc = .error e := by
  unfold Pass.collect
  induction hleft : q.left using Nat.strongRecOn generalizing q text with
  | ind left ih =>
    obtain ⟨hnone, hrow⟩ := next_leaves alloc hq h
    cases hn : q.next alloc with
    | mk answer q' =>
      rw [hn] at hnone hrow
      cases answer with
      | none => cases hnone rfl
      | some item =>
        rw [items_of_some hn, List.mapM_cons]
        cases item with
        | error e => exact ⟨e, rfl⟩
        | ok value =>
          obtain ⟨hfinished, behind, hat⟩ := hrow value rfl
          obtain ⟨e, he⟩ := ih q'.left (hleft ▸ left_lt_of_next hn) hfinished hat rfl
          rw [he]
          exact ⟨e, rfl⟩

/-- Where memory is granted, the failure of the source is the error. -/
theorem collect_of_failure {q : Pass σ Unit ρ γ} {cause : ε} (hg : alloc.GrantsFor text.length)
    (h : q.At d text (.failure cause)) : q.collect alloc = .error (.reading cause) := by
  rw [Pass.collect, items_eq hg h]
  induction q.builder.buildAll (Grammar.settledTable d text (.failure cause)) q.state with
  | nil => rfl
  | cons value values ih =>
    rw [List.map_cons, List.cons_append, List.mapM_cons, ih]
    rfl

end Pass

theorem Assembler.make_standard_rows : Assembler.standard.rows.make = id := by
  funext row
  exact congrArg Prod.fst (build_standard_rows row)

theorem Assembler.make_standard_records (keys : List (List UInt8)) :
    (Assembler.standard.records keys).make = Record.ofRow keys := by
  funext row
  exact congrArg Prod.fst (build_standard_records keys row)

namespace Reader

variable {π π' σ σ' ε ε' Field Row Keyed Field' Row' Keyed' ρ γ ρ' γ' : Type} [Source σ ε]
  [Source σ' ε'] {f : ε → ε'} {alloc : Allocator} {d : Dialect}

/-- Two passes that begin alike are both made of the rows that plain rows would be made of there. -/
theorem madeOf_collect {t : Reader π σ} {t' : Reader π' σ'}
    (h : Scanner.Twins f alloc alloc t.scanner t'.scanner) (builder : RowBuilder Unit ρ γ)
    (builder' : RowBuilder Unit ρ' γ') :
    MadeOf (ReadError.map f) ((t.pass Assembler.standard.rows ()).collect (ε := ε) alloc)
      (List.map builder.make) (List.map builder'.make) ((t.pass builder ()).collect alloc)
      ((t'.pass builder' ()).collect alloc) := by
  obtain ⟨d, text, ending, hat, -⟩ := id h
  have hsame : Pass.Rebuilds id alloc (t.pass Assembler.standard.rows ()) (t.pass builder ()) :=
    ⟨rfl, rfl, fun _ ↦ .refl alloc hat⟩
  have hother : Pass.Rebuilds f alloc (t.pass Assembler.standard.rows ()) (t'.pass builder' ()) :=
    ⟨rfl, rfl, fun _ ↦ h⟩
  rw [hsame.collect, hother.collect]
  cases (t.pass Assembler.standard.rows ()).collect (ε := ε) alloc with
  | error e => exact .inl ⟨e, congrArg Except.error e.map_id, rfl⟩
  | ok rows => exact .inr ⟨rows, rfl, rfl, rfl⟩

/-- Behind the keys that a reader takes from the first row stand the other rows. -/
theorem collect_behind_header {t u : Reader π σ} {text : List UInt8} {ending : Ending ε}
    {keys : Buffer (List UInt8)} (hat : t.scanner.At d text ending) (hk : keys.isSound = true)
    (hempty : keys.toList = [])
    (hr : t.scanner.readHeader alloc keys = .ok () (u.scanner, u.keyBuffer))
    {rest : List (List (List UInt8))}
    (hrest : (u.pass Assembler.standard.rows ()).collect (ε := ε) alloc = .ok rest) :
    ∃ rows, (t.pass Assembler.standard.rows ()).collect (ε := ε) alloc = .ok rows ∧
      rows.headD [] = u.keys ∧ rows.tail = rest := by
  obtain ⟨hnone, -, hkeys, hend⟩ | ⟨hfirst, hbuilder, hfinished, htwins, -⟩ :=
    begun_of_readHeader hat hk hempty hr
  · have hdone : u.scanner.At d [] (.done : Ending ε) := hend.eq_done ▸ hend
    refine ⟨[], Pass.collect_of_next_eq_none hnone, hkeys.symm, ?_⟩
    obtain ⟨q, hq, -⟩ := Pass.next_of_done alloc
      (p := u.pass Assembler.standard.rows ()) ⟨rfl, hdone, by decide⟩ (Grammar.recordStart_nil d)
    have hnil := Pass.collect_of_next_eq_none (congrArg Prod.fst hq)
    rw [hrest] at hnil
    exact (Except.ok.inj hnil).symm
  · refine ⟨u.keys :: rest, ?_, rfl, rfl⟩
    have hrebuilds : Pass.Rebuilds id alloc
        ((t.pass Assembler.standard.rows ()).next alloc).2 (u.pass Assembler.standard.rows ()) :=
      ⟨hbuilder, hfinished.symm, fun _ ↦ htwins⟩
    have hcollect := hrebuilds.collect
    rw [hrest] at hcollect
    rw [Pass.collect_of_next_eq_some hfirst]
    generalize ((t.pass Assembler.standard.rows ()).next alloc).2.collect alloc = outcome
      at hcollect ⊢
    cases outcome with
    | error e => cases hcollect
    | ok rest' =>
      obtain rfl : rest = rest' := by
        refine (Except.ok.inj hcollect).trans ?_
        show rest'.map Assembler.standard.rows.make = rest'
        rw [Assembler.make_standard_rows, List.map_id]
      rfl

variable [Origin π σ ε] [Origin π' σ' ε'] {origin : π} {origin' : π'}

/-- All the items of the first pass of a reader, and the keys that the reader keeps. -/
def gather (alloc : Allocator) (origin : π) (d : Dialect) (mode : Mode Row Keyed ρ γ)
    (assembler : Assembler Unit Field Row Keyed) :
    Except (ReadError ε) (List γ × List (List UInt8)) :=
  match create alloc origin d with
  | .error e => .error e
  | .ok r =>
    match r.start alloc mode assembler () with
    | .error e _ => .error e
    | .ok (_, p) r => (p.collect alloc).map fun items ↦ (items, r.keys)

/-- New readers whose origins open alike are alike. -/
theorem create_alike (alloc : Allocator) (d : Dialect)
    (h : OpenedAlike f (Origin.openSource origin).1 (Origin.openSource origin').1) :
    (∃ e : ReadError ε, create (σ := σ) alloc origin d = .error e ∧
        create (σ := σ') alloc origin' d = .error (e.map f)) ∨
      ∃ (r : Reader π σ) (r' : Reader π' σ'), create (ε := ε) alloc origin d = .ok r ∧
        create (ε := ε') alloc origin' d = .ok r' ∧ Alike f alloc alloc r r' := by
  unfold create
  cases d.validate with
  | error e => exact .inl ⟨.dialect e, rfl, rfl⟩
  | ok u =>
    unfold Scanner.create
    cases hb : Buffer.create (α := UInt8) alloc 1 with
    | error e => exact .inl ⟨.buffer e, rfl, rfl⟩
    | ok field =>
      have hsound : field.isSound = true := (Buffer.create_eq_ok hb).1
      exact .inr ⟨_, _, rfl, rfl, rfl, fun _ _ ↦ .same rfl (Buffer.isSound_clear hsound), h⟩

section Opened

variable {r t : Reader π σ} (assembler : Assembler Unit Field Row Keyed)
  (hc : create (ε := ε) alloc origin d = .ok r)
include hc

theorem gather_of_reopen_error {e : ReadError ε} (mode : Mode Row Keyed ρ γ)
    (hr : r.reopen = .error e t) : gather alloc origin d mode assembler = .error e := by
  obtain ⟨hrows, hunder, hrecords⟩ := start_of_reopen_error assembler () alloc hr
  unfold gather
  rw [hc]
  cases mode with
  | rows => simp only [start, hrows]
  | recordsUnder keys => simp only [start, hunder]
  | records => simp only [start, hrecords]

theorem gather_rows_of_reopen (hr : r.reopen = .ok () t) :
    gather alloc origin d .rows assembler =
      ((t.pass assembler.rows ()).collect (ε := ε) alloc).map fun items ↦ (items, t.keys) := by
  unfold gather
  rw [hc]
  simp only [start, startRows_of_reopen assembler () hr]

theorem gather_recordsUnder_of_reopen (keys : List (List UInt8)) (hr : r.reopen = .ok () t) :
    gather alloc origin d (.recordsUnder keys) assembler =
      ((t.pass (assembler.records keys) ()).collect (ε := ε) alloc).map fun items ↦
        (items, t.keys) := by
  unfold gather
  rw [hc]
  simp only [start, startRecordsUnder_of_reopen assembler () keys hr]

/-- What becomes of records behind an opening is up to the header. -/
theorem gather_records_of_reopen (hr : r.reopen = .ok () t) :
    gather alloc origin d .records assembler =
      match Buffer.create (α := List UInt8) alloc 2 with
      | .error e => .error (.buffer e)
      | .ok keys =>
        match t.scanner.readHeader (ε := ε) alloc keys with
        | .error e _ => .error e
        | .ok () (scanner, keyBuffer) =>
          let u : Reader π σ := { t with scanner, keyBuffer }
          ((u.pass (assembler.records u.keys) ()).collect alloc).map fun items ↦
            (items, u.keys) := by
  unfold gather
  rw [hc]
  dsimp only
  unfold start startRecords
  rw [hr]
  dsimp only
  cases Buffer.create (α := List UInt8) alloc 2 with
  | error e => rfl
  | ok keys =>
    dsimp only
    cases t.scanner.readHeader (ε := ε) alloc keys with
    | error e cut => rfl
    | ok u read => rfl

end Opened

section Alike

variable (assembler : Assembler Unit Field Row Keyed)
  (assembler' : Assembler Unit Field' Row' Keyed') (alloc : Allocator) (d : Dialect)
  (h : OpenedAlike f (Origin.openSource origin).1 (Origin.openSource origin').1)
include h

/-- Two readers whose origins open alike either gather nothing in any mode, for the same error, or
come to stand before the same text. -/
theorem opened_cases :
    (∃ e : ReadError ε,
      (∀ {Field Row Keyed ρ γ : Type} (mode : Mode Row Keyed ρ γ)
        (assembler : Assembler Unit Field Row Keyed),
        gather alloc origin d mode assembler = .error e) ∧
      ∀ {Field Row Keyed ρ γ : Type} (mode : Mode Row Keyed ρ γ)
        (assembler : Assembler Unit Field Row Keyed),
        gather alloc origin' d mode assembler = .error (e.map f)) ∨
      ∃ (r t : Reader π σ) (r' t' : Reader π' σ'), create (ε := ε) alloc origin d = .ok r ∧
        create (ε := ε') alloc origin' d = .ok r' ∧ r.reopen = .ok () t ∧ r'.reopen = .ok () t' ∧
        Scanner.Twins f alloc alloc t.scanner t'.scanner ∧ t.keys = [] ∧ t'.keys = [] := by
  obtain ⟨e, he, he'⟩ | ⟨r, r', hc, hc', halike⟩ := create_alike alloc d h
  · refine .inl ⟨e, fun mode assembler ↦ ?_, fun mode assembler ↦ ?_⟩
    · rw [gather, he]
    · rw [gather, he']
  · have hreopen := halike.reopen
    cases hr : r.reopen with
    | error e t =>
      rw [hr] at hreopen
      obtain ⟨_, t', hr', rfl, -⟩ := hreopen.of_error
      exact .inl ⟨e, fun mode assembler ↦ gather_of_reopen_error assembler hc mode hr,
        fun mode assembler ↦ gather_of_reopen_error assembler hc' mode hr'⟩
    | ok u t =>
      rw [hr] at hreopen
      obtain ⟨t', hr', htwins, hkeys, hkeys'⟩ := hreopen.of_ok
      exact .inr ⟨r, t, r', t', hc, hc', hr, hr', htwins, hkeys, hkeys'⟩

/-- Rows with any assembler are made of plain rows. -/
theorem gather_rows_eq_remake :
    gather alloc origin' d .rows assembler' =
      remake f (fun gathered ↦ (gathered.1.map assembler'.rows.make, gathered.2))
        (gather alloc origin d .rows Assembler.standard) := by
  obtain ⟨e, he, he'⟩ | ⟨r, t, r', t', hc, hc', hr, hr', htwins, hkeys, hkeys'⟩ :=
    opened_cases alloc d h
  · rw [he, he']
    rfl
  · have hrebuilds : Pass.Rebuilds f alloc (t.pass Assembler.standard.rows ())
        (t'.pass assembler'.rows ()) := ⟨rfl, rfl, fun _ ↦ htwins⟩
    rw [gather_rows_of_reopen _ hc hr, gather_rows_of_reopen _ hc' hr', hrebuilds.collect, hkeys,
      hkeys']
    cases (t.pass Assembler.standard.rows ()).collect (ε := ε) alloc with
    | error e => rfl
    | ok rows => rfl

/-- Records under given keys are made of plain rows. -/
theorem madeOf_gather_recordsUnder (keys : List (List UInt8)) :
    MadeOf (ReadError.map f)
      ((gather (ε := ε) alloc origin d .rows Assembler.standard).map Prod.fst)
      (fun rows ↦ (rows.map (assembler.records keys).make, []))
      (fun rows ↦ (rows.map (assembler'.records keys).make, []))
      (gather alloc origin d (.recordsUnder keys) assembler)
      (gather alloc origin' d (.recordsUnder keys) assembler') := by
  obtain ⟨e, he, he'⟩ | ⟨r, t, r', t', hc, hc', hr, hr', htwins, hkeys, hkeys'⟩ :=
    opened_cases alloc d h
  · exact .inl ⟨e, he _ _, he' _ _⟩
  · rw [gather_rows_of_reopen _ hc hr, gather_recordsUnder_of_reopen _ hc keys hr,
      gather_recordsUnder_of_reopen _ hc' keys hr', hkeys, hkeys']
    obtain ⟨e, he, he'⟩ | ⟨rows, hplain, hrows, hrows'⟩ :=
      madeOf_collect htwins (assembler.records keys) (assembler'.records keys)
    · rw [he, he']
      exact .inl ⟨e, rfl, rfl⟩
    · rw [hplain, hrows, hrows']
      exact .inr ⟨rows, rfl, rfl, rfl⟩

/-- Records under the first row are made of the other plain rows. -/
theorem madeOf_gather_records :
    MadeOf (ReadError.map f)
      ((gather (ε := ε) alloc origin d .rows Assembler.standard).map Prod.fst)
      (fun rows ↦ (rows.tail.map (assembler.records (rows.headD [])).make, rows.headD []))
      (fun rows ↦ (rows.tail.map (assembler'.records (rows.headD [])).make, rows.headD []))
      (gather alloc origin d .records assembler) (gather alloc origin' d .records assembler') := by
  obtain ⟨e, he, he'⟩ | ⟨r, t, r', t', hc, hc', hr, hr', htwins, hkeys, -⟩ :=
    opened_cases alloc d h
  · exact .inl ⟨e, he _ _, he' _ _⟩
  · rw [gather_rows_of_reopen _ hc hr, gather_records_of_reopen _ hc hr,
      gather_records_of_reopen _ hc' hr', hkeys]
    cases hb : Buffer.create (α := List UInt8) alloc 2 with
    | error e => exact .inl ⟨.buffer e, rfl, rfl⟩
    | ok keys =>
      obtain ⟨hsound, hempty, -⟩ := Buffer.create_eq_ok hb
      obtain ⟨dialect, text, ending, hat, -⟩ := id htwins
      have hheaders :=
        Scanner.agree_readHeader htwins hat (Nat.lt_succ_self text.length) (.same rfl hsound)
      dsimp only
      cases hheader : t.scanner.readHeader alloc keys with
      | error e cut =>
        rw [hheader] at hheaders
        obtain ⟨_, cut', hheader', rfl, -⟩ := hheaders.of_error
        rw [hheader']
        exact .inl ⟨e, rfl, rfl⟩
      | ok v read =>
        rw [hheader] at hheaders
        obtain ⟨read', hheader', htwins', more, hread⟩ := hheaders.of_ok
        rw [hheader']
        let u : Reader π σ := { t with scanner := read.1, keyBuffer := read.2 }
        let u' : Reader π' σ' := { t' with scanner := read'.1, keyBuffer := read'.2 }
        have hsame : u'.keys = u.keys := hread.toList_eq.symm
        show MadeOf _ _ _ _
          (((u.pass (assembler.records u.keys) ()).collect alloc).map fun items ↦ (items, u.keys))
          (((u'.pass (assembler'.records u'.keys) ()).collect alloc).map fun items ↦
            (items, u'.keys))
        rw [hsame]
        have hpasses : Scanner.Twins f alloc alloc u.scanner u'.scanner := htwins'
        obtain ⟨e, he, he'⟩ | ⟨rest, hplain, hrest, hrest'⟩ :=
          madeOf_collect hpasses (assembler.records u.keys) (assembler'.records u.keys)
        · rw [he, he']
          exact .inl ⟨e, rfl, rfl⟩
        · obtain ⟨rows, hrows, hhead, rfl⟩ :=
            collect_behind_header hat hsound hempty hheader hplain
          rw [hrows, hrest, hrest', ← hhead]
          exact .inr ⟨rows, rfl, rfl, rfl⟩

end Alike

section Failing

variable (alloc : Allocator) (mode : Mode Row Keyed ρ γ)
  (assembler : Assembler Unit Field Row Keyed) {cause : ε}

/-- Nothing is gathered where the source cannot be opened. -/
theorem gather_of_refused (ho : (Origin.openSource origin).1 = .error cause) :
    (∃ e, gather alloc origin d mode assembler = .error e) ∧
      (alloc.GrantsFor 0 → d.validate = .ok () →
        gather alloc origin d mode assembler = .error (.opening cause)) := by
  constructor
  · cases hc : create (σ := σ) alloc origin d with
    | error e => exact ⟨e, by rw [gather, hc]⟩
    | ok r =>
      obtain ⟨-, horigin, -⟩ := inOrder_of_create hc
      have hr := reopen_of_refused (r := r) (by rw [horigin, ho])
      exact ⟨_, gather_of_reopen_error assembler hc mode hr⟩
  · intro hg hd
    obtain ⟨r, hc, horigin, -⟩ := create_of_validate (ε := ε) (σ := σ) hg hd origin
    have hr := reopen_of_refused (r := r) (by rw [horigin, ho])
    exact gather_of_reopen_error assembler hc mode hr

variable {source : σ} {text : List UInt8}

/-- Nothing is gathered behind an opening, where the source fails somewhere. -/
theorem exists_error_of_reopen {r t : Reader π σ} (hc : create (ε := ε) alloc origin d = .ok r)
    (hr : r.reopen = .ok () t) (hat : t.scanner.At d text (.failure cause)) :
    ∃ e, gather alloc origin d mode assembler = .error e := by
  cases mode with
  | rows =>
    obtain ⟨e, he⟩ := Pass.exists_error_of_failure alloc
      (q := t.pass assembler.rows ()) rfl hat
    rw [gather_rows_of_reopen assembler hc hr, he]
    exact ⟨e, rfl⟩
  | recordsUnder keys =>
    obtain ⟨e, he⟩ := Pass.exists_error_of_failure alloc
      (q := t.pass (assembler.records keys) ()) rfl hat
    rw [gather_recordsUnder_of_reopen assembler hc keys hr, he]
    exact ⟨e, rfl⟩
  | records =>
    rw [gather_records_of_reopen assembler hc hr]
    cases hb : Buffer.create (α := List UInt8) alloc 2 with
    | error e => exact ⟨_, rfl⟩
    | ok keys =>
      obtain ⟨hsound, hempty, -⟩ := Buffer.create_eq_ok hb
      dsimp only
      cases hheader : t.scanner.readHeader (ε := ε) alloc keys with
      | error e cut => exact ⟨e, rfl⟩
      | ok v read =>
        let u : Reader π σ := { t with scanner := read.1, keyBuffer := read.2 }
        obtain ⟨behind, hbehind⟩ : ∃ behind, u.scanner.At d behind (.failure cause) := by
          obtain ⟨-, -, -, hend⟩ | ⟨-, -, -, -, hbehind⟩ :=
            begun_of_readHeader (t := u) hat hsound hempty hheader
          · exact ⟨[], hend⟩
          · exact hbehind
        obtain ⟨e, he⟩ := Pass.exists_error_of_failure alloc
          (q := u.pass (assembler.records u.keys) ()) rfl hbehind
        refine ⟨e, ?_⟩
        show ((u.pass (assembler.records u.keys) ()).collect alloc).map _ = _
        rw [he]
        rfl

/-- Where memory is granted, the failure of the source is the error. -/
theorem gather_of_failure_of_grantsFor (hg : alloc.GrantsFor text.length) (hd : d.validate = .ok ())
    (ho : (Origin.openSource origin).1 = .ok source)
    (hs : Source.Gives source text (.failure cause)) (hfits : text.length < memoryLimit) :
    gather alloc origin d mode assembler = .error (.reading cause) := by
  obtain ⟨r, hc, horigin, hfit⟩ := create_of_validate (ε := ε) (σ := σ) hg hd origin
  have hopen : Origin.openSource r.origin = (.ok source, (Origin.openSource origin).2) := by
    rw [horigin]
    exact Prod.ext ho rfl
  by_cases htext : text = []
  · subst htext
    obtain ⟨t, hr, -⟩ := reopen_of_failure hfit hopen hs
    exact gather_of_reopen_error assembler hc mode hr
  · obtain ⟨t, hr, hat, hkeys, -⟩ := reopen_of_gives hfit hopen hs (.inl htext)
    cases mode with
    | rows =>
      rw [gather_rows_of_reopen assembler hc hr,
        Pass.collect_of_failure hg (q := t.pass assembler.rows ()) ⟨rfl, hat, hfits⟩]
      rfl
    | recordsUnder keys =>
      rw [gather_recordsUnder_of_reopen assembler hc keys hr,
        Pass.collect_of_failure hg (q := t.pass (assembler.records keys) ()) ⟨rfl, hat, hfits⟩]
      rfl
    | records =>
      unfold gather
      rw [hc]
      by_cases hnil : Grammar.behindRow d (Grammar.recordStart d text) = []
      · obtain ⟨u, hu, -⟩ := startRecords_of_failure assembler () hg hfit hopen hs hfits hnil
        simp only [start, hu]
      · obtain ⟨p, u, hu, -, -, -, hp, -⟩ := startRecords_of_row assembler () hg hfit hopen hs hfits
          (Grammar.recordStart_ne_nil hnil) (.inl hnil)
        have hbehind := Grammar.length_behindRow_recordStart_le d text
        simp only [start, hu]
        rw [Pass.collect_of_failure (hg.mono hbehind) hp]
        rfl

/-- Nothing is gathered where the source fails, however much has been read by then. -/
theorem gather_of_failure (ho : (Origin.openSource origin).1 = .ok source)
    (hs : Source.Gives source text (.failure cause)) :
    (∃ e, gather alloc origin d mode assembler = .error e) ∧
      (alloc.GrantsFor text.length → d.validate = .ok () → text.length < memoryLimit →
        gather alloc origin d mode assembler = .error (.reading cause)) := by
  refine ⟨?_, fun hg hd hfits ↦
    gather_of_failure_of_grantsFor alloc mode assembler hg hd ho hs hfits⟩
  cases hc : create (σ := σ) alloc origin d with
  | error e => exact ⟨e, by rw [gather, hc]⟩
  | ok r =>
    obtain ⟨hscanner, horigin, -⟩ := inOrder_of_create hc
    cases hr : r.reopen with
    | error e t => exact ⟨e, gather_of_reopen_error assembler hc mode hr⟩
    | ok u t =>
      obtain ⟨source', hopen, hat⟩ := at_of_reopen hscanner.fit hr
      rw [horigin, ho] at hopen
      obtain rfl := Except.ok.inj hopen
      obtain ⟨rest, hdrain⟩ := hs
      rw [hdrain] at hat
      exact exists_error_of_reopen alloc mode assembler hc hr hat

end Failing

end Reader
end Delimited
