import Delimited.Proofs.History
import Delimited.Source.Script

/-!
# The keys that a reader keeps

A reader keeps the fields of the first row while it serves a pass that took its keys from there, and
until the next start or close. At every other time it keeps none, also when a start fails after some
fields of a header have been read.
-/

namespace Delimited

variable {π σ ε φ Field Row Keyed ρ γ : Type} {alloc : Allocator} {d : Dialect} {text : List UInt8}
  {ending : Ending ε}

/-- Keys that have been added stand in their order. -/
theorem toList_of_takeAll_addKey {values : List (List UInt8)} {keys keys' : Buffer (List UInt8)}
    (h : Scanner.takeAll (addKey alloc) values keys = .ok () keys') (hk : keys.isSound = true) :
    keys'.toList = keys.toList ++ values := by
  induction values generalizing keys with
  | nil =>
    cases h
    exact (List.append_nil _).symm
  | cons value values ih =>
    obtain ⟨next, hadd, hrest⟩ := Scanner.takeAll_cons h
    have hpush : Buffer.push alloc value keys = .ok () next := by
      unfold addKey at hadd
      split at hadd
      · cases hadd
      · exact hadd
    obtain ⟨hsound, hlist⟩ := Buffer.push_eq_ok hpush hk
    rw [ih hrest hsound, hlist, List.append_assoc]
    rfl

/-- The first row of a text, if there is one, is the row in front of it. -/
theorem Grammar.headD_table_of_ne_nil (hs : recordStart d text ≠ []) :
    (table d text).headD [] = values d (recordStart d text) := by
  unfold table
  rw [starts_of_ne_nil hs]
  rfl

variable [Source σ ε]

/-- All that a header that has been read can have come from: the end of the stream, or a row. -/
theorem Scanner.readHeader_eq_ok {s t : Scanner σ} {keys keys' : Buffer (List UInt8)}
    (h : readHeader alloc s keys = .ok () (t, keys')) :
    ∃ u, skipBlankLines s = .ok () u ∧
      (u.isAtEnd = true ∧ t = u ∧ keys' = keys ∨
        u.isAtEnd = false ∧ ∃ count v,
          u.readRow alloc (addKey alloc) 0 keys = .ok count (v, keys') ∧
            t = v.note (.headerRead keys'.length)) := by
  unfold readHeader at h
  split at h
  · cases h
  · next u hu =>
    refine ⟨u, hu, ?_⟩
    split at h
    · next hend =>
      cases h
      exact .inl ⟨hend, rfl, rfl⟩
    · next hend =>
      split at h
      · cases h
      · next count v read hrow =>
        cases h
        exact .inr ⟨Bool.eq_false_iff.mpr hend, count, v, hrow, rfl⟩

/-- Keys that have been taken from a header are the fields of the first row. -/
theorem Scanner.keys_of_readHeader {s t : Scanner σ} {keys keys' : Buffer (List UInt8)}
    (h : s.At d text ending) (hk : keys.isSound = true) (hempty : keys.toList = [])
    (hr : readHeader alloc s keys = .ok () (t, keys')) :
    keys'.toList = (Grammar.table d text).headD [] := by
  have hskip := leaves_skipBlankLines h
  obtain ⟨u, hu, hheader⟩ := readHeader_eq_ok hr
  rw [hu] at hskip
  obtain ⟨hat, -⟩ := hskip
  obtain ⟨hend, -, rfl⟩ | ⟨hend, count, v, hrow, -⟩ := hheader
  · unfold Grammar.table
    rw [Grammar.starts_of_eq_nil (hat.isAtEnd_iff.mp hend), hempty]
    rfl
  · have hs : Grammar.recordStart d text ≠ [] := hat.isAtEnd_eq_false_iff.mp hend
    rw [Grammar.headD_table_of_ne_nil hs, toList_of_takeAll_addKey (of_readRow_eq_ok hat hrow).1 hk,
      hempty, List.nil_append]

namespace Reader

variable [Origin π σ ε] {r : Reader π σ}

/-- Opening the source again leaves no keys. -/
theorem keys_reopen (r : Reader π σ) : Always (fun t : Reader π σ ↦ t.keys = []) r.reopen := by
  apply (keyBuffer_reopen r).imp
  intro t ht
  rw [keys, ht, Buffer.toList_free]

/-- Where the source could be opened again, the scanner stands before all that it gives. -/
theorem at_of_reopen {t : Reader π σ} (hfit : r.scanner.Fit d) (hr : r.reopen = .ok () t) :
    ∃ source, (Origin.openSource r.origin).1 = .ok source ∧
      t.scanner.At d (Source.drain source).1 (Source.drain source).2.1 := by
  have hannounced : r.announced.Fit d := hfit.foldl_note (Origin.announcement r.origin)
  have hnoted : (r.announced.note .sourceRewound).Fit d := ⟨hannounced.dialect, hannounced.sound⟩
  have hreopens := r.reopen_cases
  rw [hr] at hreopens
  cases hreopens with
  | @opened source origin scanner ho ha =>
    have hgives : Source.Gives source (Source.drain source).1 (Source.drain source).2.1 := ⟨_, rfl⟩
    have hattach := Scanner.leaves_attach hnoted hgives
    rw [ha] at hattach
    exact ⟨source, by rw [ho], hattach.1⟩

variable (assembler : Assembler φ Field Row Keyed) (state : φ)

/-- A start that takes keys from the first row leaves the fields of that row, if it succeeds. Every
other start leaves no keys. -/
theorem keys_start (alloc : Allocator) (hfit : r.scanner.Fit d) (mode : Mode Row Keyed ρ γ) :
    match r.start alloc mode assembler state with
    | .error _ t => t.keys = []
    | .ok _ t =>
      if mode.takesKeys then
        ∃ source, (Origin.openSource r.origin).1 = .ok source ∧
          t.keys = (Grammar.table d (Source.drain source).1).headD []
      else t.keys = [] := by
  have hreopen := keys_reopen r
  have hstarts := r.start_cases assembler state alloc mode
  generalize r.start alloc mode assembler state = outcome at hstarts ⊢
  cases hstarts with
  | unopened hr => exact hreopen.of_error hr
  | rows hr => exact hreopen.of_ok hr
  | recordsUnder hr => exact hreopen.of_ok hr
  | withoutBuffer hr => exact hreopen.of_ok hr
  | withoutHeader => exact Buffer.toList_free _
  | records hr hb hheader horigin =>
    obtain ⟨source, ho, hat⟩ := at_of_reopen hfit hr
    obtain ⟨hsound, hempty, -⟩ := Buffer.create_eq_ok hb
    exact ⟨source, ho, Scanner.keys_of_readHeader hat hsound hempty hheader⟩

end Reader

/-- A new reader keeps no keys, and so does one that has been closed last, or whose last start
failed or took no keys from the source. One whose last start took keys from the first row keeps the
fields of that row, or none if there is no row, however many items it has been asked for since. -/
theorem keys_after_history [Origin π σ ε] (alloc₀ : Allocator) (origin : π) (r : Reader π σ)
    (hr : Reader.create (ε := ε) alloc₀ origin d = .ok r) :
    r.keys = [] ∧
      ∀ history : List Operation,
        (r.run (history ++ [.close])).keys = [] ∧
          ∀ {φ Field Row Keyed ρ γ : Type} (mode : Mode Row Keyed ρ γ) (alloc : Allocator)
            (assembler : Assembler φ Field Row Keyed) (state : φ) (requests : Nat),
            let before := r.run history
            let after := r.run (history ++ [.pass mode alloc assembler state requests])
            (∀ e t, before.start alloc mode assembler state = .error e t → after.keys = []) ∧
              ∀ started t, before.start alloc mode assembler state = .ok started t →
                (mode.takesKeys = false → after.keys = []) ∧
                  (mode.takesKeys = true →
                    ∃ source, (Origin.openSource before.origin).1 = .ok source ∧
                      ∀ text ending, Source.Gives source text ending →
                        after.keys = (Grammar.table d text).headD []) := by
  obtain ⟨hscanner, -, hkeys⟩ := Reader.inOrder_of_create hr
  refine ⟨hkeys, fun history ↦ ⟨?_, ?_⟩⟩
  · rw [Reader.run_append_singleton]
    exact Buffer.toList_free _
  · intro φ Field Row Keyed ρ γ mode alloc assembler state requests before after
    have hkept := Reader.keys_start assembler state alloc
      (Reader.inOrder_run hscanner history).1.fit mode
    have hafter : after = before.perform (.pass mode alloc assembler state requests) :=
      Reader.run_append_singleton r history _
    refine ⟨fun e t hs ↦ ?_, fun started t hs ↦ ?_⟩
    · rw [hs] at hkept
      rw [hafter, Reader.perform, hs]
      exact hkept
    · rw [hs] at hkept
      have hkeys : after.keys = t.keys := by
        rw [hafter, Reader.perform, hs]
        rfl
      rw [hkeys]
      refine ⟨fun hmode ↦ ?_, fun hmode ↦ ?_⟩
      · simpa only [hmode, Bool.false_eq_true, if_false] using hkept
      · simp only [hmode, if_true] at hkept
        obtain ⟨source, ho, htable⟩ := hkept
        refine ⟨source, ho, ?_⟩
        rintro text ending ⟨u, hgives⟩
        rw [htable, hgives]

/-- A start whose header is cut off behind its first field leaves no keys, the next one finds them
all, and closing gives them up. -/
theorem keys_after_history_of_cut_header :
    let cut : Script Unit := ⟨[.ok 107, .ok 44, .ok 108, .error ()]⟩
    let whole : Script Unit := ⟨[.ok 107, .ok 44, .ok 108, .ok 10, .ok 118]⟩
    let origin : SuccessiveOrigin (Script Unit) Unit := ⟨.ok cut, [.ok whole], 0⟩
    let records : Operation := .pass .records .unlimited Assembler.standard () 2
    ∃ r : Reader (SuccessiveOrigin (Script Unit) Unit) (Script Unit),
      Reader.create (ε := Unit) .unlimited origin {} = .ok r ∧ (r.run [records]).keys = [] ∧
        (r.run [records, records]).keys = [[107], [108]] ∧
        (r.run [records, records, .close]).keys = [] := by
  intro cut whole origin records
  obtain ⟨r, hr, -⟩ := Reader.create_of_validate (σ := Script Unit) (ε := Unit) (d := {})
    (Allocator.grantsFor_unlimited 0) rfl origin
  obtain ⟨hscanner, horigin, -⟩ := Reader.inOrder_of_create hr
  obtain ⟨hrun, hopened⟩ := Reader.inOrder_run hscanner [records]
  obtain ⟨-, hkeys⟩ := keys_after_history .unlimited origin r hr
  have hcut : Source.Gives cut [107, 44, 108] (.failure ()) :=
    Script.gives_failure [107, 44, 108] () []
  have hwhole : Source.Gives whole [107, 44, 108, 10, 118] .done :=
    Script.gives_done [107, 44, 108, 10, 118]
  have ho : Origin.openSource r.origin = (.ok cut, SuccessiveOrigin.mk (.ok whole) [] 1) := by
    rw [horigin]
    rfl
  have ho' : Origin.openSource (r.run [records]).origin =
      (.ok whole, SuccessiveOrigin.mk (.ok whole) [] 2) := by
    rw [hopened, horigin]
    rfl
  refine ⟨r, hr, ?_, ?_, (hkeys [records, records]).1⟩
  · obtain ⟨t, hs, -⟩ := Reader.startRecords_of_failure Assembler.standard ()
      (Allocator.grantsFor_unlimited _) hscanner.fit ho hcut (by decide) (by decide +kernel)
    obtain ⟨hfailed, -⟩ := (hkeys []).2 .records .unlimited Assembler.standard () 2
    apply hfailed (.reading ()) t
    rw [Reader.start, Reader.run_nil, hs]
  · obtain ⟨p, t, hs, -⟩ := Reader.startRecords_of_row Assembler.standard ()
      (Allocator.grantsFor_unlimited _) hrun.fit ho' hwhole (by decide) (by decide) (.inr rfl)
    obtain ⟨-, hstarted⟩ := (hkeys [records]).2 .records .unlimited Assembler.standard () 2
    obtain ⟨-, hrow⟩ := hstarted (_, p) t (by rw [Reader.start, hs])
    obtain ⟨source, hsource, htable⟩ := hrow rfl
    rw [ho'] at hsource
    cases hsource
    exact (htable _ _ hwhole).trans (by decide +kernel)

end Delimited
