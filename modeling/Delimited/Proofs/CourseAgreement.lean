import Delimited.Proofs.PassAgreement
import Delimited.Proofs.Starting
import Delimited.Reader.History

/-!
# Readers that start alike

Two readers of one dialect whose origins open alike start their passes alike, and the passes take
the same course. The buffers of the readers need not be the same: each is either the other's equal,
or grows as if it were.
-/

namespace Delimited

/-- What two origins open is alike: both are refused for the same cause, or both hold the same bytes
with the same ending, up to the name of a failure. -/
inductive OpenedAlike {σ σ' ε ε' : Type} [Source σ ε] [Source σ' ε'] (f : ε → ε') :
    Except ε σ → Except ε' σ' → Prop where
  | refused (cause : ε) : OpenedAlike f (.error cause) (.error (f cause))
  | opened {source : σ} {source' : σ'} {text : List UInt8} {ending : Ending ε}
      (hg : Source.Gives source text ending) (hg' : Source.Gives source' text (ending.map f)) :
      OpenedAlike f (.ok source) (.ok source')

/-- What is opened is like itself. -/
theorem OpenedAlike.refl {σ ε : Type} [Source σ ε] (opened : Except ε σ) :
    OpenedAlike id opened opened := by
  cases opened with
  | error cause => exact .refused cause
  | ok source =>
    have hg : Source.Gives source (Source.drain source).1 (Source.drain source).2.1 := ⟨_, rfl⟩
    exact .opened hg (by rwa [Ending.map_id])

/-- A course with another name for the failure of the source. -/
def Course.map {ε ε' φ γ : Type} (f : ε → ε') : Course ε φ γ → Course ε' φ γ
  | .failed error keys => .failed (error.map f) keys
  | .started keys under answers state => .started keys under (answers.map (Pass.renamed f)) state

@[simp] theorem Course.map_id {ε φ γ : Type} (c : Course ε φ γ) : c.map id = c := by
  cases c with
  | failed error keys => exact congrArg (Course.failed · keys) error.map_id
  | started keys under answers state =>
    have hanswers : answers.map (Pass.renamed id) = answers := by
      rw [funext Pass.renamed_id]
      exact List.map_id answers
    exact congrArg (Course.started keys under · state) hanswers

variable {alloc alloc' : Allocator}

/-- Where buffers grow alike, buffers for keys can be had alike. -/
theorem Buffer.Twins.create {α : Type} {b c : Buffer α} {more : Nat}
    (h : Twins alloc alloc' more b c) :
    (∃ e, create (α := List UInt8) alloc 2 = .error e ∧
        Buffer.create (α := List UInt8) alloc' 2 = .error e) ∨
      ∃ made made' : Buffer (List UInt8), create alloc 2 = .ok made ∧
        Buffer.create alloc' 2 = .ok made' ∧ Twins alloc alloc' more made made' := by
  cases h with
  | same ha =>
    subst ha
    cases hmade : Buffer.create (α := List UInt8) alloc 2 with
    | error e => exact .inl ⟨e, rfl, rfl⟩
    | ok made => exact .inr ⟨made, made, rfl, rfl, .same rfl (create_eq_ok hmade).1⟩
  | granted hg hg' _ _ _ hmost =>
    obtain ⟨made, hmade⟩ := Reader.exists_keyBuffer hg
    obtain ⟨made', hmade'⟩ := Reader.exists_keyBuffer hg'
    obtain ⟨-, hempty, -⟩ := create_eq_ok hmade
    obtain ⟨-, hempty', -⟩ := create_eq_ok hmade'
    have hdoubled : made.Doubled := doubled_of_create (n := 1) (by decide) hmade
    have hdoubled' : made'.Doubled := doubled_of_create (n := 1) (by decide) hmade'
    refine .inr ⟨made, made', hmade, hmade', .granted hg hg' hdoubled hdoubled' ?_ ?_⟩
    · rw [hempty, hempty']
    · rw [hempty, List.length_nil]
      omega

/-- Keys are added alike. -/
theorem takeAlike_addKey :
    Scanner.TakeAlike alloc alloc' (Buffer.Twins alloc alloc') (addKey alloc) (addKey alloc') := by
  intro room more field field' keys keys' hfield hkeys
  have hpush := hkeys.push (Nat.le_refl _) field.toList
  rw [← hfield.toList_eq]
  unfold addKey
  cases hfield with
  | same ha =>
    subst ha
    cases Storage.reserve (α := UInt8) alloc {} field.toList.length with
    | error failure => exact ⟨rfl, hkeys.mono (Nat.le_succ more)⟩
    | ok storage => exact hpush
  | @granted _ most hg hg' _ _ _ hmost =>
    have hfits : ({} : Storage UInt8).slots.size + field.toList.length ≤ 2 * (most + 1) := by
      rw [Array.size_empty]
      omega
    obtain ⟨storage, hs⟩ := Storage.reserve_of_grantsFor hg (by decide) {} hfits
    obtain ⟨storage', hs'⟩ := Storage.reserve_of_grantsFor hg' (by decide) {} hfits
    rw [hs, hs']
    exact hpush

variable {π π' σ σ' ε ε' φ Field Row Keyed ρ γ : Type} [Source σ ε] [Source σ' ε']
  {f : ε → ε'} {d : Dialect}

namespace Scanner

variable {s : Scanner σ} {s' : Scanner σ'} {keys keys' : Buffer (List UInt8)} {text : List UInt8}
  {ending : Ending ε} {more : Nat}

/-- A header is read alike, where there is room for as many keys as the text can have fields. -/
theorem agree_readHeader (h : Twins f alloc alloc' s s') (hat : s.At d text ending)
    (hlt : text.length < more) (hkeys : Buffer.Twins alloc alloc' more keys keys') :
    Agree (fun e e' ↦ e' = e.map f)
      (fun t t' ↦ Twins f alloc alloc' t.1 t'.1 ∧ ∃ rest, Buffer.Twins alloc alloc' rest t.2 t'.2)
      (fun _ _ ↦ True) (readHeader alloc s keys) (readHeader alloc' s' keys') := by
  have hskips := concur_skipBlankLines h
  have hleaves := leaves_skipBlankLines hat
  unfold readHeader
  cases hskip : skipBlankLines s with
  | error e t =>
    rw [hskip] at hskips
    obtain ⟨e', t', hskip', he, -⟩ := hskips.of_error
    rw [hskip']
    exact ⟨he, trivial⟩
  | ok u t =>
    rw [hskip] at hskips hleaves
    obtain ⟨t', hskip', ht⟩ := hskips.of_ok
    have hends : t'.isAtEnd = t.isAtEnd := congrArg Option.isNone ht.ahead_eq
    have hstart := Nat.lt_of_le_of_lt (Grammar.length_recordStart_le d text) hlt
    have hrows := agree_readRow takeAlike_addKey ht hleaves.1 hstart hkeys 0
    rw [hskip']
    dsimp only
    rw [hends]
    split
    · exact ⟨rfl, ht, more, hkeys⟩
    · cases hrow : t.readRow alloc (addKey alloc) 0 keys with
      | error e cut =>
        rw [hrow] at hrows
        obtain ⟨e', cut', hrow', he, -⟩ := hrows.of_error
        rw [hrow']
        exact ⟨he, trivial⟩
      | ok count read =>
        rw [hrow] at hrows
        obtain ⟨read', hrow', htwins, hread⟩ := hrows.of_ok
        rw [hrow']
        exact ⟨rfl, htwins.note _ _, hread⟩

end Scanner

namespace Reader

variable {r : Reader π σ} {r' : Reader π' σ'}

/-- Passes that begin where two scanners stand alike go on alike. -/
theorem twins_pass (h : Scanner.Twins f alloc alloc' r.scanner r'.scanner)
    (builder : RowBuilder φ ρ γ) (state : φ) :
    Pass.Twins f id alloc alloc' (r.pass builder state) (r'.pass builder state) :=
  ⟨.refl builder, rfl, rfl, fun _ ↦ h⟩

variable [Origin π σ ε] [Origin π' σ' ε']

/-- The readers are of one dialect, their origins open alike, and their field buffers grow alike for
every byte that is opened, and one more. -/
structure Alike (f : ε → ε') (alloc alloc' : Allocator) (r : Reader π σ) (r' : Reader π' σ') :
    Prop where
  dialect : r'.dialect = r.dialect
  field (source : σ) (ho : (Origin.openSource (ε := ε) r.origin).1 = .ok source) :
    Buffer.Twins alloc alloc' ((Source.drain source).1.length + 1) r.scanner.field.clear
      r'.scanner.field.clear
  opened : OpenedAlike f (Origin.openSource r.origin).1 (Origin.openSource r'.origin).1

/-- Opening the source again goes alike, and leaves both without keys. -/
theorem Alike.reopen (h : Alike f alloc alloc' r r') :
    Agree (fun e e' ↦ e' = e.map f)
      (fun t t' ↦ Scanner.Twins f alloc alloc' t.scanner t'.scanner ∧ t.keys = [] ∧ t'.keys = [])
      (fun t t' ↦ t.keys = [] ∧ t'.keys = []) r.reopen r'.reopen := by
  have hopened := h.opened
  have hfield := h.field
  unfold Reader.reopen
  generalize hs : (Origin.announcement r.origin).foldl Scanner.note r.scanner = s
  generalize hs' : (Origin.announcement r'.origin).foldl Scanner.note r'.scanner = s'
  rw [Scanner.foldl_note_eq] at hs hs'
  have hdialects : s'.dialect = s.dialect := by
    rw [← hs, ← hs']
    exact h.dialect
  cases ho : Origin.openSource r.origin with
  | mk opened origin =>
    cases ho' : Origin.openSource r'.origin with
    | mk opened' origin' =>
      rw [ho, ho'] at hopened
      rw [ho] at hfield
      cases hopened with
      | refused cause => exact ⟨rfl, Buffer.toList_free _, Buffer.toList_free _⟩
      | @opened source source' text ending hg hg' =>
        have hfields :
            Buffer.Twins alloc alloc' (text.length + 1) s.field.clear s'.field.clear := by
          obtain ⟨stopped, hdrain⟩ := id hg
          have hbuffers := hfield source rfl
          rw [hdrain] at hbuffers
          rw [← hs, ← hs']
          exact hbuffers
        have hattach : Scanner.Concur f alloc alloc'
            (Scanner.attach source (s.note .sourceRewound))
            (Scanner.attach source' (s'.note .sourceRewound)) :=
          Scanner.concur_attach rfl hdialects hfields hg hg'
        dsimp only
        cases ha : Scanner.attach source (s.note .sourceRewound) with
        | error e t =>
          rw [ha] at hattach
          obtain ⟨e', t', ha', he, -⟩ := hattach.of_error
          rw [ha']
          exact ⟨he, Buffer.toList_free _, Buffer.toList_free _⟩
        | ok u t =>
          rw [ha] at hattach
          obtain ⟨t', ha', htwins⟩ := hattach.of_ok
          rw [ha']
          exact ⟨rfl, htwins, Buffer.toList_free _, Buffer.toList_free _⟩

/-- Two starts come to the same: to the same error, or to passes that go on alike under the same
keys. The readers keep the same keys. -/
inductive StartedAlike (f : ε → ε') (alloc alloc' : Allocator) :
    EStateM.Result (ReadError ε) (Reader π σ) (Option RecordKeys × Pass σ φ ρ γ) →
      EStateM.Result (ReadError ε') (Reader π' σ') (Option RecordKeys × Pass σ' φ ρ γ) → Prop where
  | failed {e : ReadError ε} {t : Reader π σ} {t' : Reader π' σ'} (hkeys : t'.keys = t.keys) :
      StartedAlike f alloc alloc' (.error e t) (.error (e.map f) t')
  | started {under : Option RecordKeys} {p : Pass σ φ ρ γ} {p' : Pass σ' φ ρ γ} {t : Reader π σ}
      {t' : Reader π' σ'} (hkeys : t'.keys = t.keys) (htwins : Pass.Twins f id alloc alloc' p p') :
      StartedAlike f alloc alloc' (.ok (under, p) t) (.ok (under, p') t')

variable (assembler : Assembler φ Field Row Keyed) (state : φ)

/-- Behind an opening that goes alike, keys are taken from the first row alike. -/
private theorem startedAlike_records {t : Reader π σ} {t' : Reader π' σ'}
    (hr : r.reopen = .ok () t) (hr' : r'.reopen = .ok () t')
    (htwins : Scanner.Twins f alloc alloc' t.scanner t'.scanner) (hkeys : t'.keys = t.keys) :
    StartedAlike f alloc alloc' (r.start alloc .records assembler state)
      (r'.start alloc' .records assembler state) := by
  unfold Reader.start startRecords
  rw [hr, hr']
  dsimp only
  obtain ⟨_, text, _, hat, -, hfield⟩ := id htwins
  obtain ⟨e, he, he'⟩ | ⟨made, made', hmade, hmade', hbuffers⟩ := hfield.create
  · rw [he, he']
    exact .failed hkeys
  · rw [hmade, hmade']
    dsimp only
    have hheaders :=
      Scanner.agree_readHeader htwins hat (Nat.lt_succ_self text.length) hbuffers
    cases hheader : t.scanner.readHeader alloc made with
    | error e cut =>
      rw [hheader] at hheaders
      obtain ⟨_, cut', hheader', rfl, -⟩ := hheaders.of_error
      rw [hheader']
      exact .failed ((Buffer.toList_free _).trans (Buffer.toList_free _).symm)
    | ok u read =>
      rw [hheader] at hheaders
      obtain ⟨read', hheader', htwins', rest, hread⟩ := hheaders.of_ok
      rw [hheader']
      dsimp only
      let q : Reader π σ := { t with scanner := read.1, keyBuffer := read.2 }
      let q' : Reader π' σ' := { t' with scanner := read'.1, keyBuffer := read'.2 }
      have hkeys : q'.keys = q.keys := hread.toList_eq.symm
      show StartedAlike f alloc alloc'
        (.ok (some ⟨q.keys, true⟩, q.pass (assembler.records q.keys) state) q)
        (.ok (some ⟨q'.keys, true⟩, q'.pass (assembler.records q'.keys) state) q')
      rw [hkeys]
      exact .started hkeys (twins_pass htwins' _ _)

/-- Readers that are alike start alike. -/
theorem Alike.start (h : Alike f alloc alloc' r r') (mode : Mode Row Keyed ρ γ) :
    StartedAlike f alloc alloc' (r.start alloc mode assembler state)
      (r'.start alloc' mode assembler state) := by
  have hreopen := h.reopen
  cases hr : r.reopen with
  | error e t =>
    rw [hr] at hreopen
    obtain ⟨_, t', hr', rfl, hkeys, hkeys'⟩ := hreopen.of_error
    have hsame : t'.keys = t.keys := hkeys'.trans hkeys.symm
    obtain ⟨hrows, hunder, hrecords⟩ := start_of_reopen_error assembler state alloc hr
    obtain ⟨hrows', hunder', hrecords'⟩ := start_of_reopen_error assembler state alloc' hr'
    cases mode with
    | rows =>
      rw [Reader.start, Reader.start, hrows, hrows']
      exact .failed hsame
    | recordsUnder keys =>
      rw [Reader.start, Reader.start, hunder, hunder']
      exact .failed hsame
    | records =>
      rw [Reader.start, Reader.start, hrecords, hrecords']
      exact .failed hsame
  | ok u t =>
    rw [hr] at hreopen
    obtain ⟨t', hr', htwins, hkeys, hkeys'⟩ := hreopen.of_ok
    have hsame : t'.keys = t.keys := hkeys'.trans hkeys.symm
    cases mode with
    | rows =>
      rw [Reader.start, Reader.start, startRows_of_reopen assembler state hr,
        startRows_of_reopen assembler state hr']
      exact .started hsame (twins_pass htwins _ _)
    | recordsUnder keys =>
      rw [Reader.start, Reader.start, startRecordsUnder_of_reopen assembler state keys hr,
        startRecordsUnder_of_reopen assembler state keys hr']
      exact .started hsame (twins_pass htwins _ _)
    | records => exact startedAlike_records assembler state hr hr' htwins hsame

/-- Readers that are alike give passes of the same course. -/
theorem Alike.course (h : Alike f alloc alloc' r r') (mode : Mode Row Keyed ρ γ) (requests : Nat) :
    r'.course alloc' mode assembler state requests =
      (r.course alloc mode assembler state requests).map f := by
  have hstart := h.start assembler state mode
  unfold Reader.course
  generalize r.start alloc mode assembler state = outcome at hstart ⊢
  generalize r'.start alloc' mode assembler state = outcome' at hstart ⊢
  cases hstart with
  | failed hkeys => exact congrArg (Course.failed _) hkeys
  | started hkeys htwins =>
    obtain ⟨hanswers, hstate⟩ := htwins.take requests
    dsimp only [Course.map]
    rw [hkeys, hanswers, hstate]
    rfl

/-- New readers whose origins open alike give passes of the same course. -/
theorem firstCourse_eq_map {origin : π} {origin' : π'} (alloc : Allocator) (d : Dialect)
    (h : OpenedAlike f (Origin.openSource origin).1 (Origin.openSource origin').1)
    (mode : Mode Row Keyed ρ γ) (requests : Nat) :
    firstCourse alloc origin' d mode assembler state requests =
      (firstCourse alloc origin d mode assembler state requests).map f := by
  unfold firstCourse create
  cases d.validate with
  | error e => rfl
  | ok u =>
    unfold Scanner.create
    cases hb : Buffer.create (α := UInt8) alloc 1 with
    | error e => rfl
    | ok field =>
      have hsound : field.isSound = true := (Buffer.create_eq_ok hb).1
      have halike : Alike f alloc alloc { origin, scanner := { dialect := d, field } }
          { origin := origin', scanner := { dialect := d, field } } :=
        ⟨rfl, fun _ _ ↦ .same rfl (Buffer.isSound_clear hsound), h⟩
      exact halike.course assembler state mode requests

/-- Where failures have the same names the courses are the same. -/
theorem firstCourse_eq {π₁ π₂ σ₁ σ₂ : Type} [Source σ₁ ε] [Source σ₂ ε] [Origin π₁ σ₁ ε]
    [Origin π₂ σ₂ ε] {origin₁ : π₁} {origin₂ : π₂} (alloc : Allocator) (d : Dialect)
    (h : OpenedAlike id (Origin.openSource origin₁).1 (Origin.openSource origin₂).1)
    (mode : Mode Row Keyed ρ γ) (requests : Nat) :
    firstCourse alloc origin₂ d mode assembler state requests =
      firstCourse alloc origin₁ d mode assembler state requests := by
  rw [firstCourse_eq_map assembler state alloc d h, Course.map_id]

end Reader
end Delimited
