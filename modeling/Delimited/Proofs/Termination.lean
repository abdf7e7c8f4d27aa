import Delimited.Proofs.Totals

/-!
# Scanning ends

Every loop of a scanner ends, whatever its dialect, its field buffer and the allocator. Scans that
succeed take bytes, and so do the rows of a pass. Hence a pass ends, and what it gives is bounded by
the bytes that its source gives before it stops.
-/

namespace Delimited

variable {σ ε : Type} [Source σ ε] {alloc : Allocator}

/-- Taking something of a list leaves less than all of it. -/
theorem exists_consumed {α : Type} {found left : List α} (h : left <:+ found)
    (hlt : left.length < found.length) : ∃ consumed, consumed ≠ [] ∧ found = consumed ++ left := by
  obtain ⟨consumed, rfl⟩ := h
  refine ⟨consumed, ?_, rfl⟩
  rintro rfl
  exact Nat.lt_irrefl _ hlt

namespace Scanner

variable {s t : Scanner σ}

/-- A scanner that has turned to a source has before it all that the source gives. -/
theorem remaining_attach {source : σ} (h : attach source s = .ok () t) :
    t.remaining = (Source.drain source).1 := by
  unfold attach consume at h
  dsimp only at h
  split at h
  · next b source' hread =>
    cases h
    rw [Source.drain_of_byte hread]
    rfl
  · next source' hread =>
    cases h
    rw [Source.drain_of_stop hread]
    rfl
  · cases h

/-- The keys that a header gives are within what it takes. -/
theorem within_readHeader {keys keys' : Buffer (List UInt8)} (hk : keys.isSound = true)
    (hempty : keys.toList = []) (h : readHeader alloc s keys = .ok () (t, keys')) :
    Within s.remaining.length t.remaining.length keys'.toList := by
  obtain ⟨u, hskip, hheader⟩ := readHeader_eq_ok h
  apply Within.mono _ (remaining_of_skipBlankLines hskip).length_le
  obtain ⟨-, rfl, rfl⟩ | ⟨-, count, v, hrow, rfl⟩ := hheader
  · rw [hempty]
    exact .nil (Nat.le_refl _)
  · obtain ⟨hall, hwithin⟩ := takeAll_rowFields hrow
    rw [toList_of_takeAll_addKey hall hk, hempty]
    exact hwithin

end Scanner

namespace Reader

variable {π φ Field Row Keyed ρ γ : Type} [Origin π σ ε] {r t : Reader π σ}

/-- Where the source could be opened again, all that it gives remains. -/
theorem remaining_of_reopen (h : r.reopen = .ok () t) :
    ∃ source, (Origin.openSource r.origin).1 = .ok source ∧
      t.scanner.remaining = (Source.drain source).1 := by
  have hreopens := r.reopen_cases
  rw [h] at hreopens
  cases hreopens with
  | opened ho ha => exact ⟨_, by rw [ho], Scanner.remaining_attach ha⟩

/-- The keys that a start takes from the source are within what it takes. -/
theorem within_start {mode : Mode Row Keyed ρ γ} {assembler : Assembler φ Field Row Keyed}
    {state : φ} {under : Option RecordKeys} {p : Pass σ φ ρ γ}
    (h : r.start alloc mode assembler state = .ok (under, p) t) :
    ∃ source, (Origin.openSource r.origin).1 = .ok source ∧
      Within (Source.drain source).1.length p.scanner.remaining.length t.keys := by
  have hstarts := r.start_cases assembler state alloc mode
  have hreopen := keys_reopen r
  rw [h] at hstarts
  cases hstarts with
  | rows hr =>
    obtain ⟨source, ho, hremaining⟩ := remaining_of_reopen hr
    refine ⟨source, ho, ?_⟩
    rw [hreopen.of_ok hr, ← hremaining]
    exact .nil (Nat.le_refl _)
  | recordsUnder hr =>
    obtain ⟨source, ho, hremaining⟩ := remaining_of_reopen hr
    refine ⟨source, ho, ?_⟩
    rw [hreopen.of_ok hr, ← hremaining]
    exact .nil (Nat.le_refl _)
  | records hr hb hheader horigin =>
    obtain ⟨source, ho, hremaining⟩ := remaining_of_reopen hr
    obtain ⟨hsound, hempty, -⟩ := Buffer.create_eq_ok hb
    refine ⟨source, ho, ?_⟩
    rw [← hremaining]
    exact Scanner.within_readHeader hsound hempty hheader

end Reader

/-- What a pass comes to whose source gives so many bytes, together with the keys that were taken
from the source before. -/
structure Pass.Bounded {φ ρ γ : Type} (alloc : Allocator) (bytes : Nat) (keys : List (List UInt8))
    (p : Pass σ φ ρ γ) : Prop where
  /-- The items come first, and then nothing for ever. -/
  answered : ∀ requests, (p.take alloc requests).1 = Pass.answers (p.items alloc).1 requests
  items : (p.items alloc).1.length ≤ bytes + 1
  rows : (p.delivered alloc).length ≤ bytes
  fields : (keys ++ p.fields alloc).length ≤ bytes + 1
  lengths : (keys ++ p.fields alloc).flatten.length ≤ bytes

/-- A pass is bounded by what its source gives. -/
theorem Pass.bounded {φ ρ γ : Type} {p : Pass σ φ ρ γ} {bytes : Nat} {keys : List (List UInt8)}
    (h : Within bytes p.scanner.remaining.length keys) : p.Bounded alloc bytes keys := by
  obtain ⟨left, hfields⟩ := within_fields alloc p
  obtain ⟨hitems, hrows⟩ := length_items_le alloc p
  have hremaining : p.scanner.remaining.length ≤ bytes := Nat.le_trans (Nat.le_add_left _ _) h.bytes
  have hwithin : Within bytes left (keys ++ p.fields alloc) := within_append_fields h hfields
  exact ⟨take_eq_answers p, by omega, by omega, hwithin.length_le, hwithin.length_flatten_le⟩

/-- The search for a record and the scan of a field end from wherever a scanner is, the first after
no more rounds than there are bytes and the second after few rounds for each. A scan that succeeds
takes a byte, unless the scanner is at the end. So does every row that a pass delivers, and the row
is made of the fields that are scanned. Hence, once it has started, a pass over a source that gives
so many bytes before it stops is over after one item more at most. It delivers at most a row for
each byte, one field more than that, and no more bytes than there are. -/
theorem scanning_ends (alloc : Allocator) :
    (∀ s : Scanner σ,
      (if s.dialect.skipBlankLines then
        ∃ rounds ≤ s.remaining.length + 1,
          Rounds Scanner.seekRound rounds s (Scanner.skipBlankLines s)
      else Scanner.skipBlankLines s = .ok () s) ∧
      (∃ rounds ≤ 3 * s.remaining.length + 2,
        Rounds (Scanner.scanRound alloc) rounds (.fieldStart, { s with field := s.field.clear })
          (Scanner.readField alloc s)) ∧
      ∀ boundary t, Scanner.readField alloc s = .ok boundary t → s.isAtEnd = false →
        ∃ consumed, consumed ≠ [] ∧ s.remaining = consumed ++ t.remaining) ∧
    (∀ {φ ρ γ : Type} (p q : Pass σ φ ρ γ) (value : γ), p.next alloc = (some (.ok value), q) →
      value = (p.builder.build (p.scanned alloc) p.state).1 ∧
        ∃ consumed, consumed ≠ [] ∧ p.scanner.remaining = consumed ++ q.scanner.remaining) ∧
    (∀ p : Pass σ Unit (List (List UInt8)) (List (List UInt8)),
      p.builder = Assembler.standard.rows → (p.delivered alloc).flatten <+: p.fields alloc) ∧
    ∀ {π φ Field Row Keyed ρ γ : Type} [Origin π σ ε] (r t : Reader π σ)
      (mode : Mode Row Keyed ρ γ) (assembler : Assembler φ Field Row Keyed) (state : φ)
      (under : Option RecordKeys) (p : Pass σ φ ρ γ),
      r.start alloc mode assembler state = .ok (under, p) t →
        ∃ source, (Origin.openSource r.origin).1 = .ok source ∧
          ∀ text ending, Source.Gives source text ending →
            p.Bounded alloc text.length t.keys := by
  refine ⟨fun s ↦ ⟨?_, ?_, ?_⟩, ?_, fun p hp ↦ Pass.flatten_delivered hp, ?_⟩
  · unfold Scanner.skipBlankLines
    split
    · exact Scanner.rounds_skipLineEndings s
    · rfl
  · exact Scanner.rounds_readFrom alloc .fieldStart { s with field := s.field.clear }
  · intro boundary t h hend
    have hsuffix := (Scanner.remaining_of_readField h).trans (List.tail_suffix _)
    have hs := Scanner.ahead_ne_none_of_isAtEnd hend
    exact exists_consumed hsuffix (Scanner.length_remaining_readField h hs)
  · intro φ ρ γ p q value h
    have hreads := Pass.reads_of_next h
    refine ⟨?_, exists_consumed hreads.suffix hreads.less⟩
    rw [hreads.built]
  · intro π φ Field Row Keyed ρ γ _ r t mode assembler state under p h
    obtain ⟨source, ho, hwithin⟩ := Reader.within_start h
    refine ⟨source, ho, ?_⟩
    rintro text ending ⟨rest, hdrain⟩
    rw [hdrain] at hwithin
    exact Pass.bounded hwithin

/-- A separator and nothing else makes a row of two fields, one more than there are bytes. That the
source would go on with separators for ever is of no account behind its stop. -/
theorem scanning_ends_of_endless_source :
    let reading : Nat → Answer Unit × Nat := fun count ↦
      if count = 1 then (.stop .done, count + 1) else (.byte 44, count + 1)
    let source : Metered Nat Unit := ⟨reading, 0, 1⟩
    Source.Gives source [44] .done ∧
      ∃ (r t : Reader (SuccessiveOrigin (Metered Nat Unit) Unit) (Metered Nat Unit))
        (p : Pass (Metered Nat Unit) Unit (List (List UInt8)) (List (List UInt8))),
        r.start .unlimited .rows Assembler.standard () = .ok (none, p) t ∧
          p.delivered .unlimited = [[[], []]] ∧ p.Bounded .unlimited 1 t.keys := by
  intro reading source
  have hdelivers : Delivers reading 0 [44] .done := .byte rfl (.stop rfl)
  have hgives : Source.Gives source [44] .done := Metered.exists_drain_eq hdelivers (Nat.le_refl 1)
  let origin : SuccessiveOrigin (Metered Nat Unit) Unit := ⟨.ok source, [], 0⟩
  obtain ⟨r, -, horigin, hfit⟩ := Reader.create_of_validate (σ := Metered Nat Unit) (ε := Unit)
    (d := {}) (Allocator.grantsFor_unlimited 0) rfl origin
  have ho : Origin.openSource r.origin = (.ok source, ⟨.ok source, [], 1⟩) := by
    rw [horigin]
    rfl
  obtain ⟨p, t, hrows, hbuilder, hstate, hat, -⟩ := Reader.startRows_of_gives Assembler.standard ()
    hfit ho hgives (.inr rfl) (by decide)
  have hstart : r.start .unlimited .rows Assembler.standard () = .ok (none, p) t := by
    rw [Reader.start, hrows]
  have hitems : (p.items .unlimited).1 = [.ok [[], []]] := by
    have htable : Grammar.table {} [44] = [[[], []]] := by decide +kernel
    rw [Pass.items_eq (Allocator.grantsFor_unlimited _) hat, hbuilder, hstate,
      Grammar.settledTable_done, htable]
    rfl
  obtain ⟨-, -, -, hbounded⟩ := scanning_ends (σ := Metered Nat Unit) (ε := Unit) .unlimited
  obtain ⟨opened, hopened, hall⟩ := hbounded r t .rows Assembler.standard () none p hstart
  rw [ho] at hopened
  cases hopened
  refine ⟨hgives, r, t, p, hstart, ?_, hall [44] .done hgives⟩
  rw [Pass.delivered, hitems]
  rfl

end Delimited
