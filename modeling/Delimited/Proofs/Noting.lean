import Delimited.Proofs.Collecting
import Delimited.Proofs.History

/-!
# What is noted of a pass

Input that is not well formed is read all the same, and its defects are noted: every byte that is
left out behind a closing quote, and a quote that is never closed. A pass notes the defects of each
row in front of the row itself, and nothing else.
-/

namespace Delimited

namespace Grammar

variable {d : Dialect} {text : List UInt8}

/-- The bytes of the row in front that are left out, each behind the closing quote of its field. -/
def droppedBytes (d : Dialect) (text : List UInt8) : List UInt8 :=
  (row d text).flatMap Field.dropped

/-- The length of the last field of the row in front, if its opening quote is never closed. -/
def unclosedLength? (d : Dialect) (text : List UInt8) : Option Nat :=
  ((row d text).getLast?.filter Field.unclosed).map fun f ↦ f.value.length

/-- The defects of the row in front: the bytes left out, then the quote that is left open. -/
def defects (d : Dialect) (text : List UInt8) : List Event :=
  (droppedBytes d text).map .byteDropped ++ (unclosedLength? d text).toList.map .quoteUnterminated

/-- What is noted of rows. -/
def notesOfRows (d : Dialect) (starts : List (List UInt8)) : List Event :=
  starts.flatMap fun start ↦ defects d start ++ [.rowRead (row d start).length]

/-- What is noted of rows that are read against so many keys. -/
def notesOfRecords (d : Dialect) (keys : Nat) (starts : List (List UInt8)) : List Event :=
  starts.flatMap fun start ↦ defects d start ++ [.recordRead (row d start).length keys]

/-- What is noted of a row that has the keys. -/
def notesOfHeader (d : Dialect) (start : List UInt8) : List Event :=
  defects d start ++ [.headerRead (row d start).length]

/-- A field whose quote is never closed is the last of its row. -/
theorem unclosed_eq_false_of_boundary (h : (field d text).boundary = .field) :
    (field d text).unclosed = false := by
  cases text with
  | nil => cases h
  | cons b text =>
    rw [field] at h ⊢
    split at h
    · next hb =>
      rw [if_pos hb]
      cases hq : (quoted d.quote text).2 with
      | none =>
        rw [hq] at h
        cases h
      | some behind => rfl
    · next hb =>
      rw [if_neg hb]
      rfl

theorem row_ne_nil (d : Dialect) (text : List UInt8) : row d text ≠ [] := by
  cases hb : (field d text).boundary with
  | record =>
    rw [row_of_record hb]
    exact List.cons_ne_nil _ _
  | field =>
    rw [row_of_field hb]
    exact List.cons_ne_nil _ _

theorem defects_of_record (h : (field d text).boundary = .record) :
    defects d text = (field d text).events := by
  unfold defects droppedBytes unclosedLength? Field.events
  rw [row_of_record h, List.flatMap_singleton, List.getLast?_singleton]
  cases hu : (field d text).unclosed with
  | true =>
    rw [Option.filter_some_pos hu]
    simp
  | false =>
    rw [Option.filter_some_neg (by simp [hu])]
    simp

theorem defects_of_field (h : (field d text).boundary = .field) :
    defects d text = (field d text).events ++ defects d (field d text).rest := by
  unfold defects droppedBytes unclosedLength? Field.events
  obtain ⟨f, fields, hrow⟩ := List.exists_cons_of_ne_nil (row_ne_nil d (field d text).rest)
  rw [row_of_field h, unclosed_eq_false_of_boundary h, hrow, List.flatMap_cons,
    List.getLast?_cons_cons]
  simp

/-- What is noted of the fields of a row is the defects of the row. -/
theorem rowEvents_eq_defects (d : Dialect) (text : List UInt8) :
    rowEvents d text = defects d text := by
  unfold rowEvents
  fun_induction row d text with
  | case1 text hb => rw [List.flatMap_singleton, defects_of_record hb]
  | case2 text hb ih => rw [List.flatMap_cons, ih, defects_of_field hb]

/-- A row has no defects exactly where every field of it is as it should be. -/
theorem defects_eq_nil_iff (d : Dialect) (text : List UInt8) :
    defects d text = [] ↔ ∀ f ∈ row d text, f.dropped = [] ∧ f.unclosed = false := by
  rw [← rowEvents_eq_defects, rowEvents, List.flatMap_eq_nil_iff]
  apply forall₂_congr
  intro f _
  unfold Field.events
  cases f.unclosed with
  | true => simp
  | false => simp

end Grammar

/-- Bytes in memory are opened in the same way every time. -/
theorem ListOrigin.reopened_eq (n : Nat) (origin : ListOrigin) :
    Origin.reopened n origin = origin := by
  induction n with
  | zero => rfl
  | succ n ih => exact ih

variable {alloc : Allocator} {d : Dialect} {bytes : List UInt8} {φ Field Row Keyed : Type}

namespace Reader

variable {r : Reader ListOrigin ListSource}

/-- A pass over the rows of bytes in memory notes that the source is read from its beginning, and
then the rows. -/
theorem toList_journal_startRows (hg : alloc.GrantsFor bytes.length) (hfit : r.scanner.Fit d)
    (horigin : r.origin = ⟨bytes⟩) (hfits : bytes.length < memoryLimit)
    (assembler : Assembler φ Field Row Keyed) (state : φ) :
    ∃ p t, r.startRows assembler state = .ok p t ∧
      ∀ n, (p.take alloc n).2.scanner.journal.toList = r.scanner.journal.toList ++
        .sourceRewound :: Grammar.notesOfRows d ((Grammar.starts d bytes).take n) := by
  obtain ⟨p, t, hp, hbuilder, -, hat, hjournal⟩ :=
    startRows_of_gives assembler state hfit (by rw [horigin]; rfl) (ListSource.gives bytes)
      (.inr rfl) hfits
  refine ⟨p, t, hp, fun n ↦ ?_⟩
  rw [(Pass.after_take hg hat n).2, hjournal, hbuilder, reopenedJournal, List.append_assoc]
  simp only [Grammar.rowEvents_eq_defects]
  rfl

/-- A pass over the records of bytes in memory notes that the source is read from its beginning, the
header row, and then the other rows. -/
theorem toList_journal_startRecords (hg : alloc.GrantsFor bytes.length) (hfit : r.scanner.Fit d)
    (horigin : r.origin = ⟨bytes⟩) (hfits : bytes.length < memoryLimit)
    (assembler : Assembler φ Field Row Keyed) (state : φ) :
    ∃ under p t, r.startRecords alloc assembler state = .ok (under, p) t ∧
      ∀ n, (p.take alloc n).2.scanner.journal.toList = r.scanner.journal.toList ++
        .sourceRewound :: match Grammar.starts d bytes with
          | [] => []
          | first :: others =>
            Grammar.notesOfHeader d first ++
              Grammar.notesOfRecords d (Grammar.row d first).length (others.take n) := by
  have hopen : Origin.openSource r.origin = (.ok (ListSource.mk bytes), ListOrigin.mk bytes) := by
    rw [horigin]
    rfl
  by_cases hs : Grammar.recordStart d bytes = []
  · obtain ⟨p, t, hp, -, hat, hjournal⟩ :=
      startRecords_of_done assembler state hg hfit hopen (ListSource.gives bytes) hs
    refine ⟨_, p, t, hp, fun n ↦ ?_⟩
    rw [(Pass.after_take (hg.mono (Nat.zero_le _)) hat n).2, hjournal, reopenedJournal,
      Grammar.starts_nil, Grammar.starts_of_eq_nil hs, List.take_nil, List.append_assoc]
    rfl
  · obtain ⟨p, t, hp, -, hbuilder, -, hat, hjournal⟩ :=
      startRecords_of_row assembler state hg hfit hopen (ListSource.gives bytes) hfits hs (.inr rfl)
    refine ⟨_, p, t, hp, fun n ↦ ?_⟩
    have hevent : ∀ fields,
        (assembler.records (Grammar.values d (Grammar.recordStart d bytes))).event fields =
          .recordRead fields (Grammar.row d (Grammar.recordStart d bytes)).length :=
      fun fields ↦ congrArg (Event.recordRead fields) (List.length_map _)
    have hbehind := Grammar.length_behindRow_recordStart_le d bytes
    rw [(Pass.after_take (hg.mono hbehind) hat n).2, hjournal, hbuilder, reopenedJournal,
      Grammar.starts_of_ne_nil hs]
    simp only [Grammar.rowEvents_eq_defects, List.append_assoc, Grammar.notesOfHeader,
      Grammar.notesOfRecords, hevent]
    rfl

end Reader

/-- A reader of bytes in memory that has been used in any way starts a complete pass. Over the rows,
it notes that the source is read from its beginning and then, for each row, its defects and the
number of its fields. Over records it does the same, except that the first row is noted as the
header, and the others with the number of keys; without a row nothing more is noted. A row has no
defects exactly where no field of it has bytes behind its closing quote or is without one. -/
theorem pass_notes_defects (alloc₀ alloc : Allocator) (d : Dialect) (bytes : List UInt8)
    (r : Reader ListOrigin ListSource) (history : List Operation)
    (hg : alloc.GrantsFor bytes.length) (hr : Reader.create (ε := Empty) alloc₀ ⟨bytes⟩ d = .ok r)
    (hfits : bytes.length < memoryLimit)
    (assembler : Assembler φ Field Row Keyed) (state : φ) :
    let before := r.run history
    let starts := Grammar.starts d bytes
    (∃ p t, before.startRows assembler state = .ok p t ∧
        ∀ n, (p.take alloc n).2.scanner.journal.toList = before.scanner.journal.toList ++
          .sourceRewound :: Grammar.notesOfRows d (starts.take n)) ∧
      (∃ under p t, before.startRecords alloc assembler state = .ok (under, p) t ∧
        ∀ n, (p.take alloc n).2.scanner.journal.toList = before.scanner.journal.toList ++
          .sourceRewound :: match starts with
            | [] => []
            | first :: others =>
              Grammar.notesOfHeader d first ++
                Grammar.notesOfRecords d (Grammar.row d first).length (others.take n)) ∧
      ∀ start ∈ starts, Grammar.defects d start = [] ↔
        ∀ f ∈ Grammar.row d start, f.dropped = [] ∧ f.unclosed = false := by
  intro before starts
  obtain ⟨hscanner, horigin, -⟩ := Reader.inOrder_of_create hr
  obtain ⟨hrun, hopened⟩ := Reader.inOrder_run hscanner history
  have hbytes : before.origin = ⟨bytes⟩ := by
    rw [hopened, ListOrigin.reopened_eq, horigin]
  exact ⟨Reader.toList_journal_startRows hg hrun.fit hbytes hfits assembler state,
    Reader.toList_journal_startRecords hg hrun.fit hbytes hfits assembler state,
    fun start _ ↦ Grammar.defects_eq_nil_iff d start⟩

/-- Behind a closing quote come a letter, a quote and another letter, which are left out; the last
field begins with a quote that is never closed. -/
theorem pass_notes_defects_of_open_quote :
    let bytes : List UInt8 := [34, 97, 34, 120, 34, 121, 44, 98, 10, 34, 99]
    ∃ (r t : Reader ListOrigin ListSource)
      (p : Pass ListSource Unit (List (List UInt8)) (List (List UInt8))),
      Reader.create (ε := Empty) .unlimited ⟨bytes⟩ {} = .ok r ∧
        r.startRows Assembler.standard () = .ok p t ∧
        (p.take .unlimited 3).2.scanner.journal.toList.map
            (fun event ↦ (event.message, event.details)) =
          [("record source rewound", []),
            ("dropping byte after closing quote", [("lookahead", .text "Byte(120)")]),
            ("dropping byte after closing quote", [("lookahead", .text "Byte(34)")]),
            ("dropping byte after closing quote", [("lookahead", .text "Byte(121)")]),
            ("list", [("fields", .number 2)]),
            ("unterminated quoted field", [("len", .number 1)]),
            ("list", [("fields", .number 1)])] := by
  intro bytes
  obtain ⟨r, hr, hjournal⟩ : ∃ r : Reader ListOrigin ListSource,
      Reader.create (ε := Empty) .unlimited ⟨bytes⟩ {} = .ok r ∧ r.scanner.journal = #[] :=
    ⟨_, rfl, rfl⟩
  obtain ⟨⟨p, t, hp, hnotes⟩, -⟩ := pass_notes_defects .unlimited .unlimited {} bytes r []
    (Allocator.grantsFor_unlimited _) hr (by decide) Assembler.standard ()
  refine ⟨r, t, p, hr, hp, ?_⟩
  rw [hnotes, Reader.run_nil, hjournal]
  decide +kernel

end Delimited
