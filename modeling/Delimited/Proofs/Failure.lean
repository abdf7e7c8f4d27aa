import Delimited.Proofs.BlankLines
import Delimited.Proofs.Collecting
import Delimited.Source.Script

/-!
# Rows before a failure

A source that fails may do so anywhere: at its first read, between two fields, in quotes, between a
carriage return and a line feed. The rows that were read until then are all the rows of the bytes
before the failure, except the last, of which it is not known how it goes on. No part of that row is
given, and no key is taken from it.
-/

namespace Delimited

namespace Grammar

variable {d : Dialect}

/-- For each row but the last of a text, the text from that row on. Blank lines count as rows until
the last row is left out. -/
def startsButLast (d : Dialect) (text : List UInt8) : List (List UInt8) :=
  let starts := (starts d.keepBlankLines text).dropLast
  if d.skipBlankLines then starts.filter fun start ↦ !isBlank start else starts

/-- The rows that come before a failure behind the text. -/
def tableButLast (d : Dialect) (text : List UInt8) : List (List (List UInt8)) :=
  (startsButLast d text).map (values d)

/-- Where blank lines are kept, the last row is the one behind which there is no text. -/
theorem filter_behindRow_starts (d : Dialect) (text : List UInt8) :
    ((starts d.keepBlankLines text).filter fun start ↦ !(behindRow d start).isEmpty) =
      (starts d.keepBlankLines text).dropLast := by
  fun_induction starts d.keepBlankLines text with
  | case1 text hnil => rfl
  | case2 text hne ih =>
    rw [recordStart_keepBlankLines] at hne ih ⊢
    rw [behindRow_keepBlankLines] at ih ⊢
    by_cases hb : behindRow d text = []
    · rw [List.filter_cons_of_neg (by simp [hb]), hb, starts_nil, List.filter_nil,
        List.dropLast_singleton]
    · have hs : starts d.keepBlankLines (behindRow d text) ≠ [] := by
        rw [starts_of_ne_nil (d := d.keepBlankLines) hb]
        exact List.cons_ne_nil _ _
      rw [List.filter_cons_of_pos (by simp [hb]), ih, List.dropLast_cons_of_ne_nil hs]

/-- The rows that are certain to end in spite of a failure are all but the last. -/
theorem settledTable_failure {ε : Type} (hd : d.validate = .ok ()) (text : List UInt8) (cause : ε) :
    settledTable d text (.failure cause) = tableButLast d text := by
  unfold settledTable settledStarts tableButLast startsButLast
  apply congrArg
  by_cases hskip : d.skipBlankLines = true
  · simp only [hskip, if_true]
    rw [starts_of_skipBlankLines hd hskip, ← filter_behindRow_starts, List.filter_filter,
      List.filter_filter]
    apply List.filter_congr
    intro start _
    exact Bool.and_comm _ _
  · have hkeep := Dialect.keepBlankLines_of_eq_false (Bool.eq_false_iff.mpr hskip)
    simp only [hskip]
    rw [← filter_behindRow_starts, hkeep]
    rfl

/-- The row in front is the last where nothing is behind it. -/
theorem tableButLast_of_eq_nil (hd : d.validate = .ok ()) {text : List UInt8}
    (h : behindRow d (recordStart d text) = []) : tableButLast d text = [] := by
  rw [← settledTable_failure hd text (), settledTable_of_behindRow_eq_nil h]

/-- The row in front is not the last where something is behind it. -/
theorem tableButLast_of_ne_nil (hd : d.validate = .ok ()) {text : List UInt8}
    (h : behindRow d (recordStart d text) ≠ []) :
    tableButLast d text =
      values d (recordStart d text) :: tableButLast d (behindRow d (recordStart d text)) := by
  rw [← settledTable_failure hd text (), ← settledTable_failure hd _ (),
    settledTable_of_ne_nil (recordStart_ne_nil h) (.inl h)]

end Grammar

variable {π σ ε : Type} [Source σ ε] [Origin π σ ε] {alloc : Allocator} {d : Dialect}
  {origin origin' : π} {source : σ} {text : List UInt8} {cause : ε}

/-- A pass over rows does not start where the first read fails. -/
theorem Reader.startRows_of_failure {r : Reader π σ} (hfit : r.scanner.Fit d)
    (ho : Origin.openSource r.origin = (.ok source, origin'))
    (hs : Source.Gives source [] (.failure cause)) :
    ∃ r' : Reader π σ, r.startRows Assembler.standard () = .error (.reading cause) r' := by
  obtain ⟨r', hr, -⟩ := reopen_of_failure hfit ho hs
  unfold startRows
  rw [hr]
  exact ⟨r', rfl⟩

/-- A pass over rows gives all rows but the last, the failure, and nothing more. -/
theorem Reader.answers_startRows_of_failure {r : Reader π σ} (hg : alloc.GrantsFor text.length)
    (hd : d.validate = .ok ()) (hfit : r.scanner.Fit d)
    (ho : Origin.openSource r.origin = (.ok source, origin'))
    (hs : Source.Gives source text (.failure cause)) (hfits : text.length < memoryLimit)
    (hne : text ≠ []) :
    ∃ p r', r.startRows Assembler.standard () = .ok p r' ∧
      ∀ n, (p.take alloc n).1 = Pass.answers
        ((Grammar.tableButLast d text).map .ok ++ [.error (.reading cause)]) n := by
  obtain ⟨p, r', hp, hbuilder, -, hat, -⟩ :=
    startRows_of_gives Assembler.standard () hfit ho hs (.inl hne) hfits
  refine ⟨p, r', hp, fun n ↦ ?_⟩
  rw [Pass.take_eq_answers, Pass.items_of_rows hg hat hbuilder, Grammar.settledTable_failure hd]
  rfl

/-- A pass over records takes its keys from the first row, if it is not the last, and gives the
records of all others but the last, the failure, and nothing more. -/
theorem Reader.answers_startRecords_of_failure {r : Reader π σ} (hg : alloc.GrantsFor text.length)
    (hd : d.validate = .ok ()) (hfit : r.scanner.Fit d)
    (ho : Origin.openSource r.origin = (.ok source, origin'))
    (hs : Source.Gives source text (.failure cause)) (hfits : text.length < memoryLimit)
    {keys : List (List UInt8)} {rows : List (List (List UInt8))}
    (htable : Grammar.tableButLast d text = keys :: rows) :
    ∃ p r', r.startRecords alloc Assembler.standard () = .ok (⟨keys, true⟩, p) r' ∧
      r'.keys = keys ∧
      ∀ n, (p.take alloc n).1 = Pass.answers
        ((rows.map (Record.ofRow keys)).map .ok ++ [.error (.reading cause)]) n := by
  have hne : Grammar.behindRow d (Grammar.recordStart d text) ≠ [] := by
    intro hnil
    rw [Grammar.tableButLast_of_eq_nil hd hnil] at htable
    cases htable
  rw [Grammar.tableButLast_of_ne_nil hd hne] at htable
  obtain ⟨rfl, rfl⟩ := List.cons.inj htable
  obtain ⟨p, r', hp, hkeys, hbuilder, -, hat, -⟩ :=
    startRecords_of_row Assembler.standard () hg hfit ho hs hfits (Grammar.recordStart_ne_nil hne)
      (.inl hne)
  have hbehind := Grammar.length_behindRow_recordStart_le d text
  refine ⟨p, r', hp, hkeys, fun n ↦ ?_⟩
  rw [Pass.take_eq_answers, Pass.items_of_records (hg.mono hbehind) hat hbuilder,
    Grammar.settledTable_failure hd]
  rfl

/-- What comes of bytes behind which the source fails. The rows before the failure are the rows of a
complete source over the bytes with all its blank lines, except the last, and except blank lines
where they are skipped. -/
theorem rows_before_failure (alloc : Allocator) (d : Dialect) (origin origin' : π) (source : σ)
    (text : List UInt8) (cause : ε) (hg : alloc.GrantsFor text.length) (hd : d.validate = .ok ())
    (ho : Origin.openSource origin = (.ok source, origin'))
    (hs : Source.Gives source text (.failure cause)) (hfits : text.length < memoryLimit) :
    parseRows alloc text d.keepBlankLines =
        .ok ((Grammar.starts d.keepBlankLines text).map (Grammar.values d)) ∧
      ∃ r : Reader π σ, Reader.create (ε := ε) alloc origin d = .ok r ∧
        (text = [] → ∃ r', r.startRows Assembler.standard () = .error (.reading cause) r') ∧
        (text ≠ [] → ∃ p r', r.startRows Assembler.standard () = .ok p r' ∧
          ∀ n, (p.take alloc n).1 = Pass.answers
            ((Grammar.tableButLast d text).map .ok ++ [.error (.reading cause)]) n) ∧
        (Grammar.tableButLast d text = [] → ∃ r' : Reader π σ,
          r.startRecords alloc Assembler.standard () = .error (.reading cause) r' ∧
            r'.keys = []) ∧
        ∀ keys rows, Grammar.tableButLast d text = keys :: rows →
          ∃ p r', r.startRecords alloc Assembler.standard () = .ok (⟨keys, true⟩, p) r' ∧
            r'.keys = keys ∧
            ∀ n, (p.take alloc n).1 = Pass.answers
              ((rows.map (Record.ofRow keys)).map .ok ++ [.error (.reading cause)]) n := by
  obtain ⟨r, hr, rfl, hfit⟩ := Reader.create_of_validate (ε := ε) (σ := σ) hg hd origin
  have hvalid : d.keepBlankLines.validate = .ok () := by
    rw [Dialect.validate_keepBlankLines, hd]
  refine ⟨?_, r, hr, ?_, ?_, ?_, ?_⟩
  · rw [parseRows_eq_table hg hvalid hfits]
    exact congrArg _ (List.map_congr_left fun start _ ↦ Grammar.values_keepBlankLines d start)
  · rintro rfl
    exact Reader.startRows_of_failure hfit ho hs
  · intro hne
    exact Reader.answers_startRows_of_failure hg hd hfit ho hs hfits hne
  · intro hnil
    apply Reader.startRecords_of_failure Assembler.standard () hg hfit ho hs hfits
    apply Classical.byContradiction
    intro hne
    rw [Grammar.tableButLast_of_ne_nil hd hne] at hnil
    cases hnil
  · intro keys rows htable
    exact Reader.answers_startRecords_of_failure hg hd hfit ho hs hfits htable

/-- Four lines, the third of them blank, and a failure behind the fourth: the first has the keys,
the second is a record, the third is skipped, and the fourth is lost. -/
theorem rows_before_failure_of_four_lines :
    let lines : List UInt8 := [107, 10, 118, 10, 10, 119, 10]
    let script : Script Unit := ⟨lines.map .ok ++ .error () :: [.ok 120]⟩
    ∃ (r r' : Reader (SuccessiveOrigin (Script Unit) Unit) (Script Unit))
      (p : Pass (Script Unit) Unit (Record × List (List UInt8)) Record),
      Reader.create (ε := Unit) .unlimited ⟨.ok script, [], 0⟩ { skipBlankLines := true } = .ok r ∧
        r.startRecords .unlimited Assembler.standard () = .ok (⟨[[107]], true⟩, p) r' ∧
        ∀ n, (p.take .unlimited n).1 =
          Pass.answers [.ok (Record.ofRow [[107]] [[118]]), .error (.reading ())] n := by
  intro lines script
  obtain ⟨-, r, hr, -, -, -, hrecords⟩ :=
    rows_before_failure (σ := Script Unit) .unlimited { skipBlankLines := true }
      (SuccessiveOrigin.mk (.ok script) [] 0) ⟨.ok script, [], 1⟩ script lines ()
      (Allocator.grantsFor_unlimited _) rfl rfl (Script.gives_failure lines () _) (by decide)
  obtain ⟨p, r', hp, -, hanswers⟩ := hrecords [[107]] [[[118]]] (by decide +kernel)
  exact ⟨r, r', p, hr, hp, hanswers⟩

end Delimited
