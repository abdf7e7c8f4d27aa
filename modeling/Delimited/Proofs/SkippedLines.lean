import Delimited.Proofs.BlankLines
import Delimited.Proofs.Collecting

/-!
# Leaving out blank lines

A pass that skips blank lines comes to a row in another way than one that keeps them: it consumes
line endings one by one, where the other makes a row of each and takes the two bytes of a pair
together. Still it gives the same rows, without those before which a line ending is in view.
-/

namespace Delimited

namespace Grammar

variable {d : Dialect}

/-- There is text where a row begins. -/
theorem ne_nil_of_mem_starts {text start : List UInt8} (h : start ∈ starts d text) :
    start ≠ [] := by
  fun_induction starts d text with
  | case1 text hs => cases h
  | case2 text hs ih =>
    cases h with
    | head => exact hs
    | tail _ h => exact ih h

/-- The rows of a text, each with the byte that it begins with. -/
def lines (d : Dialect) (text : List UInt8) : List (UInt8 × List (List UInt8)) :=
  (starts d text).map fun start ↦ (start.headD 0, values d start)

theorem map_snd_lines (d : Dialect) (text : List UInt8) :
    (lines d text).map Prod.snd = table d text := List.map_map

theorem exists_cons_of_mem_lines {text : List UInt8} {line : UInt8 × List (List UInt8)}
    (h : line ∈ lines d text) : ∃ behind, line.2 = values d (line.1 :: behind) := by
  obtain ⟨start, hstart, rfl⟩ := List.mem_map.mp h
  obtain ⟨b, behind, rfl⟩ := List.exists_cons_of_ne_nil (ne_nil_of_mem_starts hstart)
  exact ⟨behind, rfl⟩

/-- The byte that a row begins with is the first of the text from that row on. -/
theorem head?_getElem?_starts (d : Dialect) (text : List UInt8) (n : Nat) :
    (starts d text)[n]?.bind List.head? = (lines d text)[n]?.map Prod.fst := by
  rw [lines, List.getElem?_map]
  cases hn : (starts d text)[n]? with
  | none => rfl
  | some start =>
    obtain ⟨b, behind, rfl⟩ :=
      List.exists_cons_of_ne_nil (ne_nil_of_mem_starts (List.mem_of_getElem? hn))
    rfl

/-- Where blank lines are skipped, the rows are those that begin with another byte than that of a
line ending. -/
theorem table_skipping (hd : d.validate = .ok ()) (text : List UInt8) :
    table { d with skipBlankLines := true } text =
      ((lines d.keepBlankLines text).filter fun line ↦ !isLineEnding line.1).map Prod.snd := by
  have hblank : ∀ start ∈ starts d.keepBlankLines text,
      (!isBlank start) = !isLineEnding (start.headD 0) := by
    intro start hstart
    obtain ⟨b, behind, rfl⟩ := List.exists_cons_of_ne_nil (ne_nil_of_mem_starts hstart)
    rfl
  rw [table, starts_of_skipBlankLines (d := { d with skipBlankLines := true }) hd rfl,
    lines, List.filter_map, List.map_map]
  show ((starts d.keepBlankLines text).filter _).map _ = _
  rw [List.filter_congr hblank]
  exact List.map_congr_left fun start _ ↦ (values_keepBlankLines _ start).symm

/-- A blank line is a row of one empty field. -/
theorem eq_of_mem_lines_of_isLineEnding (hd : d.validate = .ok ()) {text : List UInt8}
    {line : UInt8 × List (List UInt8)} (h : line ∈ lines d text)
    (hline : isLineEnding line.1 = true) : line.2 = [[]] := by
  obtain ⟨behind, hvalues⟩ := exists_cons_of_mem_lines h
  rw [hvalues, values_of_isLineEnding hd hline]

end Grammar

namespace Pass

variable {σ ε φ ρ γ : Type} [Source σ ε] {alloc : Allocator} {p q : Pass σ φ ρ γ} {d : Dialect}
  {text : List UInt8}

/-- A pass that finds no row has no byte in view any more. -/
theorem ahead_of_next_eq_none (hp : p.finished = false) (h : p.next alloc = (none, q)) :
    q.scanner.ahead = none := by
  have hrequested := requested_next alloc p
  rw [h] at hrequested
  cases hrequested with
  | finished hover =>
    rw [hp] at hover
    cases hover
  | exhausted hp hskip hend => exact Option.isNone_iff_eq_none.mp hend

/-- Where blank lines are kept, the byte in view behind a number of rows is the one that the next
row begins with. -/
theorem ahead_take (hg : alloc.GrantsFor text.length) (h : p.At d.keepBlankLines text .done)
    (n : Nat) :
    (p.take alloc n).2.scanner.ahead =
      (Grammar.starts d.keepBlankLines text)[n]?.bind List.head? := by
  induction n generalizing p text with
  | zero =>
    rw [show (p.take alloc 0).2 = p from rfl, h.scanner.ahead]
    by_cases hs : text = []
    · rw [hs, Grammar.starts_nil]
      rfl
    · rw [Grammar.starts_of_ne_nil (d := d.keepBlankLines) hs]
      rfl
  | succ n ih =>
    by_cases hs : text = []
    · obtain ⟨q, hnext, hq, -⟩ := next_of_done alloc h hs
      rw [take_of_next_finished hnext hq, hs, Grammar.starts_nil]
      exact ahead_of_next_eq_none h.unfinished hnext
    · obtain ⟨q, hnext, -, -, hat, -⟩ := next_of_row hg h hs (.inr rfl)
      rw [take_succ hnext, Grammar.starts_of_ne_nil (d := d.keepBlankLines) hs,
        List.getElem?_cons_succ]
      exact ih (hg.mono (Grammar.length_behindRow_recordStart_le d.keepBlankLines text)) hat

end Pass

/-- Whether blank lines are skipped or kept makes no difference to the other rows. Each row of a
pass that keeps them begins with the byte that is in view when the row is asked for. A pass that
skips them gives the same rows in the same order, without those that begin with the byte of a line
ending. Such a row has nothing but an empty field; any other is given, and so is one that begins
with a quote or a separator. -/
theorem skipping_leaves_out_blank_lines (alloc : Allocator) (d : Dialect) (bytes : List UInt8)
    (hg : alloc.GrantsFor bytes.length) (hd : d.validate = .ok ())
    (hfits : bytes.length < memoryLimit) :
    ∃ lines : List (UInt8 × List (List UInt8)),
      parseRows alloc bytes { d with skipBlankLines := false } = .ok (lines.map Prod.snd) ∧
        (∃ (r r' : Reader ListOrigin ListSource)
          (p : Pass ListSource Unit (List (List UInt8)) (List (List UInt8))),
          Reader.create (ε := Empty) alloc ⟨bytes⟩ { d with skipBlankLines := false } = .ok r ∧
            r.startRows Assembler.standard () = .ok p r' ∧
            ∀ n, (p.take alloc n).2.scanner.ahead = lines[n]?.map Prod.fst) ∧
        parseRows alloc bytes { d with skipBlankLines := true } =
          .ok ((lines.filter fun line ↦ !isLineEnding line.1).map Prod.snd) ∧
        ∀ line ∈ lines, line.2 ≠ [[]] ∨ line.1 = d.quote ∨ line.1 = d.separator →
          isLineEnding line.1 = false := by
  have hkeep : d.keepBlankLines.validate = .ok () := hd
  refine ⟨Grammar.lines d.keepBlankLines bytes, ?_, ?_, ?_, ?_⟩
  · rw [Grammar.map_snd_lines]
    exact parseRows_eq_table hg hkeep hfits
  · obtain ⟨r, r', p, hr, hp, -, hat⟩ := exists_startRows_at hg hkeep hfits
    refine ⟨r, r', p, hr, hp, fun n ↦ ?_⟩
    rw [Pass.ahead_take hg hat, Grammar.head?_getElem?_starts]
  · rw [← Grammar.table_skipping hd]
    exact parseRows_eq_table hg hd hfits
  · obtain ⟨hseparator, hquote, -⟩ := (Dialect.validate_eq_ok_iff d).mp hd
    rintro line hline (hvalues | hfirst | hfirst)
    · exact Bool.eq_false_iff.mpr fun hending ↦
        hvalues (Grammar.eq_of_mem_lines_of_isLineEnding hkeep hline hending)
    · rw [hfirst, hquote]
    · rw [hfirst, hseparator]

/-- Blank lines in front, between rows and at the end, in all three forms. Of the five rows of one
empty field the one in quotes is not blank. -/
theorem skipping_leaves_out_blank_lines_of_three_forms :
    let bytes : List UInt8 := [13, 10, 10, 34, 34, 10, 44, 10, 34, 10, 34, 13, 13, 120, 10, 10]
    ∃ lines : List (UInt8 × List (List UInt8)),
      lines.map Prod.snd = [[[]], [[]], [[]], [[], []], [[10]], [[]], [[120]], [[]]] ∧
        parseRows .unlimited bytes { skipBlankLines := false } = .ok (lines.map Prod.snd) ∧
        (lines.filter fun line ↦ !isLineEnding line.1).map Prod.snd =
          [[[]], [[], []], [[10]], [[120]]] ∧
        parseRows .unlimited bytes { skipBlankLines := true } =
          .ok ((lines.filter fun line ↦ !isLineEnding line.1).map Prod.snd) := by
  intro bytes
  obtain ⟨lines, hrows, -, hskipped, -⟩ := skipping_leaves_out_blank_lines .unlimited {} bytes
    (Allocator.grantsFor_unlimited _) rfl (by decide)
  have htable := hrows.symm.trans
    (parseRows_eq_table (Allocator.grantsFor_unlimited _) rfl (by decide))
  have htable' := hskipped.symm.trans
    (parseRows_eq_table (Allocator.grantsFor_unlimited _) rfl (by decide))
  refine ⟨lines, ?_, hrows, ?_, hskipped⟩
  · rw [Except.ok.inj htable]
    decide +kernel
  · rw [Except.ok.inj htable']
    decide +kernel

end Delimited
