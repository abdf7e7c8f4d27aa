import Delimited.Proofs.Transcription
import Mathlib.Data.List.TakeWhile

/-!
# Converting line breaks

A text whose lines end in line feeds may be converted to another line break. The rows and fields
stay, whatever is quoted and however badly. A line break that is part of a field is in quotes, and
is converted with the rest of the text.
-/

namespace Delimited

variable {d : Dialect}

theorem Dialect.isPlain_of_isLineEnding {b : UInt8} (h : isLineEnding b = true) :
    d.isPlain b = false := by
  simp [isPlain, h]

/-- Only the separator and line endings delimit a field. -/
theorem Dialect.eq_separator_or_isLineEnding {b : UInt8} (h : d.isPlain b = false) :
    b = d.separator ∨ isLineEnding b = true := by
  by_cases hs : b = d.separator
  · exact .inl hs
  · exact .inr (by simpa [isPlain, hs] using h)

namespace LineBreak

/-- What is written for a byte: the line break for a line feed, and any other byte itself. -/
def run (br : LineBreak) (b : UInt8) : List UInt8 :=
  if b = Delimited.lineFeed then br.bytes else [b]

/-- The text with the line break in place of every line feed. -/
def convert (br : LineBreak) (text : List UInt8) : List UInt8 := text.flatMap br.run

variable {br : LineBreak} {b c : UInt8} {text : List UInt8}

theorem run_lineFeed (br : LineBreak) : br.run Delimited.lineFeed = br.bytes := if_pos rfl

theorem run_of_ne (br : LineBreak) (h : b ≠ Delimited.lineFeed) : br.run b = [b] := if_neg h

theorem run_of_isLineEnding_eq_false (br : LineBreak) (h : isLineEnding b = false) :
    br.run b = [b] := by
  apply run_of_ne
  rintro rfl
  cases h

theorem isLineEnding_of_mem_bytes (h : c ∈ br.bytes) : isLineEnding c = true := by
  cases br with
  | lineFeed => rw [List.mem_singleton.mp h]; rfl
  | carriageReturn => rw [List.mem_singleton.mp h]; rfl
  | both =>
    obtain rfl | h := List.mem_cons.mp h
    · rfl
    · rw [List.mem_singleton.mp h]; rfl

/-- A line break is written for a line feed, and nothing else is changed. -/
theorem mem_run (h : c ∈ br.run b) :
    c = b ∨ isLineEnding b = true ∧ isLineEnding c = true := by
  by_cases hb : b = Delimited.lineFeed
  · subst hb
    rw [run_lineFeed] at h
    exact .inr ⟨rfl, isLineEnding_of_mem_bytes h⟩
  · rw [run_of_ne br hb] at h
    exact .inl (List.mem_singleton.mp h)

theorem convert_of_notMem (br : LineBreak) (h : Delimited.lineFeed ∉ text) :
    br.convert text = text := by
  unfold convert
  induction text with
  | nil => rfl
  | cons b text ih =>
    rw [List.flatMap_cons, run_of_ne br (List.ne_of_not_mem_cons h).symm,
      ih (List.not_mem_of_not_mem_cons h)]
    rfl

/-- No line feed is left where carriage returns are written. -/
theorem lineFeed_notMem_convert (text : List UInt8) :
    Delimited.lineFeed ∉ convert .carriageReturn text := by
  intro h
  obtain ⟨b, -, hrun⟩ := List.mem_flatMap.mp h
  by_cases hb : b = Delimited.lineFeed
  · subst hb
    exact absurd hrun (by decide)
  · rw [run_of_ne _ hb] at hrun
    exact hb (List.mem_singleton.mp hrun).symm

/-- A delimiter ends a field as before, where no carriage return was in the text. -/
theorem closing_run (hd : d.validate = .ok ()) (hb : d.isPlain b = false)
    (hcr : Delimited.carriageReturn ∉ b :: text) :
    Grammar.closing d (br.run b ++ br.convert text) =
      ((Grammar.closing d (b :: text)).1, br.convert (Grammar.closing d (b :: text)).2) := by
  by_cases hlf : b = Delimited.lineFeed
  · subst hlf
    have hsingle : Grammar.closing d (Delimited.lineFeed :: text) = (.record, text) :=
      Grammar.closing_lineBreak hd fun hpair : LineBreak.lineFeed = .carriageReturn ∧ _ ↦
        nomatch hpair.1
    rw [run_lineFeed, hsingle, Grammar.closing_lineBreak hd]
    rintro ⟨rfl, hhead⟩
    exact lineFeed_notMem_convert text (List.mem_of_mem_head? hhead)
  · obtain rfl | hline := Dialect.eq_separator_or_isLineEnding hb
    · rw [run_of_ne br hlf, List.singleton_append, Grammar.closing_separator,
        Grammar.closing_separator]
    · have hreturn : b ≠ Delimited.carriageReturn := (List.ne_of_not_mem_cons hcr).symm
      simp [isLineEnding, hlf, hreturn] at hline

/-- The conversion of texts without a carriage return. -/
def transcription (br : LineBreak) (hd : d.validate = .ok ()) : Transcription d d where
  run := br.run
  Covers b := b ≠ Delimited.carriageReturn
  skipBlankLines := rfl
  run_ne_nil b := by
    by_cases hb : b = Delimited.lineFeed
    · rw [hb, run_lineFeed]
      cases br <;> exact List.cons_ne_nil _ _
    · rw [run_of_ne br hb]
      exact List.cons_ne_nil _ _
  run_quote := br.run_of_isLineEnding_eq_false ((Dialect.validate_eq_ok_iff d).mp hd).2.1
  quote_notMem_run {b} _ hb hmem := by
    obtain heq | ⟨-, hquote⟩ := mem_run hmem
    · exact hb heq.symm
    · exact Dialect.ne_quote_of_isLineEnding hd hquote rfl
  isPlain_of_mem_run {b c} _ hmem := by
    obtain rfl | ⟨hb, hc⟩ := mem_run hmem
    · rfl
    · rw [Dialect.isPlain_of_isLineEnding hb, Dialect.isPlain_of_isLineEnding hc]
  isLineEnding_of_mem_run {b c} _ hmem := by
    obtain rfl | ⟨hb, hc⟩ := mem_run hmem
    · rfl
    · rw [hb, hc]
  closing_run hb hcovers := closing_run hd hb fun hcr ↦ hcovers _ hcr rfl

end LineBreak

/-- A field that does not begin with a quote has no line feed in it. -/
theorem Grammar.lineFeed_notMem_value {text : List UInt8} (h : text.head? ≠ some d.quote) :
    lineFeed ∉ (field d text).value := by
  cases text with
  | nil => exact List.not_mem_nil
  | cons b text =>
    have hb : b ≠ d.quote := fun hb ↦ h (congrArg some hb)
    rw [field, if_neg hb]
    intro hmem
    have hplain := List.mem_takeWhile_imp hmem
    rw [Dialect.isPlain_of_isLineEnding rfl] at hplain
    cases hplain

/-- A text without carriage returns may have its line feeds converted, whatever else is in it. The
rows and fields of the converted text are those of the text, and each field is converted. Only in
quotes does that change a field. -/
theorem rows_of_converted_line_feeds (alloc : Allocator) (d : Dialect) (br : LineBreak)
    (text : List UInt8) (hg : alloc.GrantsFor (br.convert text).length) (hd : d.validate = .ok ())
    (hcr : carriageReturn ∉ text) (hfits : (br.convert text).length < memoryLimit) :
    (∃ rows, parseRows alloc text d = .ok rows ∧
        parseRows alloc (br.convert text) d = .ok (rows.map (List.map br.convert))) ∧
      ∀ front, front.head? ≠ some d.quote →
        br.convert (Grammar.field d front).value = (Grammar.field d front).value := by
  have hcovers : (br.transcription hd).CoversAll text := by
    rintro b hb rfl
    exact hcr hb
  have hlength : text.length ≤ (br.convert text).length :=
    (br.transcription hd).length_le_length_apply text
  constructor
  · refine ⟨_, parseRows_eq_table (hg.mono hlength) hd (by omega), ?_⟩
    rw [parseRows_eq_table hg hd hfits]
    exact congrArg _ (Transcription.table_apply hcovers)
  · exact fun front hfront ↦ br.convert_of_notMem (Grammar.lineFeed_notMem_value hfront)

/-- A line feed in quotes, bytes behind the closing quote, a blank line that is skipped, and a quote
that is not closed. -/
theorem rows_of_converted_line_feeds_in_quotes :
    let text : List UInt8 := [34, 120, 10, 34, 121, 10, 10, 97, 44, 34, 10, 98]
    let converted : List UInt8 := [34, 120, 13, 10, 34, 121, 13, 10, 13, 10, 97, 44, 34, 13, 10, 98]
    LineBreak.both.convert text = converted ∧
      parseRows .unlimited text { skipBlankLines := true } = .ok [[[120, 10]], [[97], [10, 98]]] ∧
      parseRows .unlimited converted { skipBlankLines := true } =
        .ok [[[120, 13, 10]], [[97], [13, 10, 98]]] := by
  intro text converted
  obtain ⟨⟨rows, hrows, hconverted⟩, -⟩ := rows_of_converted_line_feeds .unlimited
    { skipBlankLines := true } .both text (Allocator.grantsFor_unlimited _) rfl (by decide)
    (by decide)
  have hparse : parseRows .unlimited text { skipBlankLines := true } =
      .ok [[[120, 10]], [[97], [10, 98]]] := by
    rw [parseRows_eq_table (Allocator.grantsFor_unlimited _) rfl (by decide)]
    exact congrArg Except.ok (by decide +kernel)
  rw [hparse] at hrows
  cases hrows
  exact ⟨rfl, hparse, hconverted⟩

end Delimited
