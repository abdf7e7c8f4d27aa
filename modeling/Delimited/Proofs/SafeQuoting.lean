import Delimited.Proofs.Splitting
import Delimited.Proofs.Writing

/-!
# Where quoting is safe

Quotes around every field keep a table apart from the bytes that structure it, provided that the
dialect is usable. In every other dialect there is a table, of one row with at most two empty
fields, that comes back changed.
-/

namespace Delimited

variable {d : Dialect}

/-- Every line ending is a line break of its own. -/
theorem LineBreak.exists_bytes_eq {b : UInt8} (h : isLineEnding b = true) :
    ∃ br : LineBreak, br.bytes = [b] := by
  obtain rfl | rfl : b = Delimited.lineFeed ∨ b = Delimited.carriageReturn := by
    simpa [isLineEnding] using h
  · exact ⟨.lineFeed, rfl⟩
  · exact ⟨.carriageReturn, rfl⟩

namespace Grammar

/-- Nothing is skipped in front of a byte that is not a line ending. -/
theorem recordStart_cons {b : UInt8} (h : isLineEnding b = false) (text : List UInt8) :
    recordStart d (b :: text) = b :: text := by
  unfold recordStart
  split
  · rw [List.dropWhile_cons_of_neg (by simp [h])]
  · rfl

/-- A text that is taken up by its first row has no other. -/
theorem table_of_behindRow_eq_nil {text : List UInt8} (hstart : recordStart d text = text)
    (hne : text ≠ []) (hbehind : behindRow d text = []) : table d text = [values d text] := by
  unfold table
  rw [starts_of_ne_nil (by rwa [hstart]), hstart, hbehind, starts_nil]
  rfl

/-- A quote that is never closed makes all the text behind it one field. -/
theorem table_of_unclosed {text value : List UInt8}
    (hstart : recordStart d (d.quote :: text) = d.quote :: text)
    (h : quoted d.quote text = (value, none)) : table d (d.quote :: text) = [[value]] := by
  have hfield : field d (d.quote :: text) =
      { value, unclosed := true, boundary := .record, rest := [] } := by
    rw [field, if_pos rfl, h]
    rfl
  have hboundary : (field d (d.quote :: text)).boundary = .record := by rw [hfield]
  have hbehind : behindRow d (d.quote :: text) = [] := by
    rw [behindRow_of_record hboundary, hfield]
  rw [table_of_behindRow_eq_nil hstart (List.cons_ne_nil _ _) hbehind, values,
    row_of_record hboundary, hfield]
  rfl

end Grammar

/-- Every table with fields in all its rows, written in quotes with any of the line breaks, is read
off what is written, if that is no longer than six bytes. -/
def Dialect.QuotesSafely (d : Dialect) : Prop :=
  ∀ (table : List (List (List UInt8))) (br : LineBreak), (∀ row ∈ table, row ≠ []) →
    ((Writing.quoting br table).bytes d).length ≤ 6 →
      Grammar.table d ((Writing.quoting br table).bytes d) = table

namespace Dialect.QuotesSafely

/-- The row of one empty field, with a line break of one byte. -/
theorem table_of_isLineEnding (h : d.QuotesSafely) {b : UInt8} (hb : isLineEnding b = true) :
    Grammar.table d [d.quote, d.quote, b] = [[[]]] := by
  obtain ⟨br, hbr⟩ := LineBreak.exists_bytes_eq hb
  have htext : (Writing.quoting br [[[]]]).bytes d = [d.quote, d.quote, b] := by
    show [d.quote, d.quote] ++ br.bytes ++ [] ++ [] = _
    rw [hbr]
    rfl
  have hsame := h [[[]]] br (by simp) (by rw [htext]; exact (by decide : 3 ≤ 6))
  rwa [htext] at hsame

/-- A line break that begins with a quote is taken for a part of the field before it, or skipped
with the whole row. -/
theorem isLineEnding_quote (h : d.QuotesSafely) : isLineEnding d.quote = false := by
  by_contra hquote
  rw [Bool.not_eq_false] at hquote
  have hsame := h.table_of_isLineEnding hquote
  -- The row is three quotes now, and they count as line endings first wherever those are skipped.
  by_cases hskip : d.skipBlankLines = true
  · have hstart : Grammar.recordStart d [d.quote, d.quote, d.quote] = [] := by
      simp [Grammar.recordStart, hskip, hquote]
    rw [Grammar.table, Grammar.starts_of_eq_nil hstart] at hsame
    cases hsame
  · have hstart : Grammar.recordStart d [d.quote, d.quote, d.quote] =
        [d.quote, d.quote, d.quote] := if_neg hskip
    rw [Grammar.table_of_unclosed hstart (Grammar.quoted_pair _ _)] at hsame
    cases hsame

/-- Behind a line break that is a separator too there is one more field. -/
theorem isLineEnding_separator (h : d.QuotesSafely) : isLineEnding d.separator = false := by
  by_contra hseparator
  rw [Bool.not_eq_false] at hseparator
  have hsame := h.table_of_isLineEnding hseparator
  have hquote := h.isLineEnding_quote
  have hne : d.separator ≠ d.quote := by
    intro heq
    rw [heq, hquote] at hseparator
    cases hseparator
  have hfield : Grammar.field d [d.quote, d.quote, d.separator] =
      { value := [], boundary := .field, rest := [] } := by
    have hplain : d.isPlain d.separator = false := by simp [isPlain]
    rw [Grammar.field, if_pos rfl, Grammar.quoted_of_head? (by simpa using hne)]
    simp [Grammar.ofQuoted, Grammar.closed, hplain, Grammar.closing_separator]
  have hboundary : (Grammar.field d [d.quote, d.quote, d.separator]).boundary = .field := by
    rw [hfield]
  have hbehind : Grammar.behindRow d [d.quote, d.quote, d.separator] = [] := by
    rw [Grammar.behindRow_of_field hboundary, hfield, Grammar.behindRow_nil]
  rw [Grammar.table_of_behindRow_eq_nil (Grammar.recordStart_cons hquote _) (by simp) hbehind,
    Grammar.values, Grammar.row_of_field hboundary, hfield, Grammar.row_of_record rfl] at hsame
  cases hsame

/-- Where the separator is the quote, one that stands between quoted fields makes a pair with the
quote before it. -/
theorem separator_ne_quote (h : d.QuotesSafely) : d.separator ≠ d.quote := by
  intro heq
  have htext : (Writing.quoting .lineFeed [[[], []]]).bytes d =
      [d.quote, d.quote, d.quote, d.quote, d.quote, lineFeed] := by
    show [d.quote, d.quote, d.separator, d.quote, d.quote, lineFeed] = _
    rw [heq]
  have hsame := h [[[], []]] .lineFeed (by simp) (by rw [htext]; exact (by decide : 6 ≤ 6))
  have hquote := h.isLineEnding_quote
  have hfeed : lineFeed ≠ d.quote := by
    intro hfeed
    rw [← hfeed] at hquote
    cases hquote
  have hquoted : Grammar.quoted d.quote [d.quote, d.quote, d.quote, d.quote, lineFeed] =
      ([d.quote, d.quote, lineFeed], none) := by
    rw [Grammar.quoted_pair, Grammar.quoted_pair, Grammar.quoted_of_ne hfeed]
    rfl
  rw [htext, Grammar.table_of_unclosed (Grammar.recordStart_cons hquote _) hquoted] at hsame
  cases hsame

end Dialect.QuotesSafely

/-- A dialect is accepted if and only if quoting is safe in it: whatever table is written with
quotes around every field and any of the line breaks behind every row, splitting what is written
gives the table. Where it is not safe, six bytes are enough to show it. -/
theorem validate_eq_ok_iff_quoting_is_safe (alloc : Allocator) (hsix : alloc.GrantsFor 6)
    (d : Dialect) :
    d.validate = .ok () ↔
      ∀ (table : List (List (List UInt8))) (br : LineBreak), (∀ row ∈ table, row ≠ []) →
        alloc.GrantsFor ((Writing.quoting br table).bytes d).length →
          ((Writing.quoting br table).bytes d).length < memoryLimit →
            splitRows alloc ((Writing.quoting br table).bytes d) d = .ok table := by
  constructor
  · intro hd table br hrows hg hfits
    rw [splitRows_eq_table hg d hfits,
      Writing.table_bytes hd (Writing.permitted_quoting d br table),
      Writing.table_quoting br hrows]
  · intro h
    have hsafe : d.QuotesSafely := by
      intro table br hrows hlength
      have hg := hsix.mono hlength
      have hfits := Nat.lt_of_le_of_lt hlength (by decide : 6 < memoryLimit)
      have hsplit := h table br hrows hg hfits
      rw [splitRows_eq_table hg d hfits] at hsplit
      exact Except.ok.inj hsplit
    exact (Dialect.validate_eq_ok_iff d).mpr
      ⟨hsafe.isLineEnding_separator, hsafe.isLineEnding_quote, hsafe.separator_ne_quote⟩

/-- Semicolon and apostrophe are accepted, and semicolon twice is not: two empty fields come back as
one. -/
theorem validate_eq_ok_iff_quoting_is_safe_of_semicolon :
    splitRows .unlimited [39, 59, 39, 59, 39, 39, 39, 39, 13, 39, 39, 13]
        { separator := 59, quote := 39 } = .ok [[[59], [39]], [[]]] ∧
      ¬ ∀ (table : List (List (List UInt8))) (br : LineBreak), (∀ row ∈ table, row ≠ []) →
        Allocator.GrantsFor .unlimited
            ((Writing.quoting br table).bytes { separator := 59, quote := 59 }).length →
          ((Writing.quoting br table).bytes { separator := 59, quote := 59 }).length <
              memoryLimit →
            splitRows .unlimited ((Writing.quoting br table).bytes { separator := 59, quote := 59 })
              { separator := 59, quote := 59 } = .ok table := by
  constructor
  · exact (validate_eq_ok_iff_quoting_is_safe .unlimited (Allocator.grantsFor_unlimited _)
      { separator := 59, quote := 39 }).mp rfl [[[59], [39]], [[]]] .carriageReturn (by simp)
      (Allocator.grantsFor_unlimited _) (by decide)
  · intro h
    have haccepted := (validate_eq_ok_iff_quoting_is_safe .unlimited
      (Allocator.grantsFor_unlimited _) { separator := 59, quote := 59 }).mpr h
    cases haccepted

end Delimited
