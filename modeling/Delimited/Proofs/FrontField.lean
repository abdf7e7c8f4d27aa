import Delimited.Proofs.FieldScan
import Delimited.Proofs.Writing

/-!
# The field in front of a text

What a text looks like that has a field in front, told by its parts. There are three kinds of
fields: without quotes around them, in quotes, and in quotes that are never closed. Every text has
just one field in front in every dialect, however ambiguous, and a scan gives that field.
-/

namespace Delimited

variable {d : Dialect} {text consumed value delimiter rest : List UInt8} {boundary : Boundary}

namespace Grammar

/-- The bytes are a delimiter with the rest behind it, and end the field in this way. The separator
is one even where it is the byte of a line ending, and the end of the text is one of no bytes. -/
inductive Closes (d : Dialect) : List UInt8 → Boundary → List UInt8 → Prop where
  | atEnd : Closes d [] .record []
  | separator (rest : List UInt8) : Closes d [d.separator] .field rest
  | lineFeed (rest : List UInt8) (h : lineFeed ≠ d.separator) : Closes d [lineFeed] .record rest
  | carriageReturn {rest : List UInt8} (h : carriageReturn ≠ d.separator)
      (halone : rest.head? ≠ some lineFeed) : Closes d [carriageReturn] .record rest
  | both (rest : List UInt8) (h : carriageReturn ≠ d.separator) :
      Closes d [carriageReturn, lineFeed] .record rest

/-- The consumed bytes are those of a field with this value and of the delimiter that closes it,
with the rest behind them. -/
inductive Front (d : Dialect) :
    (consumed value : List UInt8) → Boundary → (rest : List UInt8) → Prop where
  | bare {value delimiter rest : List UInt8} {boundary : Boundary}
      (hplain : ∀ b ∈ value, d.isPlain b = true)
      (hquote : (value ++ (delimiter ++ rest)).head? ≠ some d.quote)
      (hcloses : Closes d delimiter boundary rest) :
      Front d (value ++ delimiter) value boundary rest
  | quoted (value : List UInt8) {dropped delimiter rest : List UInt8} {boundary : Boundary}
      (hplain : ∀ b ∈ dropped, d.isPlain b = true)
      (halone : (dropped ++ (delimiter ++ rest)).head? ≠ some d.quote)
      (hcloses : Closes d delimiter boundary rest) :
      Front d
        (d.quote :: (WrittenField.doubled d.quote value ++ d.quote :: (dropped ++ delimiter)))
        value boundary rest
  | unclosed (value : List UInt8) :
      Front d (d.quote :: WrittenField.doubled d.quote value) value .record []

theorem Closes.closing_eq (h : Closes d delimiter boundary rest) :
    closing d (delimiter ++ rest) = (boundary, rest) := by
  cases h with
  | atEnd => rfl
  | separator => exact closing_separator d rest
  | lineFeed rest h => exact closing_of_lineFeed (by simp [Dialect.delimiter?, h])
  | carriageReturn h halone => simp [closing, h, halone]
  | both rest h => simp [closing, h]

theorem Closes.delimits (h : Closes d delimiter boundary rest) :
    Delimits d (delimiter ++ rest) := by
  cases h with
  | atEnd => exact delimits_nil
  | separator => exact delimits_separator rest
  | lineFeed => exact delimits_lineBreak .lineFeed rest
  | carriageReturn => exact delimits_lineBreak .carriageReturn rest
  | both => exact delimits_lineBreak .both rest

/-- A text that begins with a delimiter, or is over, divides into the delimiter and the rest. -/
theorem exists_closes (h : Delimits d text) :
    ∃ delimiter boundary rest, text = delimiter ++ rest ∧ Closes d delimiter boundary rest := by
  cases text with
  | nil => exact ⟨[], .record, [], rfl, .atEnd⟩
  | cons b rest =>
    by_cases hs : b = d.separator
    · subst hs
      exact ⟨_, _, rest, rfl, .separator rest⟩
    have hb : isLineEnding b = true := by
      have hdelimits : d.isPlain b = false := h b rfl
      simpa [Dialect.isPlain, hs] using hdelimits
    obtain rfl | rfl : b = lineFeed ∨ b = carriageReturn := by simpa [isLineEnding] using hb
    · exact ⟨_, _, rest, rfl, .lineFeed rest hs⟩
    · by_cases hl : rest.head? = some lineFeed
      · obtain ⟨behind, rfl⟩ := List.head?_eq_some_iff.mp hl
        exact ⟨_, _, behind, rfl, .both behind hs⟩
      · exact ⟨_, _, rest, rfl, .carriageReturn hs hl⟩

/-- Every text has a first delimiter. -/
theorem exists_first_closes (d : Dialect) (text : List UInt8) :
    ∃ plain delimiter boundary rest, text = plain ++ (delimiter ++ rest) ∧
      (∀ b ∈ plain, d.isPlain b = true) ∧ Closes d delimiter boundary rest := by
  obtain ⟨delimiter, boundary, rest, hdrop, hcloses⟩ :=
    exists_closes (delimits_dropWhile d text)
  refine ⟨text.takeWhile d.isPlain, delimiter, boundary, rest, ?_, ?_, hcloses⟩
  · rw [← hdrop, List.takeWhile_append_dropWhile]
  · intro b hb
    exact List.all_eq_true.mp List.all_takeWhile b hb

end Grammar

namespace WrittenField

@[simp] theorem doubled_quote (quote : UInt8) (value : List UInt8) :
    doubled quote (quote :: value) = quote :: quote :: doubled quote value := by
  simp [doubled]

theorem doubled_of_ne {quote b : UInt8} (h : b ≠ quote) (value : List UInt8) :
    doubled quote (b :: value) = b :: doubled quote value := by
  simp [doubled, h]

end WrittenField

namespace Grammar

open WrittenField

/-- A text is a value with its quotes doubled, and then the closing quote if there is one. -/
theorem eq_doubled_append (quote : UInt8) (text : List UInt8) :
    text = doubled quote (quoted quote text).1 ++
      ((quoted quote text).2.map (quote :: ·)).getD [] := by
  fun_induction quoted quote text with
  | case1 => rfl
  | case2 => rfl
  | case3 behind ih => simpa [prepend] using ih
  | case4 => rfl
  | case5 b text hb ih => simpa [prepend, doubled_of_ne hb] using ih

/-- The closing quote stands alone. -/
theorem head?_ne_of_quoted {quote : UInt8} {text behind : List UInt8}
    (h : (quoted quote text).2 = some behind) : behind.head? ≠ some quote := by
  fun_induction quoted quote text with
  | case1 => cases h
  | case2 =>
    cases h
    exact (Option.some_ne_none quote).symm
  | case3 behind ih => exact ih h
  | case4 c behind hc =>
    cases h
    simpa using hc
  | case5 b text hb ih => exact ih h

/-- A value whose quotes are all doubled is not closed by any of them. -/
theorem quoted_of_unclosed (quote : UInt8) (value : List UInt8) :
    quoted quote (doubled quote value) = (value, none) := by
  induction value with
  | nil => rfl
  | cons b value ih =>
    by_cases hb : b = quote
    · subst hb
      rw [doubled_quote, quoted_pair, ih]
      rfl
    · rw [doubled_of_ne hb, quoted_of_ne hb, ih]
      rfl

/-- The field in front is the one that is told by its parts. -/
theorem Front.field_eq (h : Front d consumed value boundary rest) :
    (field d (consumed ++ rest)).value = value ∧
      (field d (consumed ++ rest)).boundary = boundary ∧
        (field d (consumed ++ rest)).rest = rest := by
  cases h with
  | bare hplain hquote hcloses =>
    rw [List.append_assoc, field_of_bare hplain hquote hcloses.delimits, closed,
      hcloses.closing_eq]
    exact ⟨rfl, rfl, rfl⟩
  | quoted _ hplain halone hcloses =>
    have hfield := field_of_quoted value hplain halone hcloses.delimits
    rw [closed, hcloses.closing_eq] at hfield
    rw [List.cons_append, List.append_assoc, List.cons_append, List.append_assoc, hfield]
    exact ⟨rfl, rfl, rfl⟩
  | unclosed =>
    rw [List.append_nil, field, if_pos rfl, quoted_of_unclosed]
    exact ⟨rfl, rfl, rfl⟩

/-- Every text has a field in front. -/
theorem exists_front (d : Dialect) (text : List UInt8) :
    ∃ consumed value boundary rest,
      text = consumed ++ rest ∧ Front d consumed value boundary rest := by
  by_cases hquote : text.head? = some d.quote
  · obtain ⟨inner, rfl⟩ := List.head?_eq_some_iff.mp hquote
    have hinner := eq_doubled_append d.quote inner
    cases hbehind : (quoted d.quote inner).2 with
    | none =>
      rw [hbehind, Option.map_none, Option.getD_none, List.append_nil] at hinner
      refine ⟨_, _, _, _, ?_, .unclosed (quoted d.quote inner).1⟩
      rw [List.append_nil, ← hinner]
    | some behind =>
      rw [hbehind, Option.map_some, Option.getD_some] at hinner
      have halone := head?_ne_of_quoted hbehind
      obtain ⟨dropped, delimiter, boundary, rest, rfl, hplain, hcloses⟩ :=
        exists_first_closes d behind
      refine ⟨_, _, boundary, rest, ?_, .quoted (quoted d.quote inner).1 hplain halone hcloses⟩
      rw [List.cons_append, List.append_assoc, List.cons_append, List.append_assoc, ← hinner]
  · obtain ⟨value, delimiter, boundary, rest, rfl, hplain, hcloses⟩ := exists_first_closes d text
    exact ⟨_, value, boundary, rest, (List.append_assoc _ _ _).symm, .bare hplain hquote hcloses⟩

end Grammar

namespace Scanner

/-- A scan is exact in every dialect, and whatever the field buffer held before. The text before a
scanner has a field in front, and if memory is granted and the field is one that memory can hold,
the scan gives its value and how it ends, and consumes its bytes and no others. -/
theorem readField_gives_front {σ ε : Type} [Source σ ε] {alloc : Allocator} {s : Scanner σ}
    (h : s.At d text (.done : Ending ε)) :
    (∃ consumed value boundary rest,
      text = consumed ++ rest ∧ Grammar.Front d consumed value boundary rest) ∧
    ∀ consumed value boundary rest, text = consumed ++ rest →
      Grammar.Front d consumed value boundary rest → alloc.GrantsFor value.length →
      value.length ≤ memoryLimit →
        ∃ t, readField alloc s = .ok boundary t ∧ t.field.toList = value ∧
          t.At d rest (.done : Ending ε) := by
  refine ⟨Grammar.exists_front d text, ?_⟩
  rintro consumed value boundary rest rfl hfront hg hfits
  obtain ⟨hvalue, hboundary, hrest⟩ := hfront.field_eq
  have hyields := yields_readField (by rwa [hvalue]) h (by rwa [hvalue])
  obtain ⟨boundary', t, hread, hat, hboundary', hvalue', -⟩ := hyields.ok (.inr rfl)
  refine ⟨t, ?_, hvalue'.trans hvalue, hrest ▸ hat⟩
  rw [hread, hboundary', hboundary]

/-- A carriage return that is the separator ends a field alone, though a line feed is behind it. -/
theorem readField_gives_front_of_ambiguous :
    let d : Dialect := { separator := 13 }
    let s : Scanner ListSource :=
      { dialect := d, source := some ⟨[97, 34, 34, 98, 34, 120, 13, 10]⟩, ahead := some 34,
        field := { storage := some { slots := #[1, 2], room := 2 }, length := 2, capacity := 2 } }
    ∃ t, readField .unlimited s = .ok .field t ∧ t.field.toList = [97, 34, 98] ∧
      t.At d [10] .done := by
  intro d s
  have hat : s.At d [34, 97, 34, 34, 98, 34, 120, 13, 10] .done :=
    ⟨⟨rfl, rfl⟩, rfl, _, rfl, ListSource.gives _⟩
  have hfront : Grammar.Front d [34, 97, 34, 34, 98, 34, 120, 13] [97, 34, 98] .field [10] :=
    .quoted [97, 34, 98] (List.forall_mem_singleton.2 (by decide)) (by decide) (.separator [10])
  exact (readField_gives_front hat).2 _ _ _ _ rfl hfront (Allocator.grantsFor_unlimited _)
    (by decide)

end Scanner
end Delimited
