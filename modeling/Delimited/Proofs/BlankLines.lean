import Delimited.Proofs.Grammar

/-!
# Blank lines

Whether blank lines are skipped makes no difference to what a field or a row is. The rows of a text
are the same with and without them, except for those that begin with a line ending.
-/

namespace Delimited

/-- The same dialect, except that blank lines are rows. -/
def Dialect.keepBlankLines (d : Dialect) : Dialect := { d with skipBlankLines := false }

theorem Dialect.keepBlankLines_of_eq_false {d : Dialect} (h : d.skipBlankLines = false) :
    d.keepBlankLines = d := by
  unfold keepBlankLines
  rw [← h]

/-- A dialect is usable whatever becomes of blank lines. -/
theorem Dialect.validate_keepBlankLines (d : Dialect) :
    d.keepBlankLines.validate = d.validate := rfl

namespace Grammar

variable {d : Dialect}

/-- Whether the row in front of the text is a blank line. -/
def isBlank (text : List UInt8) : Bool := text.head?.any isLineEnding

@[simp] theorem field_keepBlankLines (d : Dialect) (text : List UInt8) :
    field d.keepBlankLines text = field d text := by
  cases text <;> rfl

@[simp] theorem row_keepBlankLines (d : Dialect) (text : List UInt8) :
    row d.keepBlankLines text = row d text := by
  fun_induction row d text with
  | case1 text hb => rw [row_of_record (by rwa [field_keepBlankLines]), field_keepBlankLines]
  | case2 text hb ih => rw [row_of_field (by rwa [field_keepBlankLines]), field_keepBlankLines, ih]

@[simp] theorem behindRow_keepBlankLines (d : Dialect) (text : List UInt8) :
    behindRow d.keepBlankLines text = behindRow d text := by
  fun_induction behindRow d text with
  | case1 text hb => rw [behindRow_of_record (by rwa [field_keepBlankLines]), field_keepBlankLines]
  | case2 text hb ih =>
    rw [behindRow_of_field (by rwa [field_keepBlankLines]), field_keepBlankLines, ih]

/-- The values of a row do not depend on what becomes of blank lines. -/
@[simp] theorem values_keepBlankLines (d : Dialect) (text : List UInt8) :
    values d.keepBlankLines text = values d text :=
  congrArg _ (row_keepBlankLines d text)

/-- Rows begin anywhere where blank lines are kept. -/
@[simp] theorem recordStart_keepBlankLines (d : Dialect) (text : List UInt8) :
    recordStart d.keepBlankLines text = text := rfl

theorem starts_congr {text other : List UInt8} (h : recordStart d text = recordStart d other) :
    starts d text = starts d other := by
  by_cases hs : recordStart d text = []
  · rw [starts_of_eq_nil hs, starts_of_eq_nil (h ▸ hs)]
  · rw [starts_of_ne_nil hs, h]
    rw [h] at hs
    exact (starts_of_ne_nil hs).symm

/-- A field that begins with a line ending is over with it. -/
theorem field_of_isLineEnding (hd : d.validate = .ok ()) {b : UInt8} (hb : isLineEnding b = true)
    (text : List UInt8) :
    field d (b :: text) =
      { value := []
        boundary := .record
        rest := if b = carriageReturn ∧ text.head? = some lineFeed then text.tail else text } := by
  have hs : b ≠ d.separator := Dialect.ne_separator_of_isLineEnding hd hb
  have hq : b ≠ d.quote := Dialect.ne_quote_of_isLineEnding hd hb
  have hplain : ¬ d.isPlain b = true := by simp [Dialect.isPlain, hb]
  rw [field, if_neg hq, List.takeWhile_cons_of_neg hplain, List.dropWhile_cons_of_neg hplain,
    closed, closing, if_neg hs]
  split <;> rfl

/-- A row that begins with a line ending is over with it. -/
theorem behindRow_of_isLineEnding (hd : d.validate = .ok ()) {b : UInt8}
    (hb : isLineEnding b = true) (text : List UInt8) :
    behindRow d (b :: text) =
      if b = carriageReturn ∧ text.head? = some lineFeed then text.tail else text := by
  have hfield := field_of_isLineEnding hd hb text
  rw [behindRow_of_record (by rw [hfield]), hfield]

/-- A row that begins with a line ending has nothing but an empty field. -/
theorem values_of_isLineEnding (hd : d.validate = .ok ()) {b : UInt8} (hb : isLineEnding b = true)
    (text : List UInt8) : values d (b :: text) = [[]] := by
  have hfield := field_of_isLineEnding hd hb text
  rw [values, row_of_record (by rw [hfield]), hfield]
  rfl

theorem dropWhile_behindRow_of_isBlank (hd : d.validate = .ok ()) {text : List UInt8}
    (h : isBlank text = true) :
    (behindRow d text).dropWhile isLineEnding = text.dropWhile isLineEnding := by
  cases text with
  | nil => cases h
  | cons b text =>
    have hb : isLineEnding b = true := h
    rw [behindRow_of_isLineEnding hd hb, List.dropWhile_cons_of_pos hb]
    split
    · next hreturn =>
      obtain ⟨rest, rfl⟩ := List.head?_eq_some_iff.mp hreturn.2
      exact (List.dropWhile_cons_of_pos rfl).symm
    · rfl

/-- Skipping blank lines leaves out the rows that begin with a line ending, and no others. -/
theorem starts_of_skipBlankLines (hd : d.validate = .ok ()) (hskip : d.skipBlankLines = true)
    (text : List UInt8) :
    starts d text = (starts d.keepBlankLines text).filter fun start ↦ !isBlank start := by
  have hstart (text : List UInt8) : recordStart d text = text.dropWhile isLineEnding := by
    rw [recordStart, if_pos hskip]
  fun_induction starts d.keepBlankLines text with
  | case1 text hnil =>
    rw [recordStart_keepBlankLines] at hnil
    rw [hnil, starts_nil, List.filter_nil]
  | case2 text hne ih =>
    rw [recordStart_keepBlankLines] at hne ih ⊢
    rw [behindRow_keepBlankLines] at ih ⊢
    by_cases hblank : isBlank text = true
    -- Behind a blank line there is the same row to be found as in front of it.
    · rw [List.filter_cons_of_neg (by simp [hblank]), ← ih]
      apply starts_congr
      rw [hstart, hstart, dropWhile_behindRow_of_isBlank hd hblank]
    · have hself : recordStart d text = text := by
        obtain ⟨b, rest, rfl⟩ := List.exists_cons_of_ne_nil hne
        rw [hstart]
        exact List.dropWhile_cons_of_neg hblank
      rw [List.filter_cons_of_pos (by simp [hblank]), ← ih,
        starts_of_ne_nil (by rwa [hself]), hself]

end Grammar
end Delimited
