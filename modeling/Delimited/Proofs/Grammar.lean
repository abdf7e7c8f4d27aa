import Delimited.Journal
import Delimited.Scan.Scanner

/-!
# The grammar of delimited text

How a text divides into rows and fields, read off the text itself: there are no phases, no byte in
view, and nothing is read twice. It is the same for usable and for ambiguous dialects, since a byte
counts as a separator before it counts as a line ending.
-/

namespace Delimited

/-- Whether the byte is content where it has no quotes around it. -/
def Dialect.isPlain (d : Dialect) (b : UInt8) : Bool := !(b == d.separator || isLineEnding b)

theorem Dialect.ne_separator_of_isLineEnding {d : Dialect} (hd : d.validate = .ok ()) {b : UInt8}
    (hb : isLineEnding b = true) : b ≠ d.separator := by
  rintro rfl
  rw [((validate_eq_ok_iff d).mp hd).1] at hb
  cases hb

theorem Dialect.ne_quote_of_isLineEnding {d : Dialect} (hd : d.validate = .ok ()) {b : UInt8}
    (hb : isLineEnding b = true) : b ≠ d.quote := by
  rintro rfl
  rw [((validate_eq_ok_iff d).mp hd).2.1] at hb
  cases hb

namespace Grammar

/-- The field in front of a text. -/
structure Field where
  value : List UInt8
  /-- The bytes left out between the closing quote and the delimiter. -/
  dropped : List UInt8 := []
  /-- Whether there is an opening quote without a closing one. -/
  unclosed : Bool := false
  boundary : Boundary
  /-- The text behind the delimiter. -/
  rest : List UInt8
  deriving DecidableEq, Repr

/-- What is to be noted of a field. -/
def Field.events (f : Field) : List Event :=
  f.dropped.map .byteDropped ++ if f.unclosed then [.quoteUnterminated f.value.length] else []

/-- One more byte in front of a value. -/
def prepend (b : UInt8) (read : List UInt8 × Option (List UInt8)) :
    List UInt8 × Option (List UInt8) :=
  (b :: read.1, read.2)

/-- The value of a quoted field, from behind its opening quote, and the text behind its closing
quote, if there is one. A pair of quotes is one quote of the value. -/
def quoted (quote : UInt8) : List UInt8 → List UInt8 × Option (List UInt8)
  | [] => ([], none)
  | b :: text =>
    if b = quote then
      match text with
      | [] => ([], some [])
      | c :: behind =>
        if c = quote then prepend quote (quoted quote behind) else ([], some text)
    else prepend b (quoted quote text)

/-- How the delimiter in front ends a field, and the text behind it. A carriage return takes a line
feed right behind it along, and the end of the text ends the record. -/
def closing (d : Dialect) : List UInt8 → Boundary × List UInt8
  | [] => (.record, [])
  | b :: text =>
    if b = d.separator then (.field, text)
    else if b = carriageReturn ∧ text.head? = some lineFeed then (.record, text.tail)
    else (.record, text)

/-- A field that the delimiter in front of a text closes. -/
def closed (d : Dialect) (value dropped text : List UInt8) : Field :=
  let close := closing d text
  { value, dropped, boundary := close.1, rest := close.2 }

/-- A quoted field, given the text behind its closing quote, if there is one. -/
def ofQuoted (d : Dialect) (value : List UInt8) : Option (List UInt8) → Field
  | none => { value, unclosed := true, boundary := .record, rest := [] }
  | some behind => closed d value (behind.takeWhile d.isPlain) (behind.dropWhile d.isPlain)

/-- The field in front. One that does not begin with a quote goes on to the next delimiter. -/
def field (d : Dialect) : List UInt8 → Field
  | [] => closed d [] [] []
  | b :: text =>
    if b = d.quote then ofQuoted d (quoted d.quote text).1 (quoted d.quote text).2
    else closed d ((b :: text).takeWhile d.isPlain) [] ((b :: text).dropWhile d.isPlain)

theorem quoted_of_ne {quote b : UInt8} (h : b ≠ quote) (text : List UInt8) :
    quoted quote (b :: text) = prepend b (quoted quote text) := by
  rw [quoted.eq_def]
  exact if_neg h

theorem quoted_pair (quote : UInt8) (text : List UInt8) :
    quoted quote (quote :: quote :: text) = prepend quote (quoted quote text) := by
  rw [quoted.eq_def]
  dsimp only
  rw [if_pos rfl, if_pos rfl]

theorem quoted_of_head? {quote : UInt8} {behind : List UInt8} (h : behind.head? ≠ some quote) :
    quoted quote (quote :: behind) = ([], some behind) := by
  rw [quoted.eq_def]
  dsimp only
  rw [if_pos rfl]
  cases behind with
  | nil => rfl
  | cons c behind => exact if_neg fun hc ↦ h (congrArg some hc)

theorem length_quoted {quote : UInt8} {text value behind : List UInt8}
    (h : quoted quote text = (value, some behind)) : behind.length < text.length := by
  fun_induction quoted quote text generalizing value with
  | case1 => cases h
  | case2 =>
    cases h
    exact Nat.lt_succ_self _
  | case3 _ ih =>
    obtain ⟨-, hr⟩ := Prod.mk.inj h
    have := ih (Prod.ext rfl hr)
    simp only [List.length_cons]
    omega
  | case4 =>
    cases h
    simp only [List.length_cons]
    omega
  | case5 _ _ _ ih =>
    obtain ⟨-, hr⟩ := Prod.mk.inj h
    have := ih (Prod.ext rfl hr)
    simp only [List.length_cons]
    omega

/-- A quoted value is no longer than the text that it is read from. -/
theorem length_quoted_value_le (quote : UInt8) (text : List UInt8) :
    (quoted quote text).1.length ≤ text.length := by
  fun_induction quoted quote text with
  | case1 => exact Nat.le_refl _
  | case2 => exact Nat.zero_le _
  | case3 behind ih =>
    simp only [prepend, List.length_cons]
    omega
  | case4 => exact Nat.zero_le _
  | case5 b text hb ih =>
    simp only [prepend, List.length_cons]
    omega

/-- The end of the text closes a field like a line ending. -/
@[simp] theorem closing_nil (d : Dialect) : closing d [] = (.record, []) := rfl

theorem length_closing_lt (d : Dialect) (b : UInt8) (text : List UInt8) :
    (closing d (b :: text)).2.length < (b :: text).length := by
  rw [closing]
  split
  · exact Nat.lt_succ_self _
  · split
    · rw [List.length_tail, List.length_cons]
      omega
    · exact Nat.lt_succ_self _

theorem length_closing_dropWhile_lt (d : Dialect) (p : UInt8 → Bool) {text : List UInt8}
    (h : text ≠ []) : (closing d (text.dropWhile p)).2.length < text.length := by
  have hle : (text.dropWhile p).length ≤ text.length := (List.dropWhile_sublist p).length_le
  cases hd : text.dropWhile p with
  | nil => exact List.length_pos_iff.mpr h
  | cons b behind =>
    rw [hd] at hle
    exact Nat.lt_of_lt_of_le (length_closing_lt d b behind) hle

@[simp] theorem value_ofQuoted (d : Dialect) (value : List UInt8) (behind : Option (List UInt8)) :
    (ofQuoted d value behind).value = value := by
  cases behind <;> rfl

/-- A field is no longer than the text that it is in front of. -/
theorem length_value_le (d : Dialect) (text : List UInt8) :
    (field d text).value.length ≤ text.length := by
  cases text with
  | nil => exact Nat.le_refl 0
  | cons b text =>
    rw [field]
    split
    · rw [value_ofQuoted]
      exact Nat.le_succ_of_le (length_quoted_value_le d.quote text)
    · exact (List.takeWhile_sublist _).length_le

/-- A field takes at least one byte, unless the text is over. -/
theorem length_field_rest_lt (d : Dialect) {text : List UInt8} (h : text ≠ []) :
    (field d text).rest.length < text.length := by
  obtain ⟨b, text, rfl⟩ := List.exists_cons_of_ne_nil h
  rw [field]
  split
  · cases hq : quoted d.quote text with
    | mk value behind =>
      cases behind with
      | none => exact Nat.succ_pos _
      | some behind =>
        have hlt := length_quoted hq
        show (closing d (behind.dropWhile d.isPlain)).2.length < (b :: text).length
        by_cases hb : behind = []
        · subst hb
          exact Nat.succ_pos _
        · have := length_closing_dropWhile_lt d d.isPlain hb
          rw [List.length_cons]
          omega
  · exact length_closing_dropWhile_lt d d.isPlain h

/-- Only a text with a byte has a field that is not the last of its record. -/
theorem ne_nil_of_boundary_field {d : Dialect} {text : List UInt8}
    (h : (field d text).boundary = .field) : text ≠ [] := by
  intro hn
  rw [hn] at h
  cases h

/-- The fields of the row in front: up to the first that ends the record. -/
def row (d : Dialect) (text : List UInt8) : List Field :=
  match _h : (field d text).boundary with
  | .record => [field d text]
  | .field => field d text :: row d (field d text).rest
termination_by text.length
decreasing_by exact length_field_rest_lt d (ne_nil_of_boundary_field _h)

/-- The text behind the row in front. -/
def behindRow (d : Dialect) (text : List UInt8) : List UInt8 :=
  match _h : (field d text).boundary with
  | .record => (field d text).rest
  | .field => behindRow d (field d text).rest
termination_by text.length
decreasing_by exact length_field_rest_lt d (ne_nil_of_boundary_field _h)

/-- The values in the row in front. -/
def values (d : Dialect) (text : List UInt8) : List (List UInt8) := (row d text).map Field.value

theorem row_of_record {d : Dialect} {text : List UInt8} (h : (field d text).boundary = .record) :
    row d text = [field d text] := by
  rw [row]
  split
  · rfl
  · next h' =>
    rw [h] at h'
    cases h'

theorem row_of_field {d : Dialect} {text : List UInt8} (h : (field d text).boundary = .field) :
    row d text = field d text :: row d (field d text).rest := by
  rw [row]
  split
  · next h' =>
    rw [h] at h'
    cases h'
  · rfl

theorem behindRow_of_record {d : Dialect} {text : List UInt8}
    (h : (field d text).boundary = .record) : behindRow d text = (field d text).rest := by
  rw [behindRow]
  split
  · rfl
  · next h' =>
    rw [h] at h'
    cases h'

theorem behindRow_of_field {d : Dialect} {text : List UInt8}
    (h : (field d text).boundary = .field) :
    behindRow d text = behindRow d (field d text).rest := by
  rw [behindRow]
  split
  · next h' =>
    rw [h] at h'
    cases h'
  · rfl

/-- Behind an empty text there is none. -/
@[simp] theorem behindRow_nil (d : Dialect) : behindRow d [] = [] := behindRow_of_record rfl

/-- A row leaves no more than it found. -/
theorem length_behindRow_le (d : Dialect) (text : List UInt8) :
    (behindRow d text).length ≤ text.length := by
  fun_induction behindRow d text with
  | case1 text h =>
    by_cases ht : text = []
    · subst ht
      exact Nat.le_refl _
    · exact Nat.le_of_lt (length_field_rest_lt d ht)
  | case2 text h ih =>
    exact Nat.le_trans ih (Nat.le_of_lt (length_field_rest_lt d (ne_nil_of_boundary_field h)))

/-- A row takes at least one byte, unless the text is over. -/
theorem length_behindRow_lt (d : Dialect) {text : List UInt8} (h : text ≠ []) :
    (behindRow d text).length < text.length := by
  cases hb : (field d text).boundary with
  | record =>
    rw [behindRow_of_record hb]
    exact length_field_rest_lt d h
  | field =>
    rw [behindRow_of_field hb]
    exact Nat.lt_of_le_of_lt (length_behindRow_le d _) (length_field_rest_lt d h)

/-- The text from the next row on: behind the line endings in front, where the dialect skips blank
lines. -/
def recordStart (d : Dialect) (text : List UInt8) : List UInt8 :=
  if d.skipBlankLines then text.dropWhile isLineEnding else text

@[simp] theorem recordStart_nil (d : Dialect) : recordStart d [] = [] := by
  unfold recordStart
  split <;> rfl

theorem length_recordStart_le (d : Dialect) (text : List UInt8) :
    (recordStart d text).length ≤ text.length := by
  unfold recordStart
  split
  · exact (List.dropWhile_sublist _).length_le
  · exact Nat.le_refl _

/-- What is behind the first row is no longer than the text. -/
theorem length_behindRow_recordStart_le (d : Dialect) (text : List UInt8) :
    (behindRow d (recordStart d text)).length ≤ text.length :=
  Nat.le_trans (length_behindRow_le d _) (length_recordStart_le d text)

/-- There is a row in front of what is behind it. -/
theorem recordStart_ne_nil {d : Dialect} {text : List UInt8}
    (h : behindRow d (recordStart d text) ≠ []) : recordStart d text ≠ [] := by
  intro hs
  rw [hs, behindRow_nil] at h
  exact h rfl

/-- For each row of a text, the text from that row on. -/
def starts (d : Dialect) (text : List UInt8) : List (List UInt8) :=
  if _h : recordStart d text = [] then []
  else recordStart d text :: starts d (behindRow d (recordStart d text))
termination_by text.length
decreasing_by exact Nat.lt_of_lt_of_le (length_behindRow_lt d _h) (length_recordStart_le d text)

/-- The rows of a text as the values of their fields. -/
def table (d : Dialect) (text : List UInt8) : List (List (List UInt8)) :=
  (starts d text).map (values d)

theorem starts_of_eq_nil {d : Dialect} {text : List UInt8} (h : recordStart d text = []) :
    starts d text = [] := by
  rw [starts, dif_pos h]

theorem starts_of_ne_nil {d : Dialect} {text : List UInt8} (h : recordStart d text ≠ []) :
    starts d text = recordStart d text :: starts d (behindRow d (recordStart d text)) := by
  rw [starts, dif_neg h]

@[simp] theorem starts_nil (d : Dialect) : starts d [] = [] := starts_of_eq_nil (recordStart_nil d)

end Grammar
end Delimited
