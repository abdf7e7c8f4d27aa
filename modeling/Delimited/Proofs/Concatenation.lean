import Delimited.Proofs.BlankLines
import Delimited.Proofs.Collecting
import Mathlib.Data.List.Basic

/-!
# Texts one behind the other

Where a text ends with a line, the rows of another text behind it are its own. Nothing of the first
text is still open then, and only one line ending may stand across the border: a carriage return
takes a line feed along.
-/

namespace Delimited

namespace Grammar

variable {d : Dialect} {text behind : List UInt8}

/-- The text from the delimiter on that closes the field in front. It is empty where the field is
closed by the end of the text. -/
def delimiting (d : Dialect) : List UInt8 → List UInt8
  | [] => []
  | b :: text =>
    if b = d.quote then
      match (quoted d.quote text).2 with
      | none => []
      | some behind => behind.dropWhile d.isPlain
    else (b :: text).dropWhile d.isPlain

/-- The text from the delimiter on that closes the row in front. -/
def rowDelimiting (d : Dialect) (text : List UInt8) : List UInt8 :=
  match _h : (field d text).boundary with
  | .record => delimiting d text
  | .field => rowDelimiting d (field d text).rest
termination_by text.length
decreasing_by exact length_field_rest_lt d (ne_nil_of_boundary_field _h)

/-- The text ends with a line: its last row, if it has any, is closed by a line ending and not by
the end of the text. What stands behind that row is blank lines. -/
def EndsLine (d : Dialect) (text : List UInt8) : Prop :=
  ∀ start ∈ (starts d text).getLast?, rowDelimiting d start ≠ []

instance (d : Dialect) (text : List UInt8) : Decidable (EndsLine d text) :=
  inferInstanceAs (Decidable (∀ start ∈ (starts d text).getLast?, _))

/-- What is left of a text behind another one: a carriage return at the end of the first takes a
line feed along. -/
def leftBehind (text behind : List UInt8) : List UInt8 :=
  if text.getLast? = some carriageReturn ∧ behind.head? = some lineFeed then behind.tail else behind

theorem rowDelimiting_of_record (h : (field d text).boundary = .record) :
    rowDelimiting d text = delimiting d text := by
  rw [rowDelimiting]
  split
  · rfl
  · next h' =>
    rw [h] at h'
    cases h'

theorem rowDelimiting_of_field (h : (field d text).boundary = .field) :
    rowDelimiting d text = rowDelimiting d (field d text).rest := by
  rw [rowDelimiting]
  split
  · next h' =>
    rw [h] at h'
    cases h'
  · rfl

theorem rowDelimiting_nil (d : Dialect) : rowDelimiting d [] = [] := rowDelimiting_of_record rfl

/-- A field is closed by its delimiter. -/
theorem closing_delimiting (d : Dialect) (text : List UInt8) :
    closing d (delimiting d text) = ((field d text).boundary, (field d text).rest) := by
  cases text with
  | nil => rfl
  | cons b text =>
    rw [delimiting, field]
    split
    · cases (quoted d.quote text).2 with
      | none => rfl
      | some behind => rfl
    · rfl

section Suffix

theorem closing_suffix (d : Dialect) (text : List UInt8) : (closing d text).2 <:+ text := by
  cases text with
  | nil => exact List.suffix_rfl
  | cons b text =>
    rw [closing]
    split
    · exact List.suffix_cons b text
    · split
      · exact (List.tail_suffix text).trans (List.suffix_cons b text)
      · exact List.suffix_cons b text

theorem quoted_suffix {quote : UInt8} {value : List UInt8}
    (h : quoted quote text = (value, some behind)) : behind <:+ text := by
  fun_induction quoted quote text generalizing value with
  | case1 => cases h
  | case2 =>
    cases h
    exact List.suffix_cons _ _
  | case3 rest ih =>
    obtain ⟨-, hr⟩ := Prod.mk.inj h
    exact (ih (Prod.ext rfl hr)).trans ((List.suffix_cons _ _).trans (List.suffix_cons _ _))
  | case4 =>
    cases h
    exact List.suffix_cons _ _
  | case5 b rest hb ih =>
    obtain ⟨-, hr⟩ := Prod.mk.inj h
    exact (ih (Prod.ext rfl hr)).trans (List.suffix_cons _ _)

theorem delimiting_suffix (d : Dialect) (text : List UInt8) : delimiting d text <:+ text := by
  cases text with
  | nil => exact List.suffix_rfl
  | cons b text =>
    rw [delimiting]
    split
    · cases hq : quoted d.quote text with
      | mk value closed =>
        cases closed with
        | none => exact List.nil_suffix
        | some behind =>
          exact (List.dropWhile_suffix _).trans
            ((quoted_suffix hq).trans (List.suffix_cons b text))
    · exact List.dropWhile_suffix _

theorem rest_suffix (d : Dialect) (text : List UInt8) : (field d text).rest <:+ text := by
  have h := closing_suffix d (delimiting d text)
  rw [closing_delimiting] at h
  exact h.trans (delimiting_suffix d text)

theorem behindRow_suffix (d : Dialect) (text : List UInt8) : behindRow d text <:+ text := by
  fun_induction behindRow d text with
  | case1 text h => exact rest_suffix d text
  | case2 text h ih => exact ih.trans (rest_suffix d text)

theorem recordStart_suffix (d : Dialect) (text : List UInt8) : recordStart d text <:+ text := by
  unfold recordStart
  split
  · exact List.dropWhile_suffix _
  · exact List.suffix_rfl

theorem suffix_of_mem_starts {start : List UInt8} (h : start ∈ starts d text) : start <:+ text := by
  fun_induction starts d text with
  | case1 text hs => cases h
  | case2 text hs ih =>
    have hbehind := (behindRow_suffix d (recordStart d text)).trans (recordStart_suffix d text)
    cases h with
    | head => exact recordStart_suffix d text
    | tail _ h => exact (ih h).trans hbehind

/-- What is left of a text depends on the end of the one in front of it only. -/
theorem leftBehind_of_suffix {other : List UInt8} (h : other <:+ text) (hne : other ≠ [])
    (behind : List UInt8) : leftBehind other behind = leftBehind text behind := by
  obtain ⟨front, rfl⟩ := h
  rw [leftBehind, leftBehind, List.getLast?_append_of_ne_nil front hne]

end Suffix

section Append

variable {value : List UInt8}

/-- A closing quote stays the closing one, whatever comes behind the byte behind it. -/
theorem quoted_append {quote : UInt8} (h : quoted quote text = (value, some behind))
    (hne : behind ≠ []) (more : List UInt8) :
    quoted quote (text ++ more) = (value, some (behind ++ more)) := by
  fun_induction quoted quote text generalizing value with
  | case1 => cases h
  | case2 =>
    cases h
    exact absurd rfl hne
  | case3 rest ih =>
    obtain ⟨rfl, hr⟩ := Prod.mk.inj h
    rw [List.cons_append, List.cons_append, quoted_pair, ih (Prod.ext rfl hr)]
    rfl
  | case4 c rest hc =>
    cases h
    exact quoted_of_head? (by simpa using hc)
  | case5 b rest hb ih =>
    obtain ⟨rfl, hr⟩ := Prod.mk.inj h
    rw [List.cons_append, quoted_of_ne hb, ih (Prod.ext rfl hr)]
    rfl

theorem dropWhile_append_of_ne_nil {p : UInt8 → Bool} (h : text.dropWhile p ≠ [])
    (more : List UInt8) : (text ++ more).dropWhile p = text.dropWhile p ++ more := by
  rw [List.dropWhile_append, if_neg (by simpa using h)]

theorem takeWhile_append_of_dropWhile_ne_nil {p : UInt8 → Bool} (h : text.dropWhile p ≠ [])
    (more : List UInt8) : (text ++ more).takeWhile p = text.takeWhile p := by
  have hlength := congrArg List.length (List.takeWhile_append_dropWhile (p := p) (l := text))
  rw [List.length_append] at hlength
  have hpos : 0 < (text.dropWhile p).length := List.length_pos_iff.mpr h
  rw [List.takeWhile_append, if_neg (by omega)]

/-- A field that has a delimiter behind it keeps its value and its delimiter, whatever comes behind
that. -/
theorem field_append (h : delimiting d text ≠ []) (more : List UInt8) :
    (field d (text ++ more)).value = (field d text).value ∧
      delimiting d (text ++ more) = delimiting d text ++ more := by
  cases text with
  | nil => exact absurd rfl h
  | cons b text =>
    rw [List.cons_append]
    simp only [delimiting, field] at h ⊢
    by_cases hb : b = d.quote
    · simp only [if_pos hb] at h ⊢
      cases hq : quoted d.quote text with
      | mk value closed =>
        cases closed with
        | none =>
          rw [hq] at h
          exact absurd rfl h
        | some behind =>
          rw [hq] at h
          have hne : behind ≠ [] := by
            rintro rfl
            exact h rfl
          rw [quoted_append hq hne]
          exact ⟨rfl, dropWhile_append_of_ne_nil h more⟩
    · simp only [if_neg hb] at h ⊢
      rw [← List.cons_append, takeWhile_append_of_dropWhile_ne_nil h,
        dropWhile_append_of_ne_nil h]
      exact ⟨rfl, rfl⟩

/-- A delimiter ends a field in the same way, whatever comes behind it. Behind a line ending that
was the last of the text, a line feed may be part of the line ending. -/
theorem closing_append (d : Dialect) (h : text ≠ []) (more : List UInt8) :
    closing d (text ++ more) =
      if closing d text = (.record, []) then (.record, leftBehind text more)
      else ((closing d text).1, (closing d text).2 ++ more) := by
  obtain ⟨b, rest, rfl⟩ := List.exists_cons_of_ne_nil h
  rw [List.cons_append]
  by_cases hs : b = d.separator
  · simp [closing, hs]
  · cases rest with
    | nil =>
      by_cases hpair : b = carriageReturn ∧ more.head? = some lineFeed
      · obtain ⟨rfl, hmore⟩ := hpair
        simp [closing, leftBehind, hs, hmore]
      · simp [closing, leftBehind, hs, hpair]
    | cons c rest =>
      by_cases hpair : b = carriageReturn ∧ c = lineFeed
      · obtain ⟨rfl, rfl⟩ := hpair
        cases rest with
        | nil =>
          have hleft : leftBehind [carriageReturn, lineFeed] more = more :=
            if_neg fun hc ↦ absurd hc.1 (by decide)
          simp [closing, hs, hleft]
        | cons => simp [closing, hs]
      · simp [closing, hs, hpair]

/-- A field with a delimiter behind it ends in the same way, whatever comes behind that. -/
theorem boundary_rest_append (h : delimiting d text ≠ []) (more : List UInt8) :
    ((field d (text ++ more)).boundary, (field d (text ++ more)).rest) =
      if (field d text).boundary = .record ∧ (field d text).rest = [] then
        (.record, leftBehind text more)
      else ((field d text).boundary, (field d text).rest ++ more) := by
  have hclosing := closing_append d h more
  rw [← (field_append h more).2, closing_delimiting, closing_delimiting,
    leftBehind_of_suffix (delimiting_suffix d text) h] at hclosing
  simpa only [Prod.mk.injEq] using hclosing

/-- A row that is closed by a line ending keeps its values, whatever comes behind. What comes behind
is left, but for a line feed that is part of the line ending. -/
theorem row_append (h : rowDelimiting d text ≠ []) (more : List UInt8) :
    values d (text ++ more) = values d text ∧
      behindRow d (text ++ more) =
        if behindRow d text = [] then leftBehind text more else behindRow d text ++ more := by
  unfold values
  fun_induction rowDelimiting d text with
  | case1 text hb =>
    have hfield := boundary_rest_append h more
    have hvalue := (field_append h more).1
    rw [hb] at hfield
    have hboundary : (field d (text ++ more)).boundary = .record := by
      split at hfield <;> exact (Prod.mk.inj hfield).1
    rw [row_of_record hboundary, behindRow_of_record hboundary, row_of_record hb,
      behindRow_of_record hb, List.map_singleton, List.map_singleton, hvalue]
    refine ⟨rfl, ?_⟩
    split at hfield
    · next hnil => rw [if_pos hnil.2, (Prod.mk.inj hfield).2]
    · next hne => rw [if_neg fun hnil ↦ hne ⟨rfl, hnil⟩, (Prod.mk.inj hfield).2]
  | case2 text hb ih =>
    have hrest : (field d text).rest ≠ [] := by
      intro hnil
      rw [hnil, rowDelimiting_nil] at h
      exact h rfl
    have hdelimiting : delimiting d text ≠ [] := by
      intro hnil
      have hclosing := closing_delimiting d text
      rw [hnil, hb] at hclosing
      cases hclosing
    have hfield := boundary_rest_append hdelimiting more
    rw [if_neg fun hnil ↦ hrest hnil.2, hb] at hfield
    obtain ⟨hboundary, hbehind⟩ := Prod.mk.inj hfield
    obtain ⟨hvalues, hbehindRow⟩ := ih h
    rw [row_of_field hboundary, behindRow_of_field hboundary, row_of_field hb,
      behindRow_of_field hb, List.map_cons, List.map_cons, (field_append hdelimiting more).1,
      hbehind, hvalues, hbehindRow, leftBehind_of_suffix (rest_suffix d text) hrest]
    exact ⟨rfl, rfl⟩

/-- Blank lines in front of more text leave the rows of that text. -/
theorem starts_append_of_recordStart_eq_nil (h : recordStart d text = []) (more : List UInt8) :
    starts d (text ++ more) = starts d (leftBehind text more) := by
  apply starts_congr
  unfold recordStart at h ⊢
  split
  · next hskip =>
    rw [if_pos hskip] at h
    have hleft : (leftBehind text more).dropWhile isLineEnding = more.dropWhile isLineEnding := by
      unfold leftBehind
      split
      · next hpair =>
        obtain ⟨rest, rfl⟩ := List.head?_eq_some_iff.mp hpair.2
        exact (List.dropWhile_cons_of_pos rfl).symm
      · rfl
    rw [List.dropWhile_append, if_pos (by rw [h]; rfl), hleft]
  · next hskip =>
    rw [if_neg hskip] at h
    subst h
    exact (if_neg fun hpair ↦ nomatch hpair.1).symm

theorem recordStart_append (h : recordStart d text ≠ []) (more : List UInt8) :
    recordStart d (text ++ more) = recordStart d text ++ more := by
  unfold recordStart at h ⊢
  split
  · next hskip =>
    rw [if_pos hskip] at h
    exact dropWhile_append_of_ne_nil h more
  · rfl

/-- Only the last row of a text may be closed by the end of the text. -/
theorem rowDelimiting_ne_nil_of_behindRow (h : behindRow d text ≠ []) :
    rowDelimiting d text ≠ [] := by
  fun_induction behindRow d text with
  | case1 text hb =>
    rw [rowDelimiting_of_record hb]
    intro hnil
    have hclosing := closing_delimiting d text
    rw [hnil] at hclosing
    exact h (congrArg Prod.snd hclosing).symm
  | case2 text hb ih =>
    rw [rowDelimiting_of_field hb]
    exact ih h

/-- The first row of a text that ends with a line is closed by a line ending. -/
theorem EndsLine.rowDelimiting_ne_nil (h : EndsLine d text) (hs : recordStart d text ≠ []) :
    rowDelimiting d (recordStart d text) ≠ [] := by
  by_cases hb : behindRow d (recordStart d text) = []
  · apply h
    rw [starts_of_ne_nil hs, hb, starts_nil, List.getLast?_singleton]
    rfl
  · exact rowDelimiting_ne_nil_of_behindRow hb

/-- What is behind the first row ends with a line as well. -/
theorem EndsLine.behindRow (h : EndsLine d text) (hs : recordStart d text ≠ []) :
    EndsLine d (Grammar.behindRow d (recordStart d text)) := by
  intro start hstart
  apply h
  rw [starts_of_ne_nil hs]
  exact List.mem_getLast?_cons hstart

/-- The rows of a text that ends with a line come before those of what is left of the text
behind it. -/
theorem table_append (h : EndsLine d text) (more : List UInt8) :
    table d (text ++ more) = table d text ++ table d (leftBehind text more) := by
  unfold table
  fun_induction starts d text with
  | case1 text hs => rw [starts_append_of_recordStart_eq_nil hs]; rfl
  | case2 text hs ih =>
    obtain ⟨hvalues, hbehind⟩ := row_append (h.rowDelimiting_ne_nil hs) more
    have hstart := recordStart_append hs more
    rw [starts_of_ne_nil (by rw [hstart]; exact List.append_ne_nil_of_left_ne_nil hs more), hstart,
      List.map_cons, List.map_cons, hvalues, List.cons_append, hbehind]
    congr 1
    have hleft := leftBehind_of_suffix (recordStart_suffix d text) hs more
    split
    · next hnil => rw [hnil, starts_nil, hleft]; rfl
    · next hne =>
      have hsuffix := (behindRow_suffix d (recordStart d text)).trans (recordStart_suffix d text)
      rw [ih (h.behindRow hs), leftBehind_of_suffix hsuffix hne]

end Append

end Grammar

/-- Where a text ends with a line, its rows come before those of any text behind it. If the first
ends in a carriage return and the second begins with a line feed, that line feed is no row of its
own. -/
theorem rows_of_concatenation (alloc : Allocator) (d : Dialect) (first second : List UInt8)
    (hg : alloc.GrantsFor (first ++ second).length) (hd : d.validate = .ok ())
    (hline : Grammar.EndsLine d first) (hfits : (first ++ second).length < memoryLimit) :
    let torn := first.getLast? = some carriageReturn ∧ second.head? = some lineFeed
    ∃ rows, parseRows alloc first d = .ok rows ∧
      (¬ torn → ∃ others, parseRows alloc second d = .ok others ∧
        parseRows alloc (first ++ second) d = .ok (rows ++ others)) ∧
      (torn → ∃ others, parseRows alloc second.tail d = .ok others ∧
        parseRows alloc (first ++ second) d = .ok (rows ++ others)) := by
  intro torn
  have htable := Grammar.table_append hline second
  have hlength : (first ++ second).length = first.length + second.length := List.length_append
  have htail : second.tail.length ≤ second.length := (List.tail_sublist second).length_le
  refine ⟨_, parseRows_eq_table (hg.mono (by omega)) hd (by omega), fun hwhole ↦ ?_,
    fun htorn ↦ ?_⟩
  · rw [Grammar.leftBehind, if_neg hwhole] at htable
    refine ⟨_, parseRows_eq_table (hg.mono (by omega)) hd (by omega), ?_⟩
    rw [parseRows_eq_table hg hd hfits, htable]
  · rw [Grammar.leftBehind, if_pos htorn] at htable
    refine ⟨_, parseRows_eq_table (hg.mono (by omega)) hd (by omega), ?_⟩
    rw [parseRows_eq_table hg hd hfits, htable]

/-- The first text has a line feed in quotes and ends in a carriage return, and the second begins
with a line feed. -/
theorem rows_of_concatenation_of_torn_pair :
    let first : List UInt8 := [34, 120, 10, 34, 13]
    let second : List UInt8 := [10, 121]
    parseRows .unlimited first {} = .ok [[[120, 10]]] ∧
      parseRows .unlimited second.tail {} = .ok [[[121]]] ∧
      parseRows .unlimited (first ++ second) {} = .ok [[[120, 10]], [[121]]] := by
  intro first second
  obtain ⟨rows, hrows, -, htorn⟩ := rows_of_concatenation .unlimited {} first second
    (Allocator.grantsFor_unlimited _) rfl (by decide +kernel) (by decide)
  obtain ⟨others, hothers, hboth⟩ := htorn ⟨rfl, rfl⟩
  have hfirst : parseRows .unlimited first {} = .ok [[[120, 10]]] := by
    rw [parseRows_eq_table (Allocator.grantsFor_unlimited _) rfl (by decide)]
    exact congrArg Except.ok (by decide +kernel)
  have hsecond : parseRows .unlimited second.tail {} = .ok [[[121]]] := by
    rw [parseRows_eq_table (Allocator.grantsFor_unlimited _) rfl (by decide)]
    exact congrArg Except.ok (by decide +kernel)
  rw [hfirst] at hrows
  rw [hsecond] at hothers
  cases hrows
  cases hothers
  exact ⟨hfirst, hsecond, hboth⟩

end Delimited
