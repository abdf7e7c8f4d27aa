import Delimited.Proofs.Collecting
import Mathlib.Data.List.Chain

/-!
# Reading undoes writing

There are many ways to write a table: each field with or without quotes, each row with one of three
line breaks, and the last row without any. They are all read back as the table, as long as no line
break falls together with that of an empty line, and no row is lost for want of a byte.
-/

namespace Delimited

/-- Bytes that may stand without quotes, or behind a closing quote: none of them is a delimiter, and
the first is not a quote. -/
def Dialect.IsBare (d : Dialect) (bytes : List UInt8) : Prop :=
  (∀ b ∈ bytes, d.isPlain b = true) ∧ bytes.head? ≠ some d.quote

instance (d : Dialect) (bytes : List UInt8) : Decidable (d.IsBare bytes) :=
  inferInstanceAs (Decidable (_ ∧ _))

/-- A way to write a field: as it is, or in quotes and with more bytes behind the closing quote. -/
inductive WrittenField where
  | raw (value : List UInt8)
  | quoted (value junk : List UInt8)
  deriving DecidableEq, Repr

namespace WrittenField

/-- The field that is written. -/
def value : WrittenField → List UInt8
  | raw value => value
  | quoted value _ => value

/-- The bytes to be dropped. -/
def junk : WrittenField → List UInt8
  | raw _ => []
  | quoted _ junk => junk

/-- The value between quotes, where each of its own quotes is doubled. -/
def doubled (quote : UInt8) (value : List UInt8) : List UInt8 :=
  value.flatMap fun b ↦ if b = quote then [quote, quote] else [b]

/-- The bytes of the field. -/
def text (d : Dialect) : WrittenField → List UInt8
  | raw value => value
  | quoted value junk => d.quote :: (doubled d.quote value ++ d.quote :: junk)

/-- Whether the field may be written that way. -/
def Permitted (d : Dialect) : WrittenField → Prop
  | raw value => d.IsBare value
  | quoted _ junk => d.IsBare junk

instance (d : Dialect) (f : WrittenField) : Decidable (f.Permitted d) :=
  match f with
  | raw value => inferInstanceAs (Decidable (d.IsBare value))
  | quoted _ junk => inferInstanceAs (Decidable (d.IsBare junk))

end WrittenField

/-- A way to write a row, which has at least one field. -/
structure WrittenRow where
  first : WrittenField
  others : List WrittenField := []
  deriving DecidableEq, Repr

namespace WrittenRow

/-- The fields of the row as they are written. -/
def fields (row : WrittenRow) : List WrittenField := row.first :: row.others

/-- The row that is written. -/
def values (row : WrittenRow) : List (List UInt8) := row.fields.map WrittenField.value

/-- The bytes of the row, without a line break: its fields with separators in between. -/
def text (d : Dialect) (row : WrittenRow) : List UInt8 :=
  row.first.text d ++ row.others.flatMap fun f ↦ d.separator :: f.text d

/-- Whether all fields of the row may be written that way. -/
def Permitted (d : Dialect) (row : WrittenRow) : Prop := ∀ f ∈ row.fields, f.Permitted d

instance (d : Dialect) (row : WrittenRow) : Decidable (row.Permitted d) :=
  inferInstanceAs (Decidable (∀ f ∈ row.fields, f.Permitted d))

end WrittenRow

/-- A way to end a line. -/
inductive LineBreak where
  | lineFeed
  | carriageReturn
  | both
  deriving DecidableEq, Repr

/-- The bytes of the line break. -/
def LineBreak.bytes : LineBreak → List UInt8
  | lineFeed => [Delimited.lineFeed]
  | carriageReturn => [Delimited.carriageReturn]
  | both => [Delimited.carriageReturn, Delimited.lineFeed]

/-- A way to write a table. Only the last row can be without a line break. -/
structure Writing where
  ended : List (WrittenRow × LineBreak)
  unended : Option WrittenRow := none
  deriving DecidableEq, Repr

namespace Writing

/-- All rows as they are written. -/
def rows (w : Writing) : List WrittenRow := w.ended.map Prod.fst ++ w.unended.toList

/-- The table that is written. -/
def table (w : Writing) : List (List (List UInt8)) := w.rows.map WrittenRow.values

/-- The bytes of the table. -/
def bytes (d : Dialect) (w : Writing) : List UInt8 :=
  w.ended.flatMap (fun line ↦ line.1.text d ++ line.2.bytes) ++
    w.unended.toList.flatMap (WrittenRow.text d)

/-- Whether the table may be written that way. -/
structure Permitted (d : Dialect) (w : Writing) : Prop where
  rows : ∀ row ∈ w.rows, row.Permitted d
  /-- A carriage return takes the line feed of an empty line along. -/
  breaks : w.ended.IsChain fun line next ↦
    ¬ (line.2 = .carriageReturn ∧ next.1.text d = [] ∧ next.2 = .lineFeed)
  /-- Nothing is left of an empty line without its line break. -/
  unended : ∀ row ∈ w.unended, row.text d ≠ []
  /-- Empty lines may be skipped. -/
  blank : d.skipBlankLines = true → ∀ row ∈ w.rows, row.text d ≠ []

end Writing

variable {d : Dialect}

theorem Dialect.isPlain_quote (hd : d.validate = .ok ()) : d.isPlain d.quote = true := by
  obtain ⟨-, hquote, hne⟩ := (validate_eq_ok_iff d).mp hd
  simp [isPlain, hquote, hne.symm]

namespace Grammar

/-- A text that begins with a delimiter, or is over. -/
def Delimits (d : Dialect) (text : List UInt8) : Prop := ∀ b ∈ text.head?, d.isPlain b = false

theorem takeWhile_append_of_delimits {bytes behind : List UInt8}
    (h : ∀ b ∈ bytes, d.isPlain b = true) (hbehind : Delimits d behind) :
    (bytes ++ behind).takeWhile d.isPlain = bytes := by
  rw [List.takeWhile_append_of_pos h]
  cases behind with
  | nil => rw [List.takeWhile_nil, List.append_nil]
  | cons b behind =>
    rw [List.takeWhile_cons_of_neg (by simp [hbehind b rfl]), List.append_nil]

theorem dropWhile_append_of_delimits {bytes behind : List UInt8}
    (h : ∀ b ∈ bytes, d.isPlain b = true) (hbehind : Delimits d behind) :
    (bytes ++ behind).dropWhile d.isPlain = behind := by
  rw [List.dropWhile_append_of_pos h]
  cases behind with
  | nil => rfl
  | cons b behind => rw [List.dropWhile_cons_of_neg (by simp [hbehind b rfl])]

/-- A quoted value is read up to the first quote that stands alone. -/
theorem quoted_doubled (quote : UInt8) (value : List UInt8) {behind : List UInt8}
    (h : behind.head? ≠ some quote) :
    quoted quote (WrittenField.doubled quote value ++ quote :: behind) = (value, some behind) := by
  induction value with
  | nil => exact quoted_of_head? h
  | cons b value ih =>
    unfold WrittenField.doubled at ih ⊢
    rw [List.flatMap_cons, List.append_assoc]
    by_cases hb : b = quote
    · subst hb
      rw [if_pos rfl, List.cons_append, List.cons_append, List.nil_append, quoted_pair, ih]
      rfl
    · rw [if_neg hb, List.cons_append, List.nil_append, quoted_of_ne hb, ih]
      rfl

theorem head?_append_ne_quote (hd : d.validate = .ok ()) {bytes behind : List UInt8}
    (h : d.IsBare bytes) (hbehind : Delimits d behind) :
    (bytes ++ behind).head? ≠ some d.quote := by
  cases bytes with
  | nil =>
    intro hquote
    have hfalse := hbehind d.quote hquote
    rw [Dialect.isPlain_quote hd] at hfalse
    cases hfalse
  | cons b bytes => exact h.2

/-- Bytes without quotes around them are read up to the delimiter behind them. -/
theorem field_of_bare {value behind : List UInt8} (hplain : ∀ b ∈ value, d.isPlain b = true)
    (hfirst : (value ++ behind).head? ≠ some d.quote) (hbehind : Delimits d behind) :
    field d (value ++ behind) = closed d value [] behind := by
  have htake := takeWhile_append_of_delimits hplain hbehind
  have hdrop := dropWhile_append_of_delimits hplain hbehind
  cases htext : value ++ behind with
  | nil =>
    obtain ⟨rfl, rfl⟩ := List.append_eq_nil_iff.mp htext
    rfl
  | cons b text =>
    rw [htext] at htake hdrop hfirst
    have hb : b ≠ d.quote := fun hb ↦ hfirst (congrArg some hb)
    rw [field, if_neg hb, htake, hdrop]

/-- A value in quotes is read up to its closing quote, and what is behind that up to the
delimiter. -/
theorem field_of_quoted (value : List UInt8) {dropped behind : List UInt8}
    (hplain : ∀ b ∈ dropped, d.isPlain b = true)
    (halone : (dropped ++ behind).head? ≠ some d.quote) (hbehind : Delimits d behind) :
    field d (d.quote :: (WrittenField.doubled d.quote value ++ d.quote :: (dropped ++ behind))) =
      closed d value dropped behind := by
  rw [field, if_pos rfl, quoted_doubled d.quote value halone]
  show closed d value _ _ = _
  rw [takeWhile_append_of_delimits hplain hbehind, dropWhile_append_of_delimits hplain hbehind]

/-- A field is read as it was written, up to the delimiter behind it. -/
theorem field_text (hd : d.validate = .ok ()) {f : WrittenField} (hf : f.Permitted d)
    {behind : List UInt8} (hbehind : Delimits d behind) :
    field d (f.text d ++ behind) = closed d f.value f.junk behind := by
  cases f with
  | raw value => exact field_of_bare hf.1 (head?_append_ne_quote hd hf hbehind) hbehind
  | quoted value junk =>
    have hfield := field_of_quoted value hf.1 (head?_append_ne_quote hd hf hbehind) hbehind
    simpa [WrittenField.text, WrittenField.value, WrittenField.junk] using hfield

theorem delimits_nil : Delimits d [] := nofun

theorem delimits_separator (text : List UInt8) : Delimits d (d.separator :: text) := by
  rintro b ⟨⟩
  simp [Dialect.isPlain]

theorem delimits_lineBreak (br : LineBreak) (text : List UInt8) :
    Delimits d (br.bytes ++ text) := by
  cases br <;> rintro b ⟨⟩ <;> simp [Dialect.isPlain, isLineEnding]

theorem delimits_dropWhile (d : Dialect) (text : List UInt8) :
    Delimits d (text.dropWhile d.isPlain) := by
  intro b hb
  have hfirst := List.head?_dropWhile_not d.isPlain text
  rw [hb] at hfirst
  exact hfirst

theorem closing_separator (d : Dialect) (text : List UInt8) :
    closing d (d.separator :: text) = (.field, text) := by
  rw [closing, if_pos rfl]

/-- A line break is read as a whole and alone. -/
theorem closing_lineBreak (hd : d.validate = .ok ()) {br : LineBreak} {behind : List UInt8}
    (h : ¬ (br = .carriageReturn ∧ behind.head? = some lineFeed)) :
    closing d (br.bytes ++ behind) = (.record, behind) := by
  have hlf : lineFeed ≠ d.separator := Dialect.ne_separator_of_isLineEnding hd rfl
  have hcr : carriageReturn ≠ d.separator := Dialect.ne_separator_of_isLineEnding hd rfl
  cases br with
  | lineFeed =>
    show closing d (lineFeed :: behind) = _
    rw [closing, if_neg hlf, if_neg (fun hc ↦ absurd hc.1 (by decide))]
  | carriageReturn =>
    show closing d (carriageReturn :: behind) = _
    rw [closing, if_neg hcr, if_neg (fun hc ↦ h ⟨rfl, hc.2⟩)]
  | both =>
    show closing d (carriageReturn :: lineFeed :: behind) = _
    rw [closing, if_neg hcr, if_pos ⟨rfl, rfl⟩]
    rfl

/-- A row is read as it was written, up to what ends the record behind it. -/
theorem row_text (hd : d.validate = .ok ()) {row : WrittenRow} (hrow : row.Permitted d)
    {behind rest : List UInt8} (hbehind : Delimits d behind)
    (hclosing : closing d behind = (.record, rest)) :
    values d (row.text d ++ behind) = row.values ∧ behindRow d (row.text d ++ behind) = rest := by
  obtain ⟨first, others⟩ := row
  unfold WrittenRow.text
  dsimp only
  induction others generalizing first with
  | nil =>
    have hfield := field_text hd (hrow first (.head _)) hbehind
    rw [List.flatMap_nil, List.append_nil]
    have hboundary : (field d (first.text d ++ behind)).boundary = .record := by
      rw [hfield]
      exact congrArg Prod.fst hclosing
    rw [values, row_of_record hboundary, behindRow_of_record hboundary, hfield]
    exact ⟨rfl, congrArg Prod.snd hclosing⟩
  | cons second others ih =>
    rw [List.flatMap_cons, List.cons_append, List.append_assoc, List.cons_append]
    have hfield := field_text hd (hrow first (.head _)) (delimits_separator
      (second.text d ++ others.flatMap (fun f ↦ d.separator :: f.text d) ++ behind))
    have hboundary : (field d (first.text d ++ d.separator :: (second.text d ++
        others.flatMap (fun f ↦ d.separator :: f.text d) ++ behind))).boundary = .field := by
      rw [hfield, closed, closing_separator]
    have hrest := ih second fun f hf ↦ hrow f (.tail _ hf)
    rw [values, row_of_field hboundary, behindRow_of_field hboundary, hfield, closed,
      closing_separator]
    exact ⟨congrArg _ hrest.1, hrest.2⟩

end Grammar

namespace WrittenRow

/-- The row with quotes around every field. -/
def quoting (values : List (List UInt8)) : WrittenRow :=
  ⟨.quoted (values.headD []) [], values.tail.map fun value ↦ .quoted value []⟩

theorem permitted_quoting (d : Dialect) (values : List (List UInt8)) :
    (quoting values).Permitted d := by
  have hbare : d.IsBare [] := ⟨nofun, nofun⟩
  intro f hf
  cases hf with
  | head => exact hbare
  | tail _ hf =>
    obtain ⟨value, -, rfl⟩ := List.mem_map.mp hf
    exact hbare

theorem values_quoting {values : List (List UInt8)} (h : values ≠ []) :
    (quoting values).values = values := by
  obtain ⟨value, others, rfl⟩ := List.exists_cons_of_ne_nil h
  unfold WrittenRow.values fields quoting
  rw [List.map_cons, List.map_map]
  exact congrArg _ (List.map_id _)

/-- Only a row of one field, written as the empty text that it is, has no bytes. -/
theorem text_eq_nil_iff (d : Dialect) (row : WrittenRow) :
    row.text d = [] ↔ row.first = .raw [] ∧ row.others = [] := by
  obtain ⟨first, others⟩ := row
  cases first with
  | raw value => cases others <;> simp [text, WrittenField.text]
  | quoted value junk => simp [text, WrittenField.text]

theorem text_quoting_ne_nil (d : Dialect) (values : List (List UInt8)) :
    (quoting values).text d ≠ [] := by
  intro htext
  cases ((text_eq_nil_iff d _).mp htext).1

/-- A row does not begin like a line break. -/
theorem isLineEnding_head?_text (hd : d.validate = .ok ()) {row : WrittenRow}
    (hrow : row.Permitted d) : ∀ b ∈ (row.text d).head?, isLineEnding b = false := by
  obtain ⟨hseparator, hquote, -⟩ := (Dialect.validate_eq_ok_iff d).mp hd
  obtain ⟨first, others⟩ := row
  have hfirst := hrow first (.head _)
  intro b hb
  cases first with
  | raw value =>
    cases value with
    | nil =>
      cases others with
      | nil => cases hb
      | cons second others =>
        cases hb
        exact hseparator
    | cons c value =>
      cases hb
      have hplain := hfirst.1 b (.head _)
      unfold Dialect.isPlain at hplain
      simp at hplain
      exact hplain.2
  | quoted value junk =>
    cases hb
    exact hquote

/-- Nothing is skipped in front of a row that is not blank. -/
theorem recordStart_text (hd : d.validate = .ok ()) {row : WrittenRow} (hrow : row.Permitted d)
    (hblank : d.skipBlankLines = true → row.text d ≠ []) (behind : List UInt8) :
    Grammar.recordStart d (row.text d ++ behind) = row.text d ++ behind := by
  unfold Grammar.recordStart
  split
  · next hskip =>
    have hhead := isLineEnding_head?_text hd hrow
    cases htext : row.text d with
    | nil => exact absurd htext (hblank hskip)
    | cons b text =>
      rw [htext] at hhead
      rw [List.cons_append, List.dropWhile_cons_of_neg (by simp [hhead b rfl])]
  · rfl

/-- A row in front of a text is the first of its table. -/
theorem table_text (hd : d.validate = .ok ()) {row : WrittenRow} (hrow : row.Permitted d)
    (hblank : d.skipBlankLines = true → row.text d ≠ []) {behind rest : List UInt8}
    (hne : row.text d ++ behind ≠ []) (hbehind : Grammar.Delimits d behind)
    (hclosing : Grammar.closing d behind = (.record, rest)) :
    Grammar.table d (row.text d ++ behind) = row.values :: Grammar.table d rest := by
  have hstart := recordStart_text hd hrow hblank behind
  obtain ⟨hvalues, hrest⟩ := Grammar.row_text hd hrow hbehind hclosing
  unfold Grammar.table
  rw [Grammar.starts_of_ne_nil (by rw [hstart]; exact hne), hstart, hrest, List.map_cons, hvalues]

end WrittenRow

namespace Writing

variable {line : WrittenRow × LineBreak} {ended : List (WrittenRow × LineBreak)}
  {unended : Option WrittenRow}

theorem bytes_cons (d : Dialect) (line : WrittenRow × LineBreak)
    (ended : List (WrittenRow × LineBreak)) (unended : Option WrittenRow) :
    bytes d ⟨line :: ended, unended⟩ =
      line.1.text d ++ (line.2.bytes ++ bytes d ⟨ended, unended⟩) := by
  simp only [bytes, List.flatMap_cons, List.append_assoc]

theorem Permitted.tail (h : Permitted d ⟨line :: ended, unended⟩) :
    Permitted d ⟨ended, unended⟩ where
  rows row hrow := h.rows row (.tail _ hrow)
  breaks := h.breaks.tail
  unended := h.unended
  blank hskip row hrow := h.blank hskip row (.tail _ hrow)

/-- Only an empty line that a line feed ends begins with one. -/
theorem exists_of_head?_bytes (hd : d.validate = .ok ())
    (h : ∀ row ∈ rows ⟨ended, unended⟩, row.Permitted d)
    (hhead : (bytes d ⟨ended, unended⟩).head? = some lineFeed) :
    ∃ next later, ended = next :: later ∧ next.1.text d = [] ∧ next.2 = .lineFeed := by
  cases ended with
  | nil =>
    cases unended with
    | none => cases hhead
    | some row =>
      rw [bytes, List.flatMap_nil, List.nil_append, Option.toList_some, List.flatMap_singleton]
        at hhead
      have hfalse := WrittenRow.isLineEnding_head?_text hd (h row (.head _)) lineFeed hhead
      cases hfalse
  | cons next later =>
    refine ⟨next, later, rfl, ?_⟩
    have hfirst := WrittenRow.isLineEnding_head?_text hd (h next.1 (.head _))
    rw [bytes_cons] at hhead
    cases htext : next.1.text d with
    | nil =>
      rw [htext] at hhead
      cases hbreak : next.2 with
      | lineFeed => exact ⟨rfl, rfl⟩
      | carriageReturn =>
        rw [hbreak] at hhead
        cases hhead
      | both =>
        rw [hbreak] at hhead
        cases hhead
    | cons b text =>
      rw [htext] at hhead hfirst
      have hfalse := hfirst lineFeed hhead
      cases hfalse

/-- The table of a writing is the table that is written. -/
theorem table_bytes (hd : d.validate = .ok ()) {w : Writing} (h : w.Permitted d) :
    Grammar.table d (w.bytes d) = w.table := by
  obtain ⟨ended, unended⟩ := w
  induction ended with
  | nil =>
    cases unended with
    | none =>
      unfold Grammar.table
      rw [show bytes d ⟨[], none⟩ = [] from rfl, Grammar.starts_nil]
      rfl
    | some row =>
      have hne : row.text d ++ [] ≠ [] := by
        rw [List.append_nil]
        exact h.unended row rfl
      have htable := WrittenRow.table_text hd (h.rows row (.head _))
        (fun hskip ↦ h.blank hskip row (.head _)) hne Grammar.delimits_nil (Grammar.closing_nil d)
      unfold Grammar.table at htable
      rw [Grammar.starts_nil] at htable
      exact htable
  | cons line ended ih =>
    -- The line break stays alone, since what follows begins with a line feed only as an empty line.
    have hbreak : ¬ (line.2 = .carriageReturn ∧
        (bytes d ⟨ended, unended⟩).head? = some lineFeed) := by
      rintro ⟨hreturn, hhead⟩
      obtain ⟨next, later, rfl, hempty, hfeed⟩ := exists_of_head?_bytes hd h.tail.rows hhead
      exact (List.isChain_cons_cons.mp h.breaks).1 ⟨hreturn, hempty, hfeed⟩
    have hne : line.1.text d ++ (line.2.bytes ++ bytes d ⟨ended, unended⟩) ≠ [] := by
      cases line.2 <;> simp [LineBreak.bytes]
    rw [bytes_cons, WrittenRow.table_text hd (h.rows line.1 (.head _))
      (fun hskip ↦ h.blank hskip line.1 (.head _)) hne (Grammar.delimits_lineBreak _ _)
      (Grammar.closing_lineBreak hd hbreak), ih h.tail]
    rfl

/-- The writing with quotes around every field and the same line break behind every row. -/
def quoting (br : LineBreak) (table : List (List (List UInt8))) : Writing :=
  ⟨table.map fun row ↦ (.quoting row, br), none⟩

theorem rows_quoting (br : LineBreak) (table : List (List (List UInt8))) :
    (quoting br table).rows = table.map WrittenRow.quoting := by
  simp only [rows, quoting, List.map_map, Option.toList_none, List.append_nil]
  rfl

/-- Every table may be written with quotes around every field. -/
theorem permitted_quoting (d : Dialect) (br : LineBreak) (table : List (List (List UInt8))) :
    (quoting br table).Permitted d where
  rows row hrow := by
    rw [rows_quoting] at hrow
    obtain ⟨values, -, rfl⟩ := List.mem_map.mp hrow
    exact WrittenRow.permitted_quoting d values
  breaks := by
    apply List.Pairwise.isChain
    apply List.pairwise_map.mpr
    apply List.pairwise_of_forall
    intro _ next hbreak
    exact WrittenRow.text_quoting_ne_nil d next hbreak.2.1
  unended := nofun
  blank _ row hrow := by
    rw [rows_quoting] at hrow
    obtain ⟨values, -, rfl⟩ := List.mem_map.mp hrow
    exact WrittenRow.text_quoting_ne_nil d values

/-- The writing with quotes around every field is one of the table, if its rows have fields. -/
theorem table_quoting (br : LineBreak) {table : List (List (List UInt8))}
    (h : ∀ row ∈ table, row ≠ []) : (quoting br table).table = table := by
  unfold Writing.table
  rw [rows_quoting, List.map_map]
  calc
    table.map (WrittenRow.values ∘ WrittenRow.quoting) = table.map id :=
      List.map_congr_left fun row hrow ↦ WrittenRow.values_quoting (h row hrow)
    _ = table := List.map_id table

end Writing

/-- Whatever permitted way a table is written in, reading its bytes gives the table. The rows that
have no text, about which the conditions are, are those of one field that is written as the empty
text that it is. -/
theorem reading_undoes_writing (alloc : Allocator) (d : Dialect) (w : Writing)
    (hg : alloc.GrantsFor (w.bytes d).length) (hd : d.validate = .ok ()) (hw : w.Permitted d)
    (hfits : (w.bytes d).length < memoryLimit) :
    parseRows alloc (w.bytes d) d = .ok w.table ∧
      ∀ row : WrittenRow, row.text d = [] ↔ row.first = .raw [] ∧ row.others = [] := by
  refine ⟨?_, WrittenRow.text_eq_nil_iff d⟩
  rw [parseRows_eq_table hg hd hfits, Writing.table_bytes hd hw]

/-- A row with bytes behind a closing quote and a carriage return, an empty row in quotes, and a row
without a line break. -/
theorem reading_undoes_writing_of_three_rows :
    parseRows .unlimited [97, 44, 34, 98, 34, 34, 34, 120, 13, 34, 34, 10, 99]
      { skipBlankLines := true } = .ok [[[97], [98, 34]], [[]], [[99]]] :=
  (reading_undoes_writing .unlimited { skipBlankLines := true }
    ⟨[(⟨.raw [97], [.quoted [98, 34] [120]]⟩, .carriageReturn), (⟨.quoted [] [], []⟩, .lineFeed)],
      some ⟨.raw [99], []⟩⟩
    (Allocator.grantsFor_unlimited _) rfl
    ⟨by decide +kernel, by decide, by decide, by decide +kernel⟩ (by decide)).1

end Delimited
