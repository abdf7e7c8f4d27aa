import Delimited.Proofs.Concatenation
import Delimited.Proofs.Writing

/-!
# Texts written in other bytes

A text may be transcribed: for each of its bytes a run of bytes is written, which plays in another
dialect the part that the byte plays in its own. Then the transcript divides like the text, and its
fields are the transcripts of the fields.
-/

namespace Delimited

open Grammar

/-- A way to write texts of one dialect in the bytes of another. -/
structure Transcription (d d' : Dialect) where
  /-- What is written for a byte. -/
  run : UInt8 → List UInt8
  /-- The bytes for which this will do. -/
  Covers : UInt8 → Prop
  /-- Blank lines are treated alike. -/
  skipBlankLines : d'.skipBlankLines = d.skipBlankLines
  run_ne_nil (b : UInt8) : run b ≠ []
  run_quote : run d.quote = [d'.quote]
  quote_notMem_run {b : UInt8} : Covers b → b ≠ d.quote → d'.quote ∉ run b
  isPlain_of_mem_run {b c : UInt8} : Covers b → c ∈ run b → d'.isPlain c = d.isPlain b
  isLineEnding_of_mem_run {b c : UInt8} : Covers b → c ∈ run b → isLineEnding c = isLineEnding b
  /-- A delimiter ends a field in the same way. -/
  closing_run {b : UInt8} {text : List UInt8} : d.isPlain b = false →
    (∀ c ∈ b :: text, Covers c) →
    closing d' (run b ++ text.flatMap run) =
      ((closing d (b :: text)).1, (closing d (b :: text)).2.flatMap run)

/-- Bytes without a quote in front of more text belong to the value. -/
theorem Grammar.quoted_append_of_notMem {quote : UInt8} {bytes : List UInt8} (h : quote ∉ bytes)
    (text : List UInt8) :
    quoted quote (bytes ++ text) = (bytes ++ (quoted quote text).1, (quoted quote text).2) := by
  induction bytes with
  | nil => rfl
  | cons b bytes ih =>
    have hb : b ≠ quote := (List.ne_of_not_mem_cons h).symm
    rw [List.cons_append, quoted_of_ne hb, ih (List.not_mem_of_not_mem_cons h)]
    rfl

namespace Transcription

variable {d d' : Dialect} (t : Transcription d d') {text : List UInt8}

/-- The transcript of a text. -/
def apply (text : List UInt8) : List UInt8 := text.flatMap t.run

/-- The transcription will do for all bytes of the text. -/
def CoversAll (text : List UInt8) : Prop := ∀ b ∈ text, t.Covers b

@[simp] theorem apply_nil : t.apply [] = [] := rfl

theorem apply_cons (b : UInt8) (text : List UInt8) :
    t.apply (b :: text) = t.run b ++ t.apply text := List.flatMap_cons

theorem apply_quote_cons (text : List UInt8) :
    t.apply (d.quote :: text) = d'.quote :: t.apply text := by
  rw [apply_cons, run_quote]
  rfl

theorem apply_eq_nil_iff : t.apply text = [] ↔ text = [] := by
  cases text with
  | nil => exact iff_of_true rfl rfl
  | cons b text =>
    rw [apply_cons]
    exact iff_of_false (List.append_ne_nil_of_left_ne_nil (t.run_ne_nil b) _)
      (List.cons_ne_nil b text)

/-- A transcript is no shorter than its text. -/
theorem length_le_length_apply (text : List UInt8) : text.length ≤ (t.apply text).length := by
  induction text with
  | nil => exact Nat.le_refl _
  | cons b text ih =>
    have hpos := List.length_pos_iff.mpr (t.run_ne_nil b)
    rw [apply_cons, List.length_append, List.length_cons]
    omega

variable {t}

theorem CoversAll.of_suffix {behind : List UInt8} (h : t.CoversAll text) (hs : behind <:+ text) :
    t.CoversAll behind := fun b hb ↦ h b (hs.subset hb)

theorem CoversAll.tail {b : UInt8} (h : t.CoversAll (b :: text)) : t.CoversAll text :=
  h.of_suffix (List.suffix_cons b text)

/-- The transcript begins with another byte than the quote, if the text does. -/
theorem exists_apply_eq_cons {b : UInt8} (h : t.CoversAll (b :: text)) (hb : b ≠ d.quote) :
    ∃ c behind, t.apply (b :: text) = c :: behind ∧ c ≠ d'.quote := by
  obtain ⟨c, run, hrun⟩ := List.exists_cons_of_ne_nil (t.run_ne_nil b)
  refine ⟨c, run ++ t.apply text, ?_, ?_⟩
  · rw [apply_cons, hrun]
    rfl
  · rintro rfl
    apply t.quote_notMem_run (h b (.head _)) hb
    rw [hrun]
    exact .head _

section Front

variable {p p' : UInt8 → Bool}

/-- Where the bytes of each run answer a question like the byte itself, the transcript of the bytes
in front that say yes is what says yes in front of the transcript. -/
theorem takeWhile_apply (h : ∀ b ∈ text, ∀ c ∈ t.run b, p' c = p b) :
    (t.apply text).takeWhile p' = t.apply (text.takeWhile p) := by
  induction text with
  | nil => rfl
  | cons b text ih =>
    rw [apply_cons]
    cases hb : p b with
    | true =>
      rw [List.takeWhile_append_of_pos fun c hc ↦ (h b (.head _) c hc).trans hb,
        List.takeWhile_cons_of_pos hb, apply_cons, ih fun c hc ↦ h c (.tail _ hc)]
    | false =>
      obtain ⟨c, run, hrun⟩ := List.exists_cons_of_ne_nil (t.run_ne_nil b)
      have hc : p' c = false := (h b (.head _) c (by rw [hrun]; exact .head _)).trans hb
      rw [hrun, List.cons_append, List.takeWhile_cons_of_neg (by simp [hc]),
        List.takeWhile_cons_of_neg (by simp [hb])]
      rfl

theorem dropWhile_apply (h : ∀ b ∈ text, ∀ c ∈ t.run b, p' c = p b) :
    (t.apply text).dropWhile p' = t.apply (text.dropWhile p) := by
  induction text with
  | nil => rfl
  | cons b text ih =>
    cases hb : p b with
    | true =>
      rw [apply_cons, List.dropWhile_append_of_pos fun c hc ↦ (h b (.head _) c hc).trans hb,
        List.dropWhile_cons_of_pos hb, ih fun c hc ↦ h c (.tail _ hc)]
    | false =>
      obtain ⟨c, run, hrun⟩ := List.exists_cons_of_ne_nil (t.run_ne_nil b)
      have hc : p' c = false := (h b (.head _) c (by rw [hrun]; exact .head _)).trans hb
      rw [List.dropWhile_cons_of_neg (by simp [hb]), apply_cons, hrun, List.cons_append,
        List.dropWhile_cons_of_neg (by simp [hc])]

end Front

/-- A quoted value and the text behind it are transcribed apart. -/
theorem quoted_apply (h : t.CoversAll text) :
    quoted d'.quote (t.apply text) =
      (t.apply (quoted d.quote text).1, (quoted d.quote text).2.map t.apply) := by
  fun_induction quoted d.quote text with
  | case1 => rfl
  | case2 =>
    rw [apply_quote_cons]
    exact quoted_of_head? (Option.some_ne_none _).symm
  | case3 behind ih =>
    rw [apply_quote_cons, apply_quote_cons, quoted_pair, ih h.tail.tail, prepend, prepend,
      apply_quote_cons]
  | case4 c behind hc =>
    obtain ⟨e, run, hrun, he⟩ := exists_apply_eq_cons h.tail hc
    rw [apply_quote_cons, quoted_of_head?]
    · rfl
    · rw [hrun]
      exact fun hhead ↦ he (Option.some.inj hhead)
  | case5 b text hb ih =>
    rw [apply_cons, quoted_append_of_notMem (t.quote_notMem_run (h b (.head _)) hb), ih h.tail,
      prepend, apply_cons]

/-- The text behind a delimiter is transcribed, and the delimiter ends the field as before. -/
theorem closing_apply (h : t.CoversAll text) (hdelimits : Delimits d text) :
    closing d' (t.apply text) = ((closing d text).1, t.apply (closing d text).2) := by
  cases text with
  | nil => rfl
  | cons b text =>
    rw [apply_cons]
    exact t.closing_run (hdelimits b rfl) h

variable (t)

/-- A field with all its text transcribed. -/
def field (f : Field) : Field :=
  { f with value := t.apply f.value, dropped := t.apply f.dropped, rest := t.apply f.rest }

variable {t}

theorem closed_apply (h : t.CoversAll text) (hdelimits : Delimits d text)
    (value dropped : List UInt8) :
    closed d' (t.apply value) (t.apply dropped) (t.apply text) =
      t.field (closed d value dropped text) := by
  rw [closed, closing_apply h hdelimits]
  rfl

/-- The field in front of the transcript is the transcript of the field in front. -/
theorem field_apply (h : t.CoversAll text) :
    Grammar.field d' (t.apply text) = t.field (Grammar.field d text) := by
  have htake {text : List UInt8} (h : t.CoversAll text) :
      (t.apply text).takeWhile d'.isPlain = t.apply (text.takeWhile d.isPlain) :=
    takeWhile_apply fun b hb c hc ↦ t.isPlain_of_mem_run (h b hb) hc
  have hdrop {text : List UInt8} (h : t.CoversAll text) :
      (t.apply text).dropWhile d'.isPlain = t.apply (text.dropWhile d.isPlain) :=
    dropWhile_apply fun b hb c hc ↦ t.isPlain_of_mem_run (h b hb) hc
  have hclosed {text : List UInt8} (h : t.CoversAll text) (value dropped : List UInt8) :
      closed d' (t.apply value) (t.apply dropped) (t.apply (text.dropWhile d.isPlain)) =
        t.field (closed d value dropped (text.dropWhile d.isPlain)) :=
    closed_apply (h.of_suffix (List.dropWhile_suffix _)) (delimits_dropWhile d text) value dropped
  cases text with
  | nil => rfl
  | cons b text =>
    by_cases hb : b = d.quote
    · subst hb
      rw [apply_quote_cons, Grammar.field, Grammar.field, if_pos rfl, if_pos rfl,
        quoted_apply h.tail]
      cases hquoted : quoted d.quote text with
      | mk value closed =>
        cases closed with
        | none => rfl
        | some behind =>
          have hbehind := h.tail.of_suffix (quoted_suffix hquoted)
          show closed d' _ ((t.apply behind).takeWhile _) ((t.apply behind).dropWhile _) = _
          rw [htake hbehind, hdrop hbehind, hclosed hbehind]
          rfl
    · obtain ⟨c, behind, hrun, hc⟩ := exists_apply_eq_cons h hb
      rw [hrun, Grammar.field, Grammar.field, if_neg hb, if_neg hc, ← hrun, htake h, hdrop h]
      exact hclosed h _ []

/-- The fields of the row in front are transcribed one by one. -/
theorem row_apply (h : t.CoversAll text) : row d' (t.apply text) = (row d text).map t.field := by
  have hfield := field_apply h
  fun_induction row d text with
  | case1 text hb => rw [row_of_record (by rw [hfield]; exact hb), hfield]; rfl
  | case2 text hb ih =>
    have hrest := h.of_suffix (rest_suffix d text)
    rw [row_of_field (by rw [hfield]; exact hb), hfield, List.map_cons,
      ← ih hrest (field_apply hrest)]
    rfl

theorem values_apply (h : t.CoversAll text) :
    values d' (t.apply text) = (values d text).map t.apply := by
  rw [values, values, row_apply h, List.map_map, List.map_map]
  rfl

theorem behindRow_apply (h : t.CoversAll text) :
    behindRow d' (t.apply text) = t.apply (behindRow d text) := by
  have hfield := field_apply h
  fun_induction behindRow d text with
  | case1 text hb => rw [behindRow_of_record (by rw [hfield]; exact hb), hfield]; rfl
  | case2 text hb ih =>
    have hrest := h.of_suffix (rest_suffix d text)
    rw [behindRow_of_field (by rw [hfield]; exact hb), hfield, ← ih hrest (field_apply hrest)]
    rfl

theorem recordStart_apply (h : t.CoversAll text) :
    recordStart d' (t.apply text) = t.apply (recordStart d text) := by
  unfold recordStart
  rw [t.skipBlankLines]
  split
  · exact dropWhile_apply fun b hb c hc ↦ t.isLineEnding_of_mem_run (h b hb) hc
  · rfl

/-- The rows of the transcript begin where the rows of the text do. -/
theorem starts_apply (h : t.CoversAll text) :
    starts d' (t.apply text) = (starts d text).map t.apply := by
  have hstart := recordStart_apply h
  fun_induction starts d text with
  | case1 text hs =>
    rw [hs] at hstart
    exact starts_of_eq_nil hstart
  | case2 text hs ih =>
    have hcovers := h.of_suffix (recordStart_suffix d text)
    have hbehind := hcovers.of_suffix (behindRow_suffix d (recordStart d text))
    rw [starts_of_ne_nil (by rwa [hstart, Ne, apply_eq_nil_iff]), hstart,
      behindRow_apply hcovers, ih hbehind (recordStart_apply hbehind), List.map_cons]

/-- The rows of the transcript are the rows of the text, each field transcribed. -/
theorem table_apply (h : t.CoversAll text) :
    table d' (t.apply text) = (table d text).map (List.map t.apply) := by
  rw [table, table, starts_apply h, List.map_map, List.map_map]
  exact List.map_congr_left fun start hstart ↦
    values_apply (h.of_suffix (suffix_of_mem_starts hstart))

end Transcription
end Delimited
