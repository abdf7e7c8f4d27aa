import Delimited.Proofs.Splitting
import Delimited.Proofs.Transcription
import Mathlib.Logic.Equiv.Basic

/-!
# No byte is special

Apart from the separator, the quote and the two bytes of line endings it does not matter which bytes
a text consists of. Where bytes are exchanged for others in the text and in the dialect alike, they
are exchanged in the fields, and nothing else happens. The dialect may be ambiguous.
-/

namespace Delimited

/-- The dialect with other bytes for the separator and the quote. -/
def Dialect.rename (p : UInt8 → UInt8) (d : Dialect) : Dialect :=
  { d with separator := p d.separator, quote := p d.quote }

/-- The permutation leaves the two bytes of line endings where they are. -/
structure FixesLineEndings (p : Equiv.Perm UInt8) : Prop where
  lineFeed : p lineFeed = lineFeed
  carriageReturn : p carriageReturn = carriageReturn

namespace FixesLineEndings

variable {p : Equiv.Perm UInt8} (h : FixesLineEndings p) {b : UInt8}
include h

theorem eq_lineFeed_iff : p b = Delimited.lineFeed ↔ b = Delimited.lineFeed :=
  p.injective.eq_iff' h.lineFeed

theorem eq_carriageReturn_iff : p b = Delimited.carriageReturn ↔ b = Delimited.carriageReturn :=
  p.injective.eq_iff' h.carriageReturn

theorem isLineEnding_apply (b : UInt8) : isLineEnding (p b) = isLineEnding b := by
  rw [Bool.eq_iff_iff]
  simp only [isLineEnding, Bool.or_eq_true, beq_iff_eq, h.eq_lineFeed_iff,
    h.eq_carriageReturn_iff]

theorem isPlain_apply (d : Dialect) (b : UInt8) : (d.rename p).isPlain (p b) = d.isPlain b := by
  have hseparator : (p b == p d.separator) = (b == d.separator) := by
    rw [Bool.eq_iff_iff, beq_iff_eq, beq_iff_eq, p.injective.eq_iff]
  rw [Dialect.isPlain, Dialect.isPlain, h.isLineEnding_apply]
  exact congrArg (fun separates ↦ !(separates || isLineEnding b)) hseparator

/-- A byte ends a field as it did under its old name. -/
theorem closing_map (d : Dialect) (b : UInt8) (text : List UInt8) :
    Grammar.closing (d.rename p) (p b :: text.map p) =
      ((Grammar.closing d (b :: text)).1, (Grammar.closing d (b :: text)).2.map p) := by
  have hpair : (p b = Delimited.carriageReturn ∧ (text.map p).head? = some Delimited.lineFeed) ↔
      b = Delimited.carriageReturn ∧ text.head? = some Delimited.lineFeed := by
    rw [h.eq_carriageReturn_iff, List.head?_map, Option.map_eq_some_iff]
    simp only [h.eq_lineFeed_iff, exists_eq_right]
  have hseparator : p b = (d.rename p).separator ↔ b = d.separator := p.injective.eq_iff
  rw [Grammar.closing, Grammar.closing]
  simp only [hseparator, hpair]
  split
  · rfl
  · split
    · rw [List.map_tail]
    · rfl

/-- Texts are transcribed by writing other bytes. -/
def transcription (d : Dialect) : Transcription d (d.rename p) where
  run b := [p b]
  Covers _ := True
  skipBlankLines := rfl
  run_ne_nil b := List.cons_ne_nil _ _
  run_quote := rfl
  quote_notMem_run _ hb hmem := hb (p.injective (List.mem_singleton.mp hmem)).symm
  isPlain_of_mem_run _ hmem := by
    rw [List.mem_singleton.mp hmem]
    exact h.isPlain_apply d _
  isLineEnding_of_mem_run _ hmem := by
    rw [List.mem_singleton.mp hmem]
    exact h.isLineEnding_apply _
  closing_run {b text} _ _ := by
    rw [← List.map_eq_flatMap, ← List.map_eq_flatMap]
    exact h.closing_map d b text

theorem apply_transcription (d : Dialect) (text : List UInt8) :
    (h.transcription d).apply text = text.map p := List.map_eq_flatMap.symm

/-- The rows of the renamed text are the rows of the text, each field renamed. -/
theorem table_map (d : Dialect) (text : List UInt8) :
    Grammar.table (d.rename p) (text.map p) =
      (Grammar.table d text).map (List.map (List.map p)) := by
  have happly : (h.transcription d).apply = List.map p := funext (h.apply_transcription d)
  have hcovers : (h.transcription d).CoversAll text := fun b _ ↦ trivial
  have htable := Transcription.table_apply hcovers
  rwa [happly] at htable

end FixesLineEndings

/-- Splitting does not depend on which bytes a text consists of, in any dialect: if bytes are
exchanged by a permutation that leaves line endings alone, and separator and quote with them, the
rows are the same, but for their fields, in which the bytes are exchanged. -/
theorem splitting_commutes_with_renaming (alloc : Allocator) (d : Dialect) (p : Equiv.Perm UInt8)
    (bytes : List UInt8) (hg : alloc.GrantsFor bytes.length) (hp : FixesLineEndings p)
    (hfits : bytes.length < memoryLimit) :
    ∃ rows, splitRows alloc bytes d = .ok rows ∧
      splitRows alloc (bytes.map p) (d.rename p) = .ok (rows.map (List.map (List.map p))) := by
  refine ⟨_, splitRows_eq_table hg d hfits, ?_⟩
  have hlength : (bytes.map p).length = bytes.length := List.length_map p
  rw [splitRows_eq_table (hlength.symm ▸ hg) _ (hlength.symm ▸ hfits), hp.table_map]

/-- A dialect in which one byte is both separator and quote. It is exchanged with the null byte. -/
theorem splitting_commutes_with_renaming_of_null :
    let d : Dialect := { separator := 34, quote := 34 }
    let p : Equiv.Perm UInt8 := Equiv.swap 34 0
    let bytes : List UInt8 := [97, 34, 0, 10, 34, 98, 34, 34, 99, 34, 13, 10, 0]
    bytes.map p = [97, 0, 34, 10, 0, 98, 0, 0, 99, 0, 13, 10, 34] ∧
      splitRows .unlimited bytes d = .ok [[[97], [0]], [[98, 34, 99]], [[0]]] ∧
      splitRows .unlimited (bytes.map p) { separator := 0, quote := 0 } =
        .ok [[[97], [34]], [[98, 0, 99]], [[34]]] := by
  intro d p bytes
  obtain ⟨rows, hrows, hrenamed⟩ := splitting_commutes_with_renaming .unlimited d p bytes
    (Allocator.grantsFor_unlimited _) ⟨by decide, by decide⟩ (by decide)
  have hsplit : splitRows .unlimited bytes d = .ok [[[97], [0]], [[98, 34, 99]], [[0]]] := by
    rw [splitRows_eq_table (Allocator.grantsFor_unlimited _) d (by decide)]
    exact congrArg Except.ok (by decide +kernel)
  rw [hsplit] at hrows
  cases hrows
  exact ⟨by decide, hsplit, hrenamed⟩

end Delimited
