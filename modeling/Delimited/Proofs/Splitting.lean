import Delimited.Proofs.Collecting
import Delimited.Scan.Split

/-!
# What splitting gives

A scanner that is driven by hand gives the rows that the grammar sees, whatever its dialect.
-/

namespace Delimited

namespace Scanner

variable {σ ε : Type} [Source σ ε] {alloc : Allocator} {d : Dialect} {text : List UInt8}

theorem takeAll_addField (values row : List (List UInt8)) :
    takeAll addField values row = .ok () (row ++ values) := by
  induction values generalizing row with
  | nil => rw [List.append_nil]; rfl
  | cons value values ih =>
    show takeAll addField values (row ++ [value]) = _
    rw [ih, List.append_assoc]
    rfl

section Rows

variable {s t u v : Scanner σ} {row : List (List UInt8)} {rows : List (List (List UInt8))}
  {fields : Nat}

/-- Without a byte in view there are no more rows. -/
theorem readRows_of_isAtEnd (hskip : skipBlankLines s = .ok () t) (hend : t.isAtEnd = true) :
    s.readRows alloc = .ok [] t := by
  rw [readRows]
  split
  · next h =>
    rw [hskip] at h
    cases h
  · next h =>
    rw [hskip] at h
    cases h
    rw [dif_pos hend]

/-- A row that is read comes before the rows behind it. -/
theorem readRows_of_readRow (hskip : skipBlankLines s = .ok () t) (hend : t.isAtEnd = false)
    (hrow : t.readRow alloc addField 0 [] = .ok fields (u, row))
    (hrows : u.readRows alloc = .ok rows v) : s.readRows alloc = .ok (row :: rows) v := by
  rw [readRows]
  split
  · next h =>
    rw [hskip] at h
    cases h
  · next h =>
    rw [hskip] at h
    cases h
    rw [dif_neg (by rw [hend]; exact Bool.false_ne_true)]
    split
    · next h =>
      rw [hrow] at h
      cases h
    · next h =>
      rw [hrow] at h
      cases h
      rw [hrows]

end Rows

/-- The rows to come are those of the text before the scanner. -/
theorem readRows_eq_table {s : Scanner σ} (hg : alloc.GrantsFor text.length)
    (h : s.At d text (.done : Ending ε)) (hfits : text.length ≤ memoryLimit) :
    ∃ t, s.readRows alloc = .ok (Grammar.table d text) t := by
  unfold Grammar.table
  obtain ⟨u, t, hskip, hat, -⟩ := (leaves_skipBlankLines h).ok (.inr rfl)
  fun_induction Grammar.starts d text generalizing s u t with
  | case1 text hs => exact ⟨t, readRows_of_isAtEnd hskip (hat.isAtEnd_iff.mpr hs)⟩
  | case2 text hs ih =>
    have hstart := Grammar.length_recordStart_le d text
    have hbehind := Grammar.length_behindRow_le d (Grammar.recordStart d text)
    obtain ⟨v, hrow, hat', -⟩ :=
      readRow_eq_ok 0 (hg.mono hstart) hat (by omega) (.inr rfl) (takeAll_addField _ [])
    obtain ⟨w, x, hskip', hat'', -⟩ := (leaves_skipBlankLines hat').ok (.inr rfl)
    obtain ⟨y, hrows⟩ := ih (hg.mono (by omega)) hat' (by omega) w x hskip' hat''
    exact ⟨y, readRows_of_readRow hskip (hat.isAtEnd_eq_false_iff.mpr hs) hrow hrows⟩

end Scanner

/-- Splitting gives the table of the bytes. -/
theorem splitRows_eq_table {alloc : Allocator} {bytes : List UInt8}
    (hg : alloc.GrantsFor bytes.length) (d : Dialect) (hfits : bytes.length < memoryLimit) :
    splitRows alloc bytes d = .ok (Grammar.table d bytes) := by
  obtain ⟨scanner, hcreate, hfit⟩ := Scanner.create_of_grantsFor (σ := ListSource) hg d
  obtain ⟨u, s, hattach, hat, -⟩ :=
    (Scanner.leaves_attach hfit (ListSource.gives bytes)).ok (.inr rfl)
  obtain ⟨t, hrows⟩ := Scanner.readRows_eq_table hg hat (by omega)
  rw [splitRows, hcreate]
  dsimp only
  rw [hattach]
  dsimp only
  rw [hrows]

end Delimited
