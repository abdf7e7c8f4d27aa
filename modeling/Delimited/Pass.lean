import Delimited.Assembler
import Delimited.Scan.Row

/-!
# Passes over the rows

A pass reads row after row and builds a value of each. It is finished when no byte is in view
before a row, and after an error; a finished pass gives nothing more. Every row that is built
consumes at least one byte, so a pass comes to its end.
-/

namespace Delimited

/-- A pass in progress. Specification 10.7, the iterators of `lists` and `records`. -/
structure Pass (σ φ ρ γ : Type) where
  builder : RowBuilder φ ρ γ
  /-- The state of the assembler. -/
  state : φ
  scanner : Scanner σ
  finished : Bool := false

namespace Pass

variable {σ ε φ ρ γ : Type} [Source σ ε]

/-- Takes a field into a row in progress. -/
def placing (builder : RowBuilder φ ρ γ) (bytes : List UInt8) (row : ρ × φ) :
    EStateM.Result GrowthError (ρ × φ) Unit := .ok () (builder.place row.1 bytes row.2)

/-- Reads the next row: its value, an error, or nothing when there is none. The operations
`read_list` and `read_record`. -/
def readRow (alloc : Allocator) (p : Pass σ φ ρ γ) :
    Option (Except (ReadError ε) γ) × Pass σ φ ρ γ :=
  match Scanner.skipBlankLines p.scanner with
  | .error e scanner => (some (.error e), { p with scanner, finished := true })
  | .ok () scanner =>
    if scanner.isAtEnd then (none, { p with scanner, finished := true })
    else
      match scanner.readRow alloc (placing p.builder) 0 (p.builder.start p.state) with
      | .error e (scanner, row) =>
        (some (.error e), { p with scanner, state := row.2, finished := true })
      | .ok fields (scanner, row) =>
        (some (.ok (p.builder.finish row.1)),
          { p with scanner := scanner.note (p.builder.event fields), state := row.2 })

/-- The next item of the pass: nothing once it is finished. Specification 10.7, `next`. -/
def next (alloc : Allocator) (p : Pass σ φ ρ γ) :
    Option (Except (ReadError ε) γ) × Pass σ φ ρ γ :=
  if p.finished then (none, p) else p.readRow alloc

/-- A bound on the items to come. -/
def left (p : Pass σ φ ρ γ) : Nat := if p.finished then 0 else p.scanner.pending + 1

/-- Every item lowers the bound. -/
theorem left_lt_of_next {alloc : Allocator} {p q : Pass σ φ ρ γ} {item : Except (ReadError ε) γ}
    (h : p.next alloc = (some item, q)) : q.left < p.left := by
  unfold next at h
  split at h
  · cases h
  · next hp =>
    unfold readRow at h
    simp only [left, hp]
    split at h
    · cases h; simp
    · next scanner hseek =>
      split at h
      · cases h
      · next hn =>
        split at h
        · cases h; simp
        · next hrow =>
          cases h
          have hlt := Scanner.pending_lt_of_readRow hrow (by
            simpa [Scanner.isAtEnd] using hn)
          have hle := Scanner.pending_le_of_skipBlankLines hseek
          simp only [hp, Bool.false_eq_true, ↓reduceIte, Scanner.note, Scanner.pending] at *
          omega

/-- The answers to a number of requests for the next item. -/
def take (alloc : Allocator) :
    Nat → Pass σ φ ρ γ → List (Option (Except (ReadError ε) γ)) × Pass σ φ ρ γ
  | 0, p => ([], p)
  | n + 1, p =>
    let answered := p.next alloc
    let others := take alloc n answered.2
    (answered.1 :: others.1, others.2)

/-- All the items to come. -/
def items (alloc : Allocator) (p : Pass σ φ ρ γ) :
    List (Except (ReadError ε) γ) × Pass σ φ ρ γ :=
  match _h : p.next alloc with
  | (none, q) => ([], q)
  | (some item, q) =>
    let others := items alloc q
    (item :: others.1, others.2)
termination_by p.left
decreasing_by exact left_lt_of_next _h

/-- The values of all the rows to come, or the error that cuts them off. -/
def collect (alloc : Allocator) (p : Pass σ φ ρ γ) : Except (ReadError ε) (List γ) :=
  (p.items alloc).1.mapM id

end Pass
end Delimited
