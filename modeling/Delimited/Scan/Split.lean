import Delimited.Scan.Row
import Delimited.Source.Memory

/-!
# Splitting without a reader

A scanner can be driven by hand: it looks for a record, stops if there is none, and scans fields to
the end of the record, again and again. Nobody has checked its dialect then.
-/

namespace Delimited

namespace Scanner

variable {σ ε : Type} [Source σ ε]

/-- Adds a field at the end of a row. -/
def addField (bytes : List UInt8) (row : List (List UInt8)) :
    EStateM.Result GrowthError (List (List UInt8)) Unit := .ok () (row ++ [bytes])

/-- Reads all the rows to come. -/
def readRows (alloc : Allocator) (s : Scanner σ) :
    EStateM.Result (ReadError ε) (Scanner σ) (List (List (List UInt8))) :=
  match _hskip : skipBlankLines s with
  | .error e t => .error e t
  | .ok () t =>
    if _hend : t.isAtEnd then .ok [] t
    else
      match _hrow : t.readRow alloc addField 0 [] with
      | .error e (u, _) => .error e u
      | .ok _ (u, row) =>
        match readRows alloc u with
        | .error e v => .error e v
        | .ok rows v => .ok (row :: rows) v
termination_by s.pending
decreasing_by
  exact Nat.lt_of_lt_of_le (pending_lt_of_readRow _hrow (by simpa [isAtEnd] using _hend))
    (pending_le_of_skipBlankLines _hskip)

end Scanner

/-- The rows of bytes in memory, in a dialect that may be ambiguous. -/
def splitRows (alloc : Allocator) (bytes : List UInt8) (dialect : Dialect := {}) :
    Except (ReadError Empty) (List (List (List UInt8))) :=
  match Scanner.create alloc dialect with
  | .error e => .error (.buffer e)
  | .ok scanner =>
    match Scanner.attach (ListSource.mk bytes) scanner with
    | .error e _ => .error e
    | .ok () scanner =>
      match scanner.readRows alloc with
      | .error e _ => .error e
      | .ok rows _ => .ok rows

end Delimited
