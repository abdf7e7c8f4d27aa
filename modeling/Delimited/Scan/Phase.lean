import Delimited.Dialect

/-!
# The phases of scanning

Scanning looks at one byte at a time, without consuming it. The phase and that byte decide on the
next phase and on what happens to the byte. Some transitions leave the byte where it is, for the
next phase to look at; they lead down a ranking of the phases, so that they come to an end.
-/

namespace Delimited

/-- How far scanning has come within a field, or before a record. Specification 10.5,
`ScanState`. -/
inductive Phase where
  /-- At the first byte of a field. -/
  | fieldStart
  /-- Within a field without quotes around it. -/
  | unquoted
  /-- Within a quoted field. -/
  | quoted
  /-- Behind a quote within a quoted field: the first of a pair, or the closing one. -/
  | quoteSeen
  /-- Behind a closing quote, where bytes are left out up to the next delimiter. -/
  | afterQuoted
  /-- Before a record, where line endings are consumed. -/
  | betweenRecords
  /-- At the end of the stream. -/
  | ended
  deriving DecidableEq, Repr

/-- The bytes that end a field. -/
inductive Delimiter where
  /-- Another field follows. -/
  | separator
  /-- The record ends. -/
  | lineFeed
  /-- The record ends, and a line feed right after it is part of the line ending. -/
  | carriageReturn
  deriving DecidableEq, Repr

/-- What happens to the byte in view. Specification 10.5, `Action`. -/
inductive Action where
  /-- It becomes part of the field. -/
  | append
  /-- It is consumed and left out. -/
  | drop
  /-- It stays in view. -/
  | stay
  /-- It is consumed as a delimiter, which ends the field. -/
  | close (delimiter : Delimiter)
  /-- There is none. The record and the stream end. -/
  | finish
  deriving DecidableEq, Repr

/-- The delimiter that a byte is, if it is one. The separator comes first, should it be the byte of
a line ending too. The helper `delimiter` of `transition`. -/
def Dialect.delimiter? (d : Dialect) (b : UInt8) : Option Delimiter :=
  if b = d.separator then some .separator
  else if b = lineFeed then some .lineFeed
  else if b = carriageReturn then some .carriageReturn
  else none

namespace Phase

/-- One step: the next phase, and what happens to the byte in view. Specification 10.5,
`transition`. -/
def step (d : Dialect) : Phase → Option UInt8 → Phase × Action
  | .ended, _ => (.ended, .finish)
  | _, none => (.ended, .finish)
  | .fieldStart, some b => if b = d.quote then (.quoted, .drop) else (.unquoted, .stay)
  | .unquoted, some b =>
    match d.delimiter? b with
    | some delimiter => (.fieldStart, .close delimiter)
    | none => (.unquoted, .append)
  | .quoted, some b => if b = d.quote then (.quoteSeen, .drop) else (.quoted, .append)
  | .quoteSeen, some b => if b = d.quote then (.quoted, .append) else (.afterQuoted, .stay)
  | .afterQuoted, some b =>
    match d.delimiter? b with
    | some delimiter => (.fieldStart, .close delimiter)
    | none => (.afterQuoted, .drop)
  | .betweenRecords, some b =>
    if isLineEnding b then (.betweenRecords, .drop) else (.fieldStart, .stay)

/-- The most transitions that can leave the byte in view. -/
def rank : Phase → Nat
  | .betweenRecords => 2
  | .fieldStart | .quoteSeen => 1
  | _ => 0

/-- A transition that leaves the byte in view leads to a phase of lower rank. -/
theorem rank_lt_of_stay {d : Dialect} {s next : Phase} {b : UInt8}
    (h : step d s (some b) = (next, .stay)) : next.rank < s.rank := by
  unfold step at h
  split at h
  case h_1 => cases h
  case h_2 => cases h
  all_goals split at h <;> cases h <;> decide

end Phase
end Delimited
