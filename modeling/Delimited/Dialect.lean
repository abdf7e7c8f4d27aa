import Delimited.Text.Quoted

/-!
# The bytes that structure delimited text

A dialect names the byte between fields and the byte around quoted fields, and says whether blank
lines count as records. Line endings are the same in every dialect. A dialect is usable when its
two bytes can be told apart from each other and from line endings.
-/

namespace Delimited

/-- The byte that ends a line. -/
def lineFeed : UInt8 := 10

/-- The byte that ends a line, alone or together with a line feed right after it. -/
def carriageReturn : UInt8 := 13

/-- Whether the byte begins a line ending. -/
def isLineEnding (b : UInt8) : Bool := b == lineFeed || b == carriageReturn

/-- How records are written: comma and double quotation mark, blank lines kept, unless said
otherwise. Specification 10.3, `Dialect`. -/
structure Dialect where
  /-- Ends a field without ending its record. -/
  separator : UInt8 := 44
  /-- Opens and closes a quoted field; doubled inside one, it stands for itself. -/
  quote : UInt8 := 34
  /-- Whether line endings before a record are consumed instead of making records of their own. -/
  skipBlankLines : Bool := false
  deriving DecidableEq, Repr, Inhabited

/-- Why a dialect cannot be used. Specification 10.3, `DialectError`. -/
inductive DialectError where
  | separatorIsQuote (b : UInt8)
  | lineTerminator (b : UInt8)
  deriving DecidableEq, Repr

/-- The wording of a refusal. -/
def DialectError.message : DialectError → String
  | .separatorIsQuote b => "separator and quote are both " ++ Text.quotedByte b
  | .lineTerminator b =>
    "line terminator " ++ Text.quotedByte b ++ " cannot be used as separator or quote"

namespace Dialect

/-- Refuses a dialect whose bytes are ambiguous. A line ending is reported before equal bytes, and
the separator before the quote. Specification 10.3, `validate`. -/
def validate (d : Dialect) : Except DialectError Unit :=
  if isLineEnding d.separator then .error (.lineTerminator d.separator)
  else if isLineEnding d.quote then .error (.lineTerminator d.quote)
  else if d.separator = d.quote then .error (.separatorIsQuote d.separator)
  else .ok ()

/-- The usable dialects: separator, quote and line endings are all distinct. -/
theorem validate_eq_ok_iff (d : Dialect) :
    d.validate = .ok () ↔
      isLineEnding d.separator = false ∧ isLineEnding d.quote = false ∧
        d.separator ≠ d.quote := by
  unfold validate
  cases isLineEnding d.separator <;> cases isLineEnding d.quote <;>
    by_cases h : d.separator = d.quote <;> simp [h]

end Dialect
end Delimited
