import Delimited.Text.Property

/-!
# Quoted literals for messages

A character or a text is shown between marks, with a backslash before what would be misread:
the marks themselves, the backslash, line breaks, tabs and the null character. Whatever cannot be
printed as itself is shown by its code point in lowercase hexadecimal digits without padding.
-/

namespace Delimited.Text

/-- Which quotation marks are written with a backslash before them. -/
structure Marks where
  single : Bool
  double : Bool
  deriving DecidableEq, Repr

namespace Marks

/-- Inside single quotation marks only the single mark is escaped. -/
def insideSingle : Marks := ⟨true, false⟩

/-- Inside double quotation marks only the double mark is escaped. -/
def insideDouble : Marks := ⟨false, true⟩

/-- Text whose reader does not know the marks around it escapes both. -/
def both : Marks := ⟨true, true⟩

end Marks

/-- Lowercase hexadecimal digits without padding. -/
def hexadecimal (n : Nat) : String := String.ofList (Nat.toDigits 16 n)

/-- A character by its code point. -/
def codePoint (c : Char) : String := "\\u\x7b" ++ hexadecimal c.toNat ++ "\x7d"

/-- One character of a quoted literal. -/
def escaped (marks : Marks) (c : Char) : String :=
  if c = '\x00' then "\\0"
  else if c = '\t' then "\\t"
  else if c = '\n' then "\\n"
  else if c = '\r' then "\\r"
  else if c = '\\' then "\\\\"
  else if c = '\x22' then if marks.double then "\\\"" else "\""
  else if c = '\x27' then if marks.single then "\\\x27" else "\x27"
  else if isExtending c || isUnprintable c then codePoint c
  else String.singleton c

/-- A character between single quotation marks. -/
def quotedChar (c : Char) : String := "\x27" ++ escaped .insideSingle c ++ "\x27"

/-- The byte, taken as one of the first 256 characters, between single quotation marks. -/
def quotedByte (b : UInt8) : String := quotedChar (Char.ofNat b.toNat)

/-- A text between double quotation marks. -/
def quoted (text : String) : String :=
  "\"" ++ String.join (text.toList.map (escaped .insideDouble)) ++ "\""

end Delimited.Text
