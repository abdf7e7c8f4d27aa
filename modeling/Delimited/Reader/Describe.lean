import Delimited.Reader
import Delimited.Text.Quoted
import Delimited.Text.Utf8

/-!
# Readers as text

A reader over bytes in memory is described by those bytes as numbers, its dialect, and the keys
that it holds. A key is shown as quoted text. Bytes that are not well-formed UTF-8, and the
ASCII control characters that have no name of their own, are shown as two hexadecimal digits each.
-/

namespace Delimited

namespace Text

/-- Two hexadecimal digits in lowercase. -/
def twoDigits (n : Nat) : String := String.ofList [Nat.digitChar (n / 16), Nat.digitChar (n % 16)]

/-- A byte by its number. -/
def describeByte (b : UInt8) : String := "\\x" ++ twoDigits b.toNat

/-- Whether the character is one of the ASCII controls that are shown as a byte: all but the null
character, the tab and the two line breaks, which have names. -/
def isBareControl (c : Char) : Bool :=
  (c.toNat < 0x20 || c.toNat = 0x7f) && !(c = '\x00' || c = '\t' || c = '\n' || c = '\r')

/-- A piece of a byte string, quoted. -/
def describePiece : Utf8.Piece → String
  | .malformed bytes => String.join (bytes.map describeByte)
  | .char c => if isBareControl c then describeByte c.toNat.toUInt8 else escaped .both c

/-- A byte string between double quotation marks. -/
def describeBytes (bytes : List UInt8) : String :=
  "\"" ++ String.join ((Utf8.pieces bytes).map describePiece) ++ "\""

end Text

/-- A list between brackets. -/
def describeList {α : Type} (describe : α → String) (items : List α) : String :=
  "[" ++ String.intercalate ", " (items.map describe) ++ "]"

/-- Bytes as numbers. -/
def describeNumbers (bytes : List UInt8) : String :=
  describeList (fun b ↦ toString b.toNat) bytes

/-- The three settings of a dialect by name. -/
def Dialect.describe (d : Dialect) : String :=
  "Dialect \x7b separator: " ++ toString d.separator.toNat ++
    ", quote: " ++ toString d.quote.toNat ++
    ", skip_blank_lines: " ++ (if d.skipBlankLines then "true" else "false") ++ " \x7d"

/-- The origin, the dialect and the keys of a reader by name, given the text of the origin. -/
def Reader.describe {π σ : Type} (origin : π → String) (r : Reader π σ) : String :=
  "CsvReader \x7b provider: " ++ origin r.origin ++
    ", dialect: " ++ r.dialect.describe ++
    ", keys: " ++ describeList Text.describeBytes r.keys ++ ", .. \x7d"

end Delimited
