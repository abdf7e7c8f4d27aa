/-!
# Reading bytes as UTF-8, well formed or not

A byte string is cut into pieces from left to right. A piece is one well-formed character, or the
longest run of bytes that begins some well-formed character without completing it; a byte that
begins none is a piece by itself. The bytes of the pieces, joined, are the byte string again.
Decoding with replacement shows every malformed piece as one U+FFFD.
-/

namespace Delimited.Text.Utf8

/-- A part of a byte string: a well-formed character, or bytes that form none. -/
inductive Piece where
  | char (c : Char)
  | malformed (bytes : List UInt8)
  deriving DecidableEq, Repr

/-- The range of a byte that continues a character, where its lead byte asks for no narrower one. -/
def continuation : UInt8 × UInt8 := (0x80, 0xbf)

/-- The ranges, in order, of the bytes that must come after a lead byte. The second byte of some
characters is restricted, which keeps out overlong forms, surrogates and numbers above U+10FFFF. -/
def followers? (lead : UInt8) : Option (List (UInt8 × UInt8)) :=
  if lead < 0x80 then some []
  else if lead < 0xc2 then none
  else if lead < 0xe0 then some [continuation]
  else if lead = 0xe0 then some [(0xa0, 0xbf), continuation]
  else if lead = 0xed then some [(0x80, 0x9f), continuation]
  else if lead < 0xf0 then some [continuation, continuation]
  else if lead = 0xf0 then some [(0x90, 0xbf), continuation, continuation]
  else if lead < 0xf4 then some [continuation, continuation, continuation]
  else if lead = 0xf4 then some [(0x80, 0x8f), continuation, continuation]
  else none

/-- Splits off bytes from the front as long as each lies in the range that it meets. -/
def splitFollowers : List (UInt8 × UInt8) → List UInt8 → List UInt8 × List UInt8
  | range :: ranges, b :: rest =>
    if range.1 ≤ b ∧ b ≤ range.2 then
      let split := splitFollowers ranges rest
      (b :: split.1, split.2)
    else ([], b :: rest)
  | _, rest => ([], rest)

/-- Splitting keeps every byte in its place. -/
theorem splitFollowers_append (ranges : List (UInt8 × UInt8)) (bytes : List UInt8) :
    (splitFollowers ranges bytes).1 ++ (splitFollowers ranges bytes).2 = bytes := by
  fun_induction splitFollowers ranges bytes with
  | case1 _ _ _ _ _ split ih => simp only [List.cons_append, split, ih]
  | case2 => rfl
  | case3 => rfl

/-- What is left is no longer than what was given. -/
theorem length_splitFollowers_le (ranges : List (UInt8 × UInt8)) (bytes : List UInt8) :
    (splitFollowers ranges bytes).2.length ≤ bytes.length := by
  have h := congrArg List.length (splitFollowers_append ranges bytes)
  rw [List.length_append] at h
  omega

/-- The code point of a lead byte and the bytes that complete it: each of these adds six bits, and
the lead byte gives up one bit more for each of them. -/
def codePoint (lead : UInt8) (following : List UInt8) : Nat :=
  let leading := match following.length with
    | 0 => lead.toNat
    | 1 => lead.toNat % 32
    | 2 => lead.toNat % 16
    | _ => lead.toNat % 8
  following.foldl (fun n b ↦ n * 64 + b.toNat % 64) leading

/-- Cuts a byte string into its pieces. -/
def pieces : List UInt8 → List Piece
  | [] => []
  | lead :: rest =>
    match followers? lead with
    | none => .malformed [lead] :: pieces rest
    | some ranges =>
      let split := splitFollowers ranges rest
      let piece :=
        if split.1.length = ranges.length then .char (Char.ofNat (codePoint lead split.1))
        else .malformed (lead :: split.1)
      piece :: pieces split.2
termination_by bytes => bytes.length
decreasing_by
  · simp
  · have := length_splitFollowers_le ranges rest
    simp only [List.length_cons]
    omega

/-- The character that stands for bytes that form none. -/
def replacement : Char := '\ufffd'

/-- A piece as one character. -/
def Piece.toChar : Piece → Char
  | .char c => c
  | .malformed _ => replacement

/-- Decoding that replaces each malformed piece by one replacement character. -/
def decodeLossy (bytes : List UInt8) : String :=
  String.ofList ((pieces bytes).map Piece.toChar)

end Delimited.Text.Utf8
