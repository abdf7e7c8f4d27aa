/-!
# Tokens of JSON text

The lexical grammar of JSON: structural characters, literal names, numbers and strings, with blank
characters between them. A number keeps its value only when it is written with digits alone. A
string keeps its text only when it names one: an escaped surrogate that is not half of a pair is
lexically sound and names no character.
-/

namespace Delimited.Json

/-- The lexical units of JSON. -/
inductive Token where
  | beginObject
  | endObject
  | beginArray
  | endArray
  | comma
  | colon
  | null
  | bool (value : Bool)
  | number (natural : Option Nat)
  | string (text : Option String)
  deriving DecidableEq, Repr

/-- A part of a string literal: a character, or an escaped half of a surrogate pair. -/
inductive StringPart where
  | char (c : Char)
  | surrogate (unit : Nat)
  deriving DecidableEq, Repr

/-- The four characters that may stand between tokens. -/
def isBlank (c : Char) : Bool := c = ' ' || c = '\n' || c = '\t' || c = '\r'

/-- The value of a hexadecimal digit of either case. -/
def hexDigit? (c : Char) : Option Nat :=
  if '0' ≤ c ∧ c ≤ '9' then some (c.toNat - '0'.toNat)
  else if 'a' ≤ c ∧ c ≤ 'f' then some (c.toNat - 'a'.toNat + 10)
  else if 'A' ≤ c ∧ c ≤ 'F' then some (c.toNat - 'A'.toNat + 10)
  else none

/-- The part that four hexadecimal digits escape. -/
def escapedUnit? (a b c d : Char) : Option StringPart := do
  let unit := (((← hexDigit? a) * 16 + (← hexDigit? b)) * 16 + (← hexDigit? c)) * 16 +
    (← hexDigit? d)
  return if 0xd800 ≤ unit ∧ unit ≤ 0xdfff then .surrogate unit else .char (Char.ofNat unit)

/-- The character that a one-letter escape stands for. -/
def escapedChar? (c : Char) : Option Char :=
  if c = '\x22' ∨ c = '\\' ∨ c = '/' then some c
  else if c = 'b' then some '\x08'
  else if c = 'f' then some '\x0c'
  else if c = 'n' then some '\n'
  else if c = 'r' then some '\r'
  else if c = 't' then some '\t'
  else none

/-- The parts of a string literal up to its closing quotation mark, and what follows the mark.
Control characters must be escaped. -/
def stringParts? : List Char → Option (List StringPart × List Char)
  | [] => none
  | '\x22' :: rest => some ([], rest)
  | '\\' :: 'u' :: a :: b :: c :: d :: rest => do
    let part ← escapedUnit? a b c d
    let (parts, rest) ← stringParts? rest
    return (part :: parts, rest)
  | '\\' :: c :: rest => do
    let c ← escapedChar? c
    let (parts, rest) ← stringParts? rest
    return (.char c :: parts, rest)
  | c :: rest =>
    if c < ' ' then none
    else do
      let (parts, rest) ← stringParts? rest
      return (.char c :: parts, rest)

/-- The characters that the parts name. The halves of a pair name one character together, and a
half without its partner names none. -/
def chars? : List StringPart → Option (List Char)
  | [] => some []
  | .char c :: rest => (chars? rest).map (c :: ·)
  | .surrogate high :: .surrogate low :: rest =>
    if high < 0xdc00 ∧ 0xdc00 ≤ low then
      (chars? rest).map (Char.ofNat (0x10000 + (high - 0xd800) * 0x400 + (low - 0xdc00)) :: ·)
    else none
  | .surrogate _ :: _ => none

/-- The number that decimal digits write. -/
def decimal (digits : List Char) : Nat :=
  digits.foldl (fun n c ↦ n * 10 + (c.toNat - '0'.toNat)) 0

/-- Drops a non-empty run of digits. -/
def dropDigits? : List Char → Option (List Char)
  | [] => none
  | c :: rest => if c.isDigit then some (rest.dropWhile Char.isDigit) else none

/-- Drops a fraction, where there is one. -/
def dropFraction? : List Char → Option (List Char)
  | '.' :: rest => dropDigits? rest
  | s => some s

/-- Drops an exponent, where there is one. -/
def dropExponent? : List Char → Option (List Char)
  | c :: rest =>
    if c = 'e' ∨ c = 'E' then
      match rest with
      | '+' :: rest => dropDigits? rest
      | '-' :: rest => dropDigits? rest
      | rest => dropDigits? rest
    else some (c :: rest)
  | [] => some []

/-- The digits before a fraction, which begin with zero only when zero is the only one. -/
def integer? : List Char → Option (List Char × List Char)
  | [] => none
  | c :: rest =>
    if c = '0' then some (['0'], rest)
    else if c.isDigit then some (c :: rest.takeWhile Char.isDigit, rest.dropWhile Char.isDigit)
    else none

/-- A number without its sign. Its value is kept when neither fraction nor exponent follows. -/
def unsigned? (s : List Char) : Option (Option Nat × List Char) := do
  let (digits, rest) ← integer? s
  let afterFraction ← dropFraction? rest
  let afterExponent ← dropExponent? afterFraction
  return (if afterExponent.length = rest.length then some (decimal digits) else none,
    afterExponent)

/-- The token that begins with the character, and what follows it. -/
def next? (c : Char) (rest : List Char) : Option (Token × List Char) :=
  match c with
  | '\x7b' => some (.beginObject, rest)
  | '\x7d' => some (.endObject, rest)
  | '[' => some (.beginArray, rest)
  | ']' => some (.endArray, rest)
  | ',' => some (.comma, rest)
  | ':' => some (.colon, rest)
  | '\x22' =>
    (stringParts? rest).map fun lexed ↦ (.string ((chars? lexed.1).map String.ofList), lexed.2)
  | '-' => (unsigned? rest).map fun lexed ↦ (.number none, lexed.2)
  | 'n' => match rest with
    | 'u' :: 'l' :: 'l' :: rest => some (.null, rest)
    | _ => none
  | 't' => match rest with
    | 'r' :: 'u' :: 'e' :: rest => some (.bool true, rest)
    | _ => none
  | 'f' => match rest with
    | 'a' :: 'l' :: 's' :: 'e' :: rest => some (.bool false, rest)
    | _ => none
  | c => (unsigned? (c :: rest)).map fun lexed ↦ (.number lexed.1, lexed.2)

private theorem length_stringParts {s : List Char} {parts : List StringPart} {rest : List Char}
    (h : stringParts? s = some (parts, rest)) : rest.length < s.length := by
  fun_induction stringParts? s generalizing parts rest with
  | case1 => cases h
  | case2 => cases h; simp
  | case3 a b c d r ih =>
    simp only [Option.bind_eq_bind, Option.bind_eq_some_iff, Option.pure_def] at h
    obtain ⟨_, _, ⟨_, _⟩, hr, he⟩ := h
    cases he
    have := ih hr
    simp only [List.length_cons]
    omega
  | case4 c r _ ih =>
    simp only [Option.bind_eq_bind, Option.bind_eq_some_iff, Option.pure_def] at h
    obtain ⟨_, _, ⟨_, _⟩, hr, he⟩ := h
    cases he
    have := ih hr
    simp only [List.length_cons]
    omega
  | case5 => cases h
  | case6 c r _ _ _ _ ih =>
    simp only [Option.bind_eq_bind, Option.bind_eq_some_iff, Option.pure_def] at h
    obtain ⟨⟨_, _⟩, hr, he⟩ := h
    cases he
    have := ih hr
    simp only [List.length_cons]
    omega

private theorem length_dropWhile (p : Char → Bool) (s : List Char) :
    (s.dropWhile p).length ≤ s.length :=
  (List.dropWhile_suffix p).length_le

private theorem length_dropDigits {s rest : List Char} (h : dropDigits? s = some rest) :
    rest.length < s.length := by
  unfold dropDigits? at h
  split at h
  · cases h
  · split at h
    · cases h
      have := length_dropWhile Char.isDigit ‹List Char›
      simp only [List.length_cons]
      omega
    · cases h

private theorem length_dropFraction {s rest : List Char} (h : dropFraction? s = some rest) :
    rest.length ≤ s.length := by
  unfold dropFraction? at h
  split at h
  · have := length_dropDigits h
    simp only [List.length_cons]
    omega
  · cases h
    exact Nat.le_refl _

private theorem length_dropExponent {s rest : List Char} (h : dropExponent? s = some rest) :
    rest.length ≤ s.length := by
  unfold dropExponent? at h
  split at h
  · split at h
    · split at h
      all_goals
        have := length_dropDigits h
        simp only [List.length_cons] at *
        omega
    · cases h
      exact Nat.le_refl _
  · cases h
    exact Nat.le_refl _

private theorem length_integer {s digits rest : List Char} (h : integer? s = some (digits, rest)) :
    rest.length < s.length := by
  unfold integer? at h
  split at h
  · cases h
  · split at h
    · cases h; simp
    · split at h
      · cases h
        have := length_dropWhile Char.isDigit ‹List Char›
        simp only [List.length_cons]
        omega
      · cases h

private theorem length_unsigned {s rest : List Char} {value : Option Nat}
    (h : unsigned? s = some (value, rest)) : rest.length < s.length := by
  simp only [unsigned?, Option.bind_eq_bind, Option.bind_eq_some_iff, Option.pure_def] at h
  obtain ⟨⟨_, _⟩, hi, _, hf, _, he, h⟩ := h
  cases h
  dsimp only at hf
  have := length_integer hi
  have := length_dropFraction hf
  have := length_dropExponent he
  omega

/-- Reading a token uses up its first character and never adds any. -/
theorem length_next {c : Char} {rest after : List Char} {token : Token}
    (h : next? c rest = some (token, after)) : after.length ≤ rest.length := by
  unfold next? at h
  split at h
  case h_7 =>
    obtain ⟨⟨_, _⟩, hl, he⟩ := Option.map_eq_some_iff.mp h
    cases he
    exact Nat.le_of_lt (length_stringParts hl)
  case h_8 =>
    obtain ⟨⟨_, _⟩, hl, he⟩ := Option.map_eq_some_iff.mp h
    cases he
    exact Nat.le_of_lt (length_unsigned hl)
  case h_12 =>
    obtain ⟨⟨_, _⟩, hl, he⟩ := Option.map_eq_some_iff.mp h
    cases he
    have := length_unsigned hl
    simp only [List.length_cons] at this ⊢
    omega
  all_goals first
    | (cases h; exact Nat.le_refl _)
    | (split at h
       · cases h; simp only [List.length_cons]; omega
       · cases h)

/-- The tokens of a text, or nothing when some character begins none. -/
def tokens? : List Char → Option (List Token)
  | [] => some []
  | c :: rest =>
    if isBlank c then tokens? rest
    else
      match _h : next? c rest with
      | none => none
      | some (token, after) => (tokens? after).map (token :: ·)
termination_by text => text.length
decreasing_by
  · simp
  · have := length_next _h
    simp only [List.length_cons]
    omega

end Delimited.Json
