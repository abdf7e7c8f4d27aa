import Delimited.Dialect
import Delimited.Json.Value

/-!
# Dialects as JSON configuration

A dialect is configured by an object, whose members may come in any order, or by an array, whose
items come in a fixed order. What is not given keeps its default. An object may have further
members, which say nothing, but none of the three twice; an array may have no further items.
Reading a configuration does not check that the dialect is usable.
-/

namespace Delimited.Dialect

/-- The names of the members, in the order in which they are written. -/
inductive Setting where
  | separator
  | quote
  | skipBlankLines
  deriving DecidableEq, Repr

namespace Setting

/-- The key under which a setting is written. -/
def key : Setting → String
  | .separator => "separator"
  | .quote => "quote"
  | .skipBlankLines => "skip_blank_lines"

/-- Every setting, in the order of writing. -/
def all : List Setting := [.separator, .quote, .skipBlankLines]

/-- The setting that a key names. -/
def ofKey? (key : Option String) : Option Setting :=
  key.bind fun text ↦ all.find? fun setting ↦ setting.key == text

/-- A byte is a number below 256 written with digits alone. -/
def byte? : Json.Value → Option UInt8
  | .number (some n) => if n < 256 then some (UInt8.ofNat n) else none
  | _ => none

/-- Changes one setting, when the value is of its kind. -/
def assign? (d : Dialect) (setting : Setting) (value : Json.Value) : Option Dialect :=
  match setting, value with
  | .separator, value => (byte? value).map fun b ↦ { d with separator := b }
  | .quote, value => (byte? value).map fun b ↦ { d with quote := b }
  | .skipBlankLines, .bool skip => some { d with skipBlankLines := skip }
  | .skipBlankLines, _ => none

end Setting

/-- Applies the members of an object in order. The list holds the settings not given before. -/
def ofMembers? (d : Dialect) (missing : List Setting) :
    List (Option String × Json.Value) → Option Dialect
  | [] => some d
  | (none, _) :: _ => none
  | (some key, value) :: members =>
    match Setting.ofKey? (some key) with
    | none => ofMembers? d missing members
    | some setting =>
      if setting ∈ missing then
        (setting.assign? d value).bind fun d ↦ ofMembers? d (missing.erase setting) members
      else none

/-- Applies the items of an array to the settings in order. -/
def ofItems? (d : Dialect) : List Setting → List Json.Value → Option Dialect
  | _, [] => some d
  | [], _ :: _ => none
  | setting :: settings, value :: values =>
    (setting.assign? d value).bind fun d ↦ ofItems? d settings values

/-- The dialect that a document configures. -/
def ofValue? : Json.Value → Option Dialect
  | .object members => ofMembers? {} Setting.all members
  | .array items => ofItems? {} Setting.all items
  | _ => none

/-- The dialect that a JSON text configures, or nothing when the text is not JSON, a known member is
given twice or a value is not of its kind. Specification 10.3 and 10.10. -/
def ofJson? (text : String) : Option Dialect := (Json.parse? text).bind ofValue?

/-- The dialect as a JSON object with all three members and no blanks. Specification 10.3 and
10.10. -/
def toJson (d : Dialect) : String :=
  "\x7b\"separator\":" ++ toString d.separator.toNat ++
    ",\"quote\":" ++ toString d.quote.toNat ++
    ",\"skip_blank_lines\":" ++ (if d.skipBlankLines then "true" else "false") ++ "\x7d"

end Delimited.Dialect
