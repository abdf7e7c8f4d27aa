import Delimited.Json.Token

/-!
# JSON documents

A document is one value; blank characters around it aside, nothing may come before or after. The
parser takes the tokens one by one and keeps the containers that are still open, innermost first,
so that values may be nested to any depth.
-/

namespace Delimited.Json

/-- A JSON value. Members keep their order and may repeat a key. A text that names no characters,
and a number not written with digits alone, are kept only as such. -/
inductive Value where
  | null
  | bool (value : Bool)
  | number (natural : Option Nat)
  | string (text : Option String)
  | array (items : List Value)
  | object (members : List (Option String × Value))

/-- A container that waits for the value of its next part. Finished parts are kept last first. -/
inductive Container where
  | array (items : List Value)
  | object (members : List (Option String × Value)) (key : Option String)

/-- What has been read so far, and what may come next. -/
inductive Progress where
  /-- A value must come. -/
  | needsValue (around : List Container)
  /-- An array has begun: a value or its end must come. -/
  | firstItem (around : List Container)
  /-- An object has begun: a key or its end must come. -/
  | firstKey (around : List Container)
  /-- After a comma in an object a key must come. -/
  | needsKey (members : List (Option String × Value)) (around : List Container)
  /-- After a key a colon must come. -/
  | needsColon (members : List (Option String × Value)) (key : Option String)
      (around : List Container)
  /-- After an item a comma or the end of the array must come. -/
  | afterItem (items : List Value) (around : List Container)
  /-- After a member a comma or the end of the object must come. -/
  | afterMember (members : List (Option String × Value)) (around : List Container)
  /-- Nothing more may come. -/
  | finished (document : Value)

namespace Progress

/-- A finished value takes its place in the innermost container, or is the document. -/
def complete (value : Value) : List Container → Progress
  | [] => .finished value
  | .array items :: around => .afterItem (value :: items) around
  | .object members key :: around => .afterMember ((key, value) :: members) around

/-- A token where a value must come. -/
def begin (around : List Container) : Token → Option Progress
  | .null => some (complete .null around)
  | .bool value => some (complete (.bool value) around)
  | .number natural => some (complete (.number natural) around)
  | .string text => some (complete (.string text) around)
  | .beginArray => some (.firstItem around)
  | .beginObject => some (.firstKey around)
  | _ => none

/-- Takes one token, or refuses it. -/
def take : Progress → Token → Option Progress
  | .needsValue around, token => begin around token
  | .firstItem around, .endArray => some (complete (.array []) around)
  | .firstItem around, token => begin (.array [] :: around) token
  | .firstKey around, .endObject => some (complete (.object []) around)
  | .firstKey around, .string key => some (.needsColon [] key around)
  | .needsKey members around, .string key => some (.needsColon members key around)
  | .needsColon members key around, .colon => some (.needsValue (.object members key :: around))
  | .afterItem items around, .comma => some (.needsValue (.array items :: around))
  | .afterItem items around, .endArray => some (complete (.array items.reverse) around)
  | .afterMember members around, .comma => some (.needsKey members around)
  | .afterMember members around, .endObject =>
    some (complete (.object members.reverse) around)
  | _, _ => none

/-- The document, once it is complete. -/
def document? : Progress → Option Value
  | .finished value => some value
  | _ => none

end Progress

/-- The document that a text writes. -/
def parse? (text : String) : Option Value := do
  let tokens ← tokens? text.toList
  let progress ← tokens.foldlM Progress.take (.needsValue [])
  progress.document?

end Delimited.Json
