/-!
# Events in the course of reading

Reading keeps a journal of what happens beside the records: a source is opened, read from its
beginning and closed, a header row is taken, and input is tolerated that is not well formed. Every
row and record that is read is an event too, of a finer level.
-/

namespace Delimited

/-- How much detail an event belongs to. -/
inductive Level where
  | debug
  | trace
  deriving DecidableEq, Repr

/-- What happened. Specification 10.9. -/
inductive Event where
  /-- A file is about to be opened. -/
  | sourceOpening
  /-- A pass has opened its source and reads from the beginning. -/
  | sourceRewound
  /-- The fields of the first row have become the keys. -/
  | headerRead (count : Nat)
  /-- A byte between a closing quote and the next delimiter is left out. -/
  | byteDropped (b : UInt8)
  /-- The stream ended within a quoted field of so many bytes. -/
  | quoteUnterminated (length : Nat)
  /-- The source was closed, and held something to release or not. -/
  | sourceClosed (released : Bool)
  /-- A row with so many fields was read. -/
  | rowRead (fields : Nat)
  /-- A record with so many fields was read against so many keys. -/
  | recordRead (fields keys : Nat)
  deriving DecidableEq, Repr

/-- A detail of an event. -/
inductive Detail where
  | number (n : Nat)
  | flag (b : Bool)
  | text (s : String)
  deriving DecidableEq, Repr

namespace Event

/-- The finer level is for what comes with every record. -/
def level : Event → Level
  | .rowRead _ | .recordRead _ _ => .trace
  | _ => .debug

/-- The wording of an event. -/
def message : Event → String
  | .sourceOpening => "opening record source"
  | .sourceRewound => "record source rewound"
  | .headerRead _ => "column keys taken from header row"
  | .byteDropped _ => "dropping byte after closing quote"
  | .quoteUnterminated _ => "unterminated quoted field"
  | .sourceClosed _ => "record source closed"
  | .rowRead _ => "list"
  | .recordRead _ _ => "record"

/-- The details of an event by name. -/
def details : Event → List (String × Detail)
  | .sourceOpening => []
  | .sourceRewound => []
  | .headerRead count => [("count", .number count)]
  | .byteDropped b => [("lookahead", .text ("Byte(" ++ toString b.toNat ++ ")"))]
  | .quoteUnterminated length => [("len", .number length)]
  | .sourceClosed released => [("released", .flag released)]
  | .rowRead fields => [("fields", .number fields)]
  | .recordRead fields keys => [("fields", .number fields), ("keys", .number keys)]

end Event
end Delimited
