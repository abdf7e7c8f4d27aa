import Delimited.Reader

/-!
# Readers that are used again

A reader serves one pass after the other. Every pass has a mode of its own, is asked for some of its
items and then given up, whether it is over or not; in between the reader may be closed. What a
caller sees of a pass is its course.
-/

namespace Delimited

/-- What a pass gives: rows, or records under keys that are supplied or stand in the first row. A
row in progress is of type `ρ`, an item of type `γ`. -/
inductive Mode (Row Keyed : Type) : (ρ γ : Type) → Type where
  | rows : Mode Row Keyed Row Row
  | recordsUnder (keys : List (List UInt8)) : Mode Row Keyed (Keyed × List (List UInt8)) Keyed
  | records : Mode Row Keyed (Keyed × List (List UInt8)) Keyed

/-- Whether the keys stand in the first row. -/
def Mode.takesKeys {Row Keyed ρ γ : Type} : Mode Row Keyed ρ γ → Bool
  | .rows => false
  | .recordsUnder _ => false
  | .records => true

/-- One use of a reader. -/
inductive Operation : Type 1 where
  /-- A pass is started and, if that succeeds, asked for so many items. -/
  | pass {φ Field Row Keyed ρ γ : Type} (mode : Mode Row Keyed ρ γ) (alloc : Allocator)
      (assembler : Assembler φ Field Row Keyed) (state : φ) (requests : Nat)
  | close

/-- Whether the operation starts a pass. -/
def Operation.startsPass : Operation → Bool
  | .pass .. => true
  | .close => false

/-- An origin that has been asked so many times to open its data. -/
def Origin.reopened {π σ ε : Type} [Origin π σ ε] : Nat → π → π
  | 0, origin => origin
  | n + 1, origin => reopened n (openSource origin).2

/-- What a caller sees of a pass. The keys are those that the reader keeps. -/
inductive Course (ε φ γ : Type) where
  | failed (error : ReadError ε) (keys : List (List UInt8))
  /-- The pass has keys of its own if it gives records. Its answers leave the assembler in a
  state. -/
  | started (keys : List (List UInt8)) (under : Option RecordKeys)
      (answers : List (Option (Except (ReadError ε) γ))) (state : φ)

namespace Reader

variable {π σ ε φ Field Row Keyed ρ γ : Type} [Source σ ε] [Origin π σ ε]

/-- Starts a pass of the mode. A pass over records comes with its keys. -/
def start (alloc : Allocator) (mode : Mode Row Keyed ρ γ) (assembler : Assembler φ Field Row Keyed)
    (state : φ) (r : Reader π σ) :
    EStateM.Result (ReadError ε) (Reader π σ) (Option RecordKeys × Pass σ φ ρ γ) :=
  match mode with
  | .rows =>
    match r.startRows assembler state with
    | .error e r => .error e r
    | .ok p r => .ok (none, p) r
  | .recordsUnder keys =>
    match r.startRecordsUnder assembler state keys with
    | .error e r => .error e r
    | .ok (under, p) r => .ok (some under, p) r
  | .records =>
    match r.startRecords alloc assembler state with
    | .error e r => .error e r
    | .ok (under, p) r => .ok (some under, p) r

/-- The course of a pass that is asked for so many items. -/
def course (alloc : Allocator) (mode : Mode Row Keyed ρ γ) (assembler : Assembler φ Field Row Keyed)
    (state : φ) (requests : Nat) (r : Reader π σ) : Course ε φ γ :=
  match r.start alloc mode assembler state with
  | .error e r => .failed e r.keys
  | .ok (under, p) r =>
    let taken := p.take alloc requests
    .started r.keys under taken.1 taken.2.state

/-- The course of a pass on a new reader. Where there is no reader there are no keys. -/
def firstCourse (alloc : Allocator) (origin : π) (dialect : Dialect) (mode : Mode Row Keyed ρ γ)
    (assembler : Assembler φ Field Row Keyed) (state : φ) (requests : Nat) : Course ε φ γ :=
  match create alloc origin dialect with
  | .error e => .failed e []
  | .ok r => r.course alloc mode assembler state requests

/-- The reader after one use. A pass that is given up leaves its scanner where it stands. -/
def perform (r : Reader π σ) : Operation → Reader π σ
  | .pass mode alloc assembler state requests =>
    match r.start alloc mode assembler state with
    | .error _ r => r
    | .ok (_, p) r => r.resume (p.take alloc requests).2
  | .close => r.close.2

/-- The reader after a history of uses, earliest first. -/
def run (r : Reader π σ) (history : List Operation) : Reader π σ := history.foldl perform r

@[simp] theorem run_nil (r : Reader π σ) : r.run [] = r := rfl

@[simp] theorem run_append (r : Reader π σ) (history later : List Operation) :
    r.run (history ++ later) = (r.run history).run later :=
  List.foldl_append

@[simp] theorem run_append_singleton (r : Reader π σ) (history : List Operation)
    (last : Operation) : r.run (history ++ [last]) = (r.run history).perform last :=
  List.foldl_append

end Reader
end Delimited
