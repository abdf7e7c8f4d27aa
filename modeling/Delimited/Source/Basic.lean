/-!
# Sources of bytes

A source answers each read with one byte, or stops: because the stream is done, or because reading
fails. It may go on after it has stopped. What it gives before it stops is finite: every byte
lowers the number that it has left.
-/

namespace Delimited

/-- How a stream of bytes stops. -/
inductive Ending (ε : Type) where
  | done
  | failure (cause : ε)
  deriving DecidableEq, Repr

/-- The answer to one read. -/
inductive Answer (ε : Type) where
  | byte (b : UInt8)
  | stop (ending : Ending ε)
  deriving DecidableEq, Repr

/-- What can be read byte by byte, with failures of type `ε`. Specification 10.4, `ByteSource` with
`read_byte`. -/
class Source (σ : Type) (ε : outParam Type) where
  /-- Reads once. -/
  read : σ → Answer ε × σ
  /-- A bound on the bytes that come before the source stops. -/
  left : σ → Nat
  /-- Every byte lowers the bound. -/
  left_read {s t : σ} {b : UInt8} : read s = (.byte b, t) → left t < left s

namespace Source

variable {σ ε : Type} [Source σ ε]

/-- Reads until the source stops: the bytes, how it stopped, and the source behind the stop. -/
def drain (s : σ) : List UInt8 × Ending ε × σ :=
  match _h : read s with
  | (.byte b, t) =>
    let drained := drain t
    (b :: drained.1, drained.2)
  | (.stop ending, t) => ([], ending, t)
termination_by left s
decreasing_by exact left_read _h

end Source

/-- Changes the type of failures. -/
def Ending.map {ε ε' : Type} (f : ε → ε') : Ending ε → Ending ε'
  | .done => .done
  | .failure cause => .failure (f cause)

/-- Changes the type of failures. -/
def Answer.map {ε ε' : Type} (f : ε → ε') : Answer ε → Answer ε'
  | .byte b => .byte b
  | .stop ending => .stop (ending.map f)

end Delimited
