import Delimited.Loop
import Delimited.Scan.Steps

/-!
# The rounds of scanning

The search for a record and the scan of a field are loops. Each round looks at the byte in view and
does with it what the phase calls for.
-/

namespace Delimited.Scanner

variable {σ ε : Type} [Source σ ε]

/-- A round of the search for a record, which goes on behind a line ending. -/
def seekRound (s : Scanner σ) :
    Round (Scanner σ) (EStateM.Result (ReadError ε) (Scanner σ) Unit) :=
  match s.ahead with
  | none => .done (.ok () s)
  | some b =>
    match Phase.step s.dialect .betweenRecords (some b) with
    | (_, .drop) =>
      match consume s with
      | .ok () t => .again t
      | .error e t => .done (.error e t)
    | _ => .done (.ok () s)

/-- A round of a scan, which goes on in the next phase. -/
def scanRound (alloc : Allocator) :
    Phase × Scanner σ →
      Round (Phase × Scanner σ) (EStateM.Result (ReadError ε) (Scanner σ) Boundary)
  | (phase, s) =>
    match s.ahead with
    | none => .done (.ok .record (s.finish phase))
    | some b =>
      match phase.step s.dialect (some b) with
      | (next, .append) =>
        match Buffer.push alloc b s.field with
        | .error e field => .done (.error (.buffer e) { s with field })
        | .ok () field =>
          match consume { s with field } with
          | .ok () t => .again (next, t)
          | .error e t => .done (.error e t)
      | (next, .drop) =>
        match consume (s.dropping phase b) with
        | .ok () t => .again (next, t)
        | .error e t => .done (.error e t)
      | (next, .stay) => .again (next, s)
      | (_, .close delimiter) => .done (closeField delimiter s)
      | (_, .finish) => .done (.ok .record (s.finish phase))

end Delimited.Scanner
