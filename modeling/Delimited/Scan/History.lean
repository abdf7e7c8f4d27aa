import Delimited.Scan.Scanner

/-!
# Scanners that are used again

A scanner is turned to one source after the other. In between it is asked to look for records and to
scan fields, as often as anyone likes and without regard to what comes of it, and it may be closed.
-/

namespace Delimited.Scanner

/-- What a scanner is asked for while it has a source. Memory is granted anew for every scan. -/
inductive Request where
  | seek
  | scan (alloc : Allocator)

/-- One use of a scanner. -/
inductive Use (σ : Type) where
  | attach (source : σ)
  | request (request : Request)
  | close

/-- The state in which an operation ends, however it ends. -/
def after {ε τ α : Type} : EStateM.Result ε τ α → τ
  | .ok _ t => t
  | .error _ t => t

variable {σ ε : Type} [Source σ ε]

/-- The scanner after one request. -/
def serve (s : Scanner σ) : Request → Scanner σ
  | .seek => after s.skipBlankLines
  | .scan alloc => after (s.readField alloc)

/-- The scanner after a number of requests, earliest first. -/
def serveAll (s : Scanner σ) (requests : List Request) : Scanner σ := requests.foldl serve s

/-- The scanner after one use. -/
def perform (s : Scanner σ) : Use σ → Scanner σ
  | .attach source => after (s.attach source)
  | .request request => s.serve request
  | .close => s.close.2

/-- The scanner after a history of uses, earliest first. -/
def run (s : Scanner σ) (history : List (Use σ)) : Scanner σ := history.foldl perform s

@[simp] theorem serveAll_nil (s : Scanner σ) : s.serveAll [] = s := rfl

@[simp] theorem serveAll_cons (s : Scanner σ) (request : Request) (requests : List Request) :
    s.serveAll (request :: requests) = (s.serve request).serveAll requests := rfl

end Delimited.Scanner
