import Delimited.Source.Basic

/-!
# Sources that need not end

Whatever can be read byte by byte is a source as long as its bytes are counted. Reading that would
never come to an end by itself, behind a stop for instance, comes to one when the allowance is used
up. Where the allowance covers the bytes before the first stop, these are what the source gives.
-/

namespace Delimited

/-- The reads of these bytes come first, and then one that stops in this way. -/
inductive Delivers {τ ε : Type} (read : τ → Answer ε × τ) : τ → List UInt8 → Ending ε → Prop where
  | stop {s t : τ} {ending : Ending ε} (h : read s = (.stop ending, t)) :
      Delivers read s [] ending
  | byte {s t : τ} {b : UInt8} {text : List UInt8} {ending : Ending ε}
      (h : read s = (.byte b, t)) (rest : Delivers read t text ending) :
      Delivers read s (b :: text) ending

/-- What can be read, and the number of bytes that may still be taken from it. -/
structure Metered (τ ε : Type) where
  reading : τ → Answer ε × τ
  state : τ
  allowance : Nat

namespace Metered

variable {τ ε : Type}

/-- Reads once. A byte beyond the allowance is not given. -/
def read (m : Metered τ ε) : Answer ε × Metered τ ε :=
  match m.reading m.state, m.allowance with
  | (.byte _, state), 0 => (.stop .done, { m with state })
  | (.byte b, state), allowance + 1 => (.byte b, { m with state, allowance })
  | (.stop ending, state), _ => (.stop ending, { m with state })

theorem allowance_lt_of_read {m n : Metered τ ε} {b : UInt8} (h : m.read = (.byte b, n)) :
    n.allowance < m.allowance := by
  unfold read at h
  split at h
  · cases h
  · next ha =>
    cases h
    simp [ha]
  · cases h

instance : Source (Metered τ ε) ε where
  read := read
  left m := m.allowance
  left_read := allowance_lt_of_read

end Metered
end Delimited
