import Delimited.Source.Basic

/-!
# Sources that receive bytes in chunks

Such a source asks for the next delivery only when it has handed out every byte of the last one.
An interrupted delivery is asked for again. An empty chunk, and the end of all deliveries, are the
end of the stream; a read after that asks for the next delivery all the same.
-/

namespace Delimited

/-- What one request for bytes brings. -/
inductive Delivery (ε : Type) where
  | chunk (bytes : List UInt8)
  | interrupted
  | failure (cause : ε)

/-- The number of bytes that deliveries bring. -/
def Delivery.total {ε : Type} : List (Delivery ε) → Nat
  | [] => 0
  | .chunk bytes :: deliveries => bytes.length + total deliveries
  | _ :: deliveries => total deliveries

/-- The bytes received and not yet handed out, and the deliveries to come. Specification 10.4,
`ReadSource`. -/
structure ChunkedSource (ε : Type) where
  received : List UInt8 := []
  deliveries : List (Delivery ε)

namespace ChunkedSource

variable {ε : Type}

/-- The first answer that the deliveries give. -/
def receive : List (Delivery ε) → Answer ε × ChunkedSource ε
  | [] => (.stop .done, ⟨[], []⟩)
  | .interrupted :: deliveries => receive deliveries
  | .failure cause :: deliveries => (.stop (.failure cause), ⟨[], deliveries⟩)
  | .chunk [] :: deliveries => (.stop .done, ⟨[], deliveries⟩)
  | .chunk (b :: received) :: deliveries => (.byte b, ⟨received, deliveries⟩)

/-- Hands out a byte that was received before, or else receives more. -/
def read (s : ChunkedSource ε) : Answer ε × ChunkedSource ε :=
  match s.received with
  | b :: received => (.byte b, { s with received })
  | [] => receive s.deliveries

/-- The number of bytes received and to come. -/
def unread (s : ChunkedSource ε) : Nat := s.received.length + Delivery.total s.deliveries

private theorem unread_receive {deliveries : List (Delivery ε)} {t : ChunkedSource ε} {b : UInt8}
    (h : receive deliveries = (.byte b, t)) : t.unread < Delivery.total deliveries := by
  fun_induction receive deliveries with
  | case1 => cases h
  | case2 _ ih => exact ih h
  | case3 => cases h
  | case4 => cases h
  | case5 =>
    cases h
    simp only [unread, Delivery.total, List.length_cons]
    omega

theorem unread_read {s t : ChunkedSource ε} {b : UInt8} (h : s.read = (.byte b, t)) :
    t.unread < s.unread := by
  unfold read at h
  split at h
  · next hs =>
    cases h
    simp only [unread, hs, List.length_cons]
    omega
  · have := unread_receive h
    simp only [unread] at *
    omega

instance : Source (ChunkedSource ε) ε where
  read := read
  left := unread
  left_read := unread_read

end ChunkedSource
end Delimited
