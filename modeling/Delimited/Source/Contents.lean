import Delimited.Source.Chunked
import Delimited.Source.File
import Delimited.Source.Memory
import Delimited.Source.Metered
import Delimited.Source.Script

/-!
# What sources hold

The bytes that a source gives before it stops, and how it stops then, for every kind of source.
-/

namespace Delimited

namespace Source

variable {σ ε : Type} [Source σ ε]

/-- A byte that is read comes first among the bytes. -/
theorem drain_of_byte {s t : σ} {b : UInt8} (h : read s = (.byte b, t)) :
    drain s = (b :: (drain t).1, (drain t).2) := by
  rw [drain]
  split
  · next h' =>
    rw [h] at h'
    cases h'
    rfl
  · next h' =>
    rw [h] at h'
    cases h'

/-- A source that stops gives no bytes. -/
theorem drain_of_stop {s t : σ} {ending : Ending ε} (h : read s = (.stop ending, t)) :
    drain s = ([], ending, t) := by
  rw [drain]
  split
  · next h' =>
    rw [h] at h'
    cases h'
  · next h' =>
    rw [h] at h'
    cases h'
    rfl

end Source

open Source

/-- A list holds its bytes. -/
theorem ListSource.drain_eq (bytes : List UInt8) :
    drain (ListSource.mk bytes) = (bytes, .done, ⟨[]⟩) := by
  induction bytes with
  | nil => exact drain_of_stop rfl
  | cons b bytes ih =>
    rw [drain_of_byte (s := ListSource.mk (b :: bytes)) (t := ⟨bytes⟩) rfl, ih]

/-- Shared bytes are held from the position on. -/
theorem IndexedSource.drain_eq (s : IndexedSource) :
    (drain s).1 = s.bytes.toList.drop s.position ∧ (drain s).2.1 = .done := by
  fun_induction drain s with
  | case1 s b t h drained ih =>
    have h : IndexedSource.read s = (.byte b, t) := h
    unfold IndexedSource.read at h
    split at h
    · cases h
    · next hb =>
      cases h
      obtain ⟨hlt, hb⟩ := Array.getElem?_eq_some_iff.mp hb
      rw [List.drop_eq_getElem_cons hlt, Array.getElem_toList, hb]
      exact ⟨congrArg (b :: ·) ih.1, ih.2⟩
  | case2 s ending t h =>
    have h : IndexedSource.read s = (.stop ending, t) := h
    unfold IndexedSource.read at h
    split at h
    · next hn =>
      cases h
      exact ⟨(List.drop_eq_nil_of_le (Array.getElem?_eq_none_iff.mp hn)).symm, rfl⟩
    · cases h

/-- What comes before the first stop is held, if the allowance covers it. -/
theorem Metered.exists_drain_eq {τ ε : Type} {reading : τ → Answer ε × τ} {state : τ}
    {text : List UInt8} {ending : Ending ε} (h : Delivers reading state text ending)
    {allowance : Nat} (ha : text.length ≤ allowance) :
    ∃ m, drain (Metered.mk reading state allowance) = (text, ending, m) := by
  induction h generalizing allowance with
  | @stop s t ending hr =>
    refine ⟨⟨reading, t, allowance⟩, drain_of_stop ?_⟩
    show Metered.read _ = _
    simp [Metered.read, hr]
  | @byte s t b text ending hr rest ih =>
    rw [List.length_cons] at ha
    obtain ⟨allowance, rfl⟩ := Nat.exists_eq_succ_of_ne_zero (by omega : allowance ≠ 0)
    obtain ⟨m, hm⟩ := ih (by omega : text.length ≤ allowance)
    have hread : Source.read (Metered.mk reading s (allowance + 1)) =
        (.byte b, Metered.mk reading t allowance) := by
      show Metered.read _ = _
      simp [Metered.read, hr]
    exact ⟨m, by rw [drain_of_byte hread, hm]⟩

/-- A regular file holds its bytes. -/
theorem FileHandle.drain_regular (bytes : List UInt8) :
    drain (FileHandle.regular bytes) = (bytes, .done, .regular []) := by
  induction bytes with
  | nil => exact drain_of_stop rfl
  | cons b bytes ih =>
    rw [drain_of_byte (s := FileHandle.regular (b :: bytes)) (t := .regular bytes) rfl, ih]

namespace Script

variable {ε : Type}

/-- A script gives bytes in a row before what comes after them. -/
theorem drain_append (bytes : List UInt8) (answers : List (Except ε UInt8)) :
    drain (Script.mk (List.map Except.ok bytes ++ answers)) =
      (bytes ++ (drain (Script.mk answers)).1, (drain (Script.mk answers)).2) := by
  induction bytes with
  | nil => rfl
  | cons b bytes ih =>
    have h : read (Script.mk (List.map Except.ok (b :: bytes) ++ answers)) =
        (.byte b, Script.mk (List.map Except.ok bytes ++ answers)) := rfl
    rw [drain_of_byte h, ih]
    rfl

/-- A script that is over is done. -/
theorem drain_nil : drain (Script.mk (ε := ε) []) = ([], .done, ⟨[]⟩) := drain_of_stop rfl

/-- A failure stops a script, which goes on behind it. -/
theorem drain_failure (cause : ε) (answers : List (Except ε UInt8)) :
    drain (Script.mk (.error cause :: answers)) = ([], .failure cause, ⟨answers⟩) :=
  drain_of_stop rfl

end Script

namespace ChunkedSource

variable {ε : Type}

/-- The bytes received come before those of the deliveries. -/
theorem drain_received (received : List UInt8) (deliveries : List (Delivery ε)) :
    drain (ChunkedSource.mk received deliveries) =
      (received ++ (drain (ChunkedSource.mk [] deliveries)).1,
        (drain (ChunkedSource.mk [] deliveries)).2) := by
  induction received with
  | nil => rfl
  | cons b received ih =>
    rw [drain_of_byte (s := ChunkedSource.mk (b :: received) deliveries)
      (t := ⟨received, deliveries⟩) rfl, ih]
    rfl

/-- Without deliveries the stream is done. -/
theorem drain_nil : drain (ChunkedSource.mk (ε := ε) [] []) = ([], .done, ⟨[], []⟩) :=
  drain_of_stop rfl

/-- An interruption is not seen. -/
theorem drain_interrupted (deliveries : List (Delivery ε)) :
    drain (ChunkedSource.mk [] (.interrupted :: deliveries)) =
      drain (ChunkedSource.mk [] deliveries) := by
  cases h : receive deliveries with
  | mk answer t =>
    cases answer with
    | byte b =>
      rw [drain_of_byte (s := ChunkedSource.mk [] (.interrupted :: deliveries)) (b := b) (t := t) h,
        drain_of_byte (s := ChunkedSource.mk [] deliveries) (b := b) (t := t) h]
    | stop ending =>
      rw [drain_of_stop (s := ChunkedSource.mk [] (.interrupted :: deliveries)) (t := t) h,
        drain_of_stop (s := ChunkedSource.mk [] deliveries) (t := t) h]

/-- A chunk with bytes is received. -/
theorem drain_chunk {bytes : List UInt8} (h : bytes ≠ []) (deliveries : List (Delivery ε)) :
    drain (ChunkedSource.mk [] (.chunk bytes :: deliveries)) =
      drain (ChunkedSource.mk bytes deliveries) := by
  cases bytes with
  | nil => exact absurd rfl h
  | cons b bytes =>
    rw [drain_of_byte (s := ChunkedSource.mk [] (.chunk (b :: bytes) :: deliveries)) (b := b)
        (t := ⟨bytes, deliveries⟩) rfl,
      drain_of_byte (s := ChunkedSource.mk (b :: bytes) deliveries) (b := b)
        (t := ⟨bytes, deliveries⟩) rfl]

/-- An empty chunk ends the stream. -/
theorem drain_chunk_nil (deliveries : List (Delivery ε)) :
    drain (ChunkedSource.mk [] (.chunk [] :: deliveries)) = ([], .done, ⟨[], deliveries⟩) :=
  drain_of_stop rfl

/-- A failed delivery stops the stream. -/
theorem drain_failure (cause : ε) (deliveries : List (Delivery ε)) :
    drain (ChunkedSource.mk [] (.failure cause :: deliveries)) =
      ([], .failure cause, ⟨[], deliveries⟩) :=
  drain_of_stop rfl

end ChunkedSource
end Delimited
