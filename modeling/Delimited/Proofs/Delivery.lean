import Delimited.Proofs.Collecting
import Delimited.Proofs.CourseAgreement
import Delimited.Proofs.Failure

/-!
# The kind of a source is not seen

A pass takes the same course over the same bytes, whatever kind of source they come from and however
they are delivered. Boundaries of chunks and interruptions may fall anywhere, also between two
quotes or between a carriage return and a line feed. What a source would give after it has stopped
is never asked for.
-/

namespace Delimited

variable {ε : Type}

/-- The deliveries bring these bytes in chunks, none of them empty, with interruptions anywhere. -/
inductive Delivery.Brings : List (Delivery ε) → List UInt8 → Prop where
  | nil : Brings [] []
  | interrupted {deliveries : List (Delivery ε)} {bytes : List UInt8}
      (h : Brings deliveries bytes) : Brings (.interrupted :: deliveries) bytes
  | chunk {deliveries : List (Delivery ε)} {first bytes : List UInt8} (hne : first ≠ [])
      (h : Brings deliveries bytes) : Brings (.chunk first :: deliveries) (first ++ bytes)

namespace ChunkedSource

open Source

variable {deliveries : List (Delivery ε)} {bytes : List UInt8}

/-- What deliveries bring comes before all that is delivered later. -/
theorem drain_of_brings (h : Delivery.Brings deliveries bytes) (later : List (Delivery ε)) :
    drain (ChunkedSource.mk [] (deliveries ++ later)) =
      (bytes ++ (drain (ChunkedSource.mk [] later)).1, (drain (ChunkedSource.mk [] later)).2) := by
  induction h with
  | nil => rfl
  | interrupted h ih =>
    rw [List.cons_append, drain_interrupted]
    exact ih
  | chunk hne h ih =>
    rw [List.cons_append, drain_chunk hne, drain_received, ih, List.append_assoc]

/-- Without anything later the bytes are all there is. -/
theorem gives_of_brings (h : Delivery.Brings deliveries bytes) :
    Gives (ChunkedSource.mk [] deliveries) bytes .done := by
  have hdrain := drain_of_brings h []
  rw [drain_nil, List.append_nil, List.append_nil] at hdrain
  exact ⟨_, hdrain⟩

/-- An empty chunk ends the stream for good. -/
theorem gives_of_brings_chunk_nil (h : Delivery.Brings deliveries bytes)
    (later : List (Delivery ε)) :
    Gives (ChunkedSource.mk [] (deliveries ++ .chunk [] :: later)) bytes .done := by
  have hdrain := drain_of_brings h (.chunk [] :: later)
  rw [drain_chunk_nil, List.append_nil] at hdrain
  exact ⟨_, hdrain⟩

/-- A failed delivery is the failure of the source. -/
theorem gives_of_brings_failure (h : Delivery.Brings deliveries bytes) (cause : ε)
    (later : List (Delivery ε)) :
    Gives (ChunkedSource.mk [] (deliveries ++ .failure cause :: later)) bytes (.failure cause) := by
  have hdrain := drain_of_brings h (.failure cause :: later)
  rw [drain_failure, List.append_nil] at hdrain
  exact ⟨_, hdrain⟩

end ChunkedSource

/-- Shared bytes are given from the first to the last. -/
theorem IndexedSource.gives (bytes : List UInt8) :
    Source.Gives (IndexedSource.mk bytes.toArray 0) bytes (.done : Ending Empty) := by
  obtain ⟨hbytes, hending⟩ := drain_eq (IndexedSource.mk bytes.toArray 0)
  exact ⟨_, Prod.ext hbytes (Prod.ext hending rfl)⟩

/-- Reading the same bytes takes the same course: from a list, from shared bytes, from any other
source that gives just these, and from deliveries that bring them. If the deliveries go on with an
empty chunk, the course is the same; if they go on with a failure, it is that of a source which
gives the bytes and then fails with it. What is delivered later makes no difference. -/
theorem course_of_bytes {φ Field Row Keyed ρ γ : Type} (alloc : Allocator) (d : Dialect)
    (mode : Mode Row Keyed ρ γ) (assembler : Assembler φ Field Row Keyed) (state : φ)
    (requests : Nat) (bytes : List UInt8) :
    let course : Course Empty φ γ :=
      Reader.firstCourse alloc (ListOrigin.mk bytes) d mode assembler state requests
    Reader.firstCourse alloc (IndexedOrigin.mk bytes.toArray) d mode assembler state requests =
        course ∧
      (∀ {π σ ε : Type} [Source σ ε] [Origin π σ ε] (origin : π) (source : σ),
        (Origin.openSource origin).1 = .ok source → Source.Gives source bytes .done →
        Reader.firstCourse alloc origin d mode assembler state requests =
          course.map Empty.elim) ∧
      ∀ {π ε : Type} [Origin π (ChunkedSource ε) ε] (origin : π)
        (deliveries later : List (Delivery ε)), Delivery.Brings deliveries bytes →
        ((Origin.openSource origin).1 = .ok (ChunkedSource.mk [] deliveries) →
          Reader.firstCourse alloc origin d mode assembler state requests =
            course.map Empty.elim) ∧
        ((Origin.openSource origin).1 =
            .ok (ChunkedSource.mk [] (deliveries ++ .chunk [] :: later)) →
          Reader.firstCourse alloc origin d mode assembler state requests =
            course.map Empty.elim) ∧
        ∀ cause, (Origin.openSource origin).1 =
            .ok (ChunkedSource.mk [] (deliveries ++ .failure cause :: later)) →
          let script : Script ε := ⟨bytes.map .ok ++ [.error cause]⟩
          Reader.firstCourse alloc origin d mode assembler state requests =
            Reader.firstCourse alloc (SuccessiveOrigin.mk (.ok script) [] 0) d mode assembler state
              requests := by
  have hcomplete : ∀ {π σ ε : Type} [Source σ ε] [Origin π σ ε] (origin : π) (source : σ),
      (Origin.openSource origin).1 = .ok source → Source.Gives source bytes .done →
      Reader.firstCourse alloc origin d mode assembler state requests =
        (Reader.firstCourse alloc (ListOrigin.mk bytes) d mode assembler state requests).map
          Empty.elim := by
    intro π σ ε _ _ origin source ho hg
    apply Reader.firstCourse_eq_map
    rw [ho]
    exact .opened (ListSource.gives bytes) hg
  refine ⟨?_, hcomplete, ?_⟩
  · apply Reader.firstCourse_eq
    exact .opened (ListSource.gives bytes) (IndexedSource.gives bytes)
  · intro π ε _ origin deliveries later hbrings
    refine ⟨fun ho ↦ ?_, fun ho ↦ ?_, fun cause ho ↦ ?_⟩
    · exact hcomplete origin _ ho (ChunkedSource.gives_of_brings hbrings)
    · exact hcomplete origin _ ho (ChunkedSource.gives_of_brings_chunk_nil hbrings later)
    · apply Reader.firstCourse_eq
      rw [ho]
      exact .opened (Script.gives_failure bytes cause [])
        (ChunkedSource.gives_of_brings_failure hbrings cause later)

/-- Deliveries that part a pair of quotes, and a carriage return from its line feed, with
interruptions at both places. Whether an end or a failure comes behind them, nothing is seen of what
follows it. -/
theorem course_of_bytes_of_parted_pairs :
    let bytes : List UInt8 := [34, 97, 34, 34, 34, 13, 10, 98]
    let deliveries : List (Delivery Unit) :=
      [.interrupted, .chunk [34, 97, 34], .interrupted, .chunk [34, 34, 13], .interrupted,
        .chunk [10, 98]]
    let ended : ChunkedSource Unit := ⟨[], deliveries ++ .chunk [] :: [.chunk [99]]⟩
    let failed : ChunkedSource Unit := ⟨[], deliveries ++ .failure () :: [.chunk [99]]⟩
    let script : Script Unit := ⟨bytes.map .ok ++ [.error ()]⟩
    ∀ requests,
      Reader.firstCourse .unlimited (SuccessiveOrigin.mk (.ok ended) [] 0) {} .rows
          Assembler.standard () requests =
        (Reader.firstCourse .unlimited (ListOrigin.mk bytes) {} .rows Assembler.standard ()
          requests).map Empty.elim ∧
      Reader.firstCourse .unlimited (SuccessiveOrigin.mk (.ok failed) [] 0) {} .rows
          Assembler.standard () requests =
        Reader.firstCourse .unlimited (SuccessiveOrigin.mk (.ok script) [] 0) {} .rows
          Assembler.standard () requests := by
  intro bytes deliveries ended failed script requests
  have hbrings : Delivery.Brings deliveries bytes :=
    .interrupted <| .chunk (by decide) <| .interrupted <| .chunk (by decide) <| .interrupted <|
      .chunk (by decide) .nil
  obtain ⟨-, -, hchunked⟩ :=
    course_of_bytes .unlimited {} .rows Assembler.standard () requests bytes
  obtain ⟨-, hended, -⟩ :=
    hchunked (SuccessiveOrigin.mk (.ok ended) [] 0) deliveries [.chunk [99]] hbrings
  obtain ⟨-, -, hfailed⟩ :=
    hchunked (SuccessiveOrigin.mk (.ok failed) [] 0) deliveries [.chunk [99]] hbrings
  exact ⟨hended rfl, hfailed () rfl⟩

end Delimited
