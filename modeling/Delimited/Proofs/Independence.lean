import Delimited.Assembler.Observing
import Delimited.Proofs.CourseAgreement
import Delimited.Proofs.History
import Delimited.Source.Script

/-!
# A pass does not depend on the past

Where memory is granted, a reader that has been used gives every pass the course that it takes on a
new reader. It does not matter what became of the passes before: whether the source could be opened,
how far they were read, whether they were given up in the middle of a row or of a quoted field, and
whether the reader was closed in between.
-/

namespace Delimited

variable {π σ ε : Type} [Source σ ε] [Origin π σ ε]

/-- The number of bytes that an opened source gives before it stops. -/
def openedLength : Except ε σ → Nat
  | .error _ => 0
  | .ok source => (Source.drain source).1.length

/-- Whatever a reader has been used for, its origin has been opened once for every pass that was
started. The next pass has the start, the items and the keys that it has on a new reader of the
dialect whose origin opens the same source, or fails in the same way. -/
theorem course_after_history (alloc₀ alloc alloc' : Allocator) (origin : π) (d : Dialect)
    (r : Reader π σ) (history : List Operation)
    (hr : Reader.create (ε := ε) alloc₀ origin d = .ok r) :
    (r.run history).origin = Origin.reopened (history.countP Operation.startsPass) origin ∧
      ∀ {π' : Type} [Origin π' σ ε] (origin' : π'),
        (Origin.openSource (r.run history).origin).1 = (Origin.openSource origin').1 →
        alloc.GrantsFor (openedLength (Origin.openSource origin').1) →
        alloc'.GrantsFor (openedLength (Origin.openSource origin').1) →
        ∃ fresh : Reader π' σ, Reader.create (ε := ε) alloc' origin' d = .ok fresh ∧
          ∀ {φ Field Row Keyed ρ γ : Type} (mode : Mode Row Keyed ρ γ)
            (assembler : Assembler φ Field Row Keyed) (state : φ) (requests : Nat),
            (r.run history).course alloc mode assembler state requests =
              fresh.course alloc' mode assembler state requests := by
  obtain ⟨hscanner, horigin, -⟩ := Reader.inOrder_of_create hr
  obtain ⟨hrun, hopened⟩ := Reader.inOrder_run hscanner history
  refine ⟨hopened.trans (by rw [horigin]), ?_⟩
  intro π' _ origin' hsame hg hg'
  have hd : d.validate = .ok () := by
    unfold Reader.create at hr
    split at hr
    · cases hr
    · assumption
  obtain ⟨fresh, hfresh, rfl, -⟩ := Reader.create_of_validate (σ := σ) (ε := ε) hg' hd origin'
  obtain ⟨hnew, -, -⟩ := Reader.inOrder_of_create hfresh
  refine ⟨fresh, hfresh, ?_⟩
  have halike : Reader.Alike id alloc' alloc fresh (r.run history) := by
    refine ⟨hrun.dialect.trans hnew.dialect.symm, fun source ho ↦ ?_, ?_⟩
    · rw [ho] at hg hg'
      apply Buffer.Twins.granted hg' hg hnew.field.clear hrun.field.clear
      · rw [Buffer.toList_clear, Buffer.toList_clear]
      · rw [Buffer.toList_clear, List.length_nil, Nat.zero_add]
        exact Nat.le_refl _
    · rw [hsame]
      exact .refl _
  intro φ Field Row Keyed ρ γ mode assembler state requests
  rw [halike.course assembler state mode requests, Course.map_id]

/-- A reader is used for rows that a failure cuts off in quotes, closed, refused, and stopped in its
header. None of this is seen in the pass that follows. -/
theorem course_after_history_of_four_uses :
    let cut : Script Unit := ⟨[.ok 97, .ok 10, .ok 34, .ok 98, .error (), .ok 99]⟩
    let header : Script Unit := ⟨[.ok 107, .error ()]⟩
    let next : Script Unit := ⟨[.ok 107, .ok 10, .ok 118]⟩
    let origin : SuccessiveOrigin (Script Unit) Unit :=
      ⟨.ok cut, [.error (), .ok header, .ok next], 0⟩
    let history : List Operation :=
      [.pass .rows .unlimited Assembler.standard () 5, .close,
        .pass (.recordsUnder [[120]]) .unlimited Assembler.lengths () 1,
        .pass .records .unlimited Assembler.standard () 1]
    ∃ r fresh : Reader (SuccessiveOrigin (Script Unit) Unit) (Script Unit),
      Reader.create (ε := Unit) .unlimited origin {} = .ok r ∧
        Reader.create (ε := Unit) .unlimited ⟨.ok next, [], 0⟩ {} = .ok fresh ∧
        (r.run history).origin.opened = 3 ∧
        ∀ requests, (r.run history).course .unlimited .records Assembler.standard () requests =
          fresh.course .unlimited .records Assembler.standard () requests := by
  intro cut header next origin history
  obtain ⟨r, hr, -⟩ := Reader.create_of_validate (σ := Script Unit) (ε := Unit) (d := {})
    (Allocator.grantsFor_unlimited 0) rfl origin
  obtain ⟨horigin, hcourses⟩ := course_after_history .unlimited .unlimited .unlimited origin {} r
    history hr
  obtain ⟨fresh, hfresh, hcourse⟩ :=
    hcourses (SuccessiveOrigin.mk (.ok next) [] 0) (by rw [horigin]; rfl)
      (Allocator.grantsFor_unlimited _) (Allocator.grantsFor_unlimited _)
  exact ⟨r, fresh, hr, hfresh, by rw [horigin]; rfl, hcourse .records Assembler.standard ()⟩

end Delimited
