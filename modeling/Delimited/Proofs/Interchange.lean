import Delimited.Proofs.Extending

/-!
# Without storage, and with storage for no slot

A buffer that has been freed is meant to be as good as a new one with no slot, and a request for
what fits already is meant to do nothing. They answer alike, and look alike behind every answer, as
long as they are asked for slots. A request for none is the defect: none fit without storage too,
but only storage is looked at, so a buffer without it takes one slot, or fails for want of it.
-/

namespace Delimited.Buffer

variable {α : Type}

/-- The buffer with storage for no slot. -/
def slotless : Buffer α := { storage := some {} }

/-- The operation asks for room, but for no slot. -/
def Operation.isEmptyRequest : Operation α → Bool
  | .extend values => values.isEmpty
  | .reserve additional => additional == 0
  | _ => false

section Parting

variable [Element α]

/-- No operation of a history is an empty request to a buffer without storage. -/
def asksForSlots (b : Buffer α) : List (Use α) → Bool
  | [] => true
  | use :: history =>
    (b.isAllocated || !use.operation.isEmptyRequest) && (b.perform use).asksForSlots history

/-- Any allocator can give storage for no slot. -/
theorem create_zero (alloc : Allocator) : create alloc 0 = .ok (slotless : Buffer α) := rfl

/-- The outcomes are the same, or failures for one reason that leave either buffer as it was. -/
def Concur (result result' : EStateM.Result GrowthError (Buffer α) Unit) : Prop :=
  result = result' ∨ ∃ e, result = .error e unallocated ∧ result' = .error e slotless

theorem concur_reserve (alloc : Allocator) {additional : Nat} (hn : additional ≠ 0) :
    Concur (reserve (α := α) alloc additional unallocated) (reserve alloc additional slotless) := by
  have hfits : ¬ 0 + additional ≤ 0 := by omega
  unfold Concur reserve unallocated slotless isAllocated
  dsimp only
  by_cases hsum : maxSize < 0 + additional
  · rw [if_pos hsum, if_pos hsum]
    exact .inr ⟨_, rfl, rfl⟩
  rw [if_neg hsum, if_neg hsum, if_neg fun h ↦ hfits h.2, if_neg fun h ↦ hfits h.2]
  cases doubledCapacity? (0 + additional) (max 0 1) (by omega) with
  | none => exact .inr ⟨_, rfl, rfl⟩
  | some capacity =>
    dsimp only [Option.getD_none, Option.getD_some]
    cases Storage.reserve (α := α) alloc {} (capacity - (#[] : Array α).size) with
    | error failure => exact .inr ⟨_, rfl, rfl⟩
    | ok storage => exact .inl rfl

theorem concur_push (alloc : Allocator) (v : α) :
    Concur (push alloc v unallocated) (push alloc v slotless) := by
  unfold push
  rw [if_pos (.inl rfl), if_pos (.inl rfl)]
  rcases concur_reserve (α := α) alloc Nat.one_ne_zero with heq | ⟨e, he, he'⟩
  · rw [heq]
    exact .inl rfl
  · rw [he, he']
    exact .inr ⟨e, rfl, rfl⟩

theorem concur_extend (alloc : Allocator) {values : List α} (hv : values ≠ []) :
    Concur (extend alloc values unallocated) (extend alloc values slotless) := by
  unfold extend
  rcases concur_reserve (α := α) alloc (mt List.length_eq_zero_iff.mp hv) with heq | ⟨e, he, he'⟩
  · rw [heq]
    exact .inl rfl
  · rw [he, he']
    exact .inr ⟨e, rfl, rfl⟩

/-- After a use that is no empty request the two buffers have given the same answer, and are one and
the same or what they were. -/
theorem perform_unallocated_slotless {use : Use α}
    (h : use.operation.isEmptyRequest = false) :
    answer unallocated use = answer slotless use ∧
      (perform unallocated use = perform slotless use ∨
        perform unallocated use = unallocated ∧ perform slotless use = slotless) := by
  have hconcur {result result' : EStateM.Result GrowthError (Buffer α) Unit}
      (hresults : Concur result result') :
      (answered result).1 = (answered result').1 ∧
        ((answered result).2 = (answered result').2 ∨
          (answered result).2 = unallocated ∧ (answered result').2 = slotless) := by
    rcases hresults with rfl | ⟨e, rfl, rfl⟩
    · exact ⟨rfl, .inl rfl⟩
    · exact ⟨rfl, .inr ⟨rfl, rfl⟩⟩
  obtain ⟨alloc, operation⟩ := use
  cases operation with
  | push v => exact hconcur (concur_push alloc v)
  | extend values => exact hconcur (concur_extend alloc (by rintro rfl; cases h))
  | reserve additional => exact hconcur (concur_reserve alloc (by rintro rfl; cases h))
  | free => exact ⟨rfl, .inl rfl⟩
  | sort order =>
    refine ⟨rfl, .inr ⟨rfl, ?_⟩⟩
    simp [perform, respond, sort, rearrange, slotless, toList, used]
  | _ => exact ⟨rfl, .inr ⟨rfl, rfl⟩⟩

theorem course_unallocated_eq {history : List (Use α)}
    (h : asksForSlots unallocated history = true) :
    course unallocated history = course slotless history := by
  induction history with
  | nil => rfl
  | cons use history ih =>
    rw [asksForSlots, Bool.and_eq_true] at h
    obtain ⟨hfirst, hrest⟩ := h
    have hempty : use.operation.isEmptyRequest = false := by
      simpa [unallocated, isAllocated] using hfirst
    obtain ⟨hanswer, hsame | ⟨hkept, hkept'⟩⟩ := perform_unallocated_slotless hempty
    · rw [course, course, hanswer, hsame]
    · rw [hkept] at hrest
      have hview : view (unallocated : Buffer α) = view slotless :=
        view_eq_of_slots rfl rfl rfl
      rw [course, course, hanswer, hkept, hkept', hview, ih hrest]

end Parting

/-- The other buffer has the slots that this one has, in use or not, and the same capacity, unless
it lacks the one slot that this one has taken for an empty request. -/
structure Shadowed (b c : Buffer α) : Prop where
  kept : b.WellKept
  kept' : c.WellKept
  slots : b.slots = c.slots
  length : b.length = c.length
  allocated : b.isAllocated = true → c.isAllocated = true
  capacity : max b.capacity 1 = max c.capacity 1
  capacity_le : c.capacity ≤ b.capacity

section Granting

variable {b c b' c' : Buffer α}

theorem Shadowed.toList_eq (h : Shadowed b c) : b.toList = c.toList := by
  rw [toList_eq_take, toList_eq_take, h.slots, h.length]

theorem Shadowed.slot?_eq (h : Shadowed b c) (i : Nat) : b.slot? i = c.slot? i := by
  rw [Buffer.slot?_eq, Buffer.slot?_eq, h.slots]

theorem Shadowed.capacity_cases (h : Shadowed b c) :
    b.capacity = c.capacity ∨ b.capacity = 1 ∧ c.capacity = 0 := by
  have hsame := h.capacity
  have hle := h.capacity_le
  omega

theorem Shadowed.doubledCapacity?_eq (h : Shadowed b c) (demand : Nat) :
    doubledCapacity? demand (max b.capacity 1) b.max_capacity_pos =
      doubledCapacity? demand (max c.capacity 1) c.max_capacity_pos := by
  simp only [h.capacity]

theorem shadowed_unallocated_slotless : Shadowed (unallocated : Buffer α) slotless where
  kept := ⟨rfl, Nat.zero_le _⟩
  kept' := ⟨rfl, Nat.zero_le _⟩
  slots := rfl
  length := rfl
  allocated := nofun
  capacity := rfl
  capacity_le := Nat.le_refl _

/-- The capacities grow in step. -/
theorem Shadowed.grows {demand : Nat} (h : Shadowed b c) (hb : b.Grows demand b')
    (hc : c.Grows demand c') :
    max b'.capacity 1 = max c'.capacity 1 ∧ c'.capacity ≤ b'.capacity := by
  have hsame : max b'.capacity 1 = max c'.capacity 1 := by
    apply Option.some.inj
    rw [← hb.doubledCapacity?_eq, ← hc.doubledCapacity?_eq, h.doubledCapacity?_eq]
  refine ⟨hsame, ?_⟩
  by_contra hlt
  -- Then the first has no slot and the second has one, which it cannot have taken.
  have hnone : b'.capacity = 0 := by omega
  have hle := h.capacity_le
  have hgrown := hb.capacity_le
  have hfits : b.isAllocated = true ∧ demand ≤ b.capacity := by
    by_contra hmore
    have := hb.capacity_pos hmore
    omega
  have hkept := hc.2
  rw [if_pos ⟨h.allocated hfits.1, by omega⟩] at hkept
  omega

/-- Buffers that look alike still do when both obey an operation. -/
theorem Shadowed.of_obeys {operation : Operation α} (h : Shadowed b c)
    (hb : Obeys operation b b') (hc : Obeys operation c c') : Shadowed b' c' := by
  have hkept := hb.wellKept h.kept
  have hkept' := hc.wellKept h.kept'
  by_cases hfree : operation = .free
  · rw [hb.freed hfree, hc.freed hfree]
    exact ⟨⟨rfl, Nat.zero_le _⟩, ⟨rfl, Nat.zero_le _⟩, rfl, rfl, id, rfl, Nat.le_refl _⟩
  have hslots : b'.slots = c'.slots := by
    rw [hb.slots hfree, hc.slots hfree, h.toList_eq, h.slots]
  have hlength : b'.length = c'.length := by
    rw [← length_toList hkept.sound, ← length_toList hkept'.sound, hb.elements, hc.elements,
      h.toList_eq]
  have hbc := hb.capacity hfree
  have hcc := hc.capacity hfree
  rw [h.length] at hbc
  split at hbc
  · next demand hd =>
    rw [hd] at hcc
    obtain ⟨hsame, hle⟩ := h.grows hbc hcc
    exact ⟨hkept, hkept', hslots, hlength, fun _ ↦ hcc.1, hsame, hle⟩
  · next hd =>
    rw [hd] at hcc
    obtain ⟨ha, hcapacity⟩ := hbc
    obtain ⟨ha', hcapacity'⟩ := hcc
    refine ⟨hkept, hkept', hslots, hlength, ?_, ?_, ?_⟩
    · rw [ha, ha']
      exact h.allocated
    · rw [hcapacity, hcapacity', h.capacity]
    · rw [hcapacity, hcapacity']
      exact h.capacity_le

variable [Element α] {alloc : Allocator}

/-- The answer is that memory has been refused. -/
def IsRefusal (answer : Except GrowthError (Option α)) : Prop :=
  ∃ failure, answer = .error (.allocation failure)

/-- Slots that cannot be reserved are refused, or no size would do. -/
theorem of_reserve_eq_error (hb : b.WellKept) {additional : Nat} {e : GrowthError}
    (h : reserve alloc additional b = .error e c) :
    (∃ failure, e = .allocation failure) ∨ e = .capacityOverflow b.length additional ∧
      doubledCapacity? (b.length + additional) (max b.capacity 1) b.max_capacity_pos = none := by
  have hsize : max b.capacity 1 ≤ maxSize := Nat.max_le.mpr ⟨hb.size, by decide⟩
  unfold reserve at h
  split at h
  · next hsum =>
    cases h
    refine .inr ⟨rfl, ?_⟩
    cases hd : doubledCapacity? (b.length + additional) (max b.capacity 1) b.max_capacity_pos with
    | none => rfl
    | some found =>
      have := (le_doubledCapacity? hd).1
      have := doubledCapacity?_le_maxSize hd hsize
      omega
  · split at h
    · cases h
    · split at h
      · next hd =>
        cases h
        exact .inr ⟨rfl, hd⟩
      · next capacity hd =>
        dsimp only at h
        split at h
        · next failure hs =>
          cases h
          exact .inl ⟨failure, rfl⟩
        · cases h

theorem of_tryCopy_eq_error {e : GrowthError} (h : b.tryCopy alloc = .error e) :
    ∃ failure, e = .allocation failure := by
  unfold tryCopy at h
  split at h
  · cases h
  · split at h
    · cases h
    · next failure hs =>
      cases h
      exact ⟨failure, rfl⟩

/-- Unless it is a refusal, the answer to a use depends on the elements, and on whether doubling
finds a capacity for what is asked for. -/
theorem answer_of_not_isRefusal {use : Use α} (hn : ¬ IsRefusal (b.answer use))
    (hb : b.WellKept) :
    b.answer use =
      match use.operation.demand? b.length with
      | none => .ok (use.operation.givenOf b.toList)
      | some demand =>
        match doubledCapacity? demand (max b.capacity 1) b.max_capacity_pos with
        | none => .error (.capacityOverflow b.length (demand - b.length))
        | some _ => .ok (use.operation.givenOf b.toList) := by
  obtain ⟨alloc, operation⟩ := use
  cases hanswer : b.answer ⟨alloc, operation⟩ with
  | ok given =>
    obtain ⟨rfl, hobeys⟩ := obeys_of_answer hanswer hb.sound
    split
    · rfl
    · next demand hd =>
      have hgrows := hobeys.capacity (by rintro rfl; cases hd)
      rw [hd] at hgrows
      rw [hgrows.doubledCapacity?_eq]
  | error e =>
    have hgranted : ∀ failure, e ≠ .allocation failure := by
      rintro failure rfl
      exact hn ⟨failure, hanswer⟩
    have hoverflow : ∀ {additional : Nat} {c : Buffer α},
        reserve alloc additional b = .error e c → e = .capacityOverflow b.length additional ∧
          doubledCapacity? (b.length + additional) (max b.capacity 1) b.max_capacity_pos = none :=
      fun hr ↦ (of_reserve_eq_error hb hr).resolve_left fun ⟨failure, hf⟩ ↦ hgranted failure hf
    cases operation with
    | push v =>
      obtain ⟨-, hr⟩ := push_eq_error_iff.mp (of_answered_eq_error hanswer)
      obtain ⟨rfl, hd⟩ := hoverflow hr
      simp [Operation.demand?, hd]
    | extend values =>
      have he := of_answered_eq_error hanswer
      obtain ⟨rfl, hd⟩ := hoverflow (reserve_of_extend_eq_error he hb.sound)
      simp [Operation.demand?, hd]
    | reserve additional =>
      obtain ⟨rfl, hd⟩ := hoverflow (of_answered_eq_error hanswer)
      simp [Operation.demand?, hd]
    | tryCopy =>
      unfold answer respond at hanswer
      dsimp only at hanswer
      split at hanswer
      · cases hanswer
      · next hcopy =>
        cases hanswer
        obtain ⟨failure, hf⟩ := of_tryCopy_eq_error hcopy
        exact absurd hf (hgranted failure)
    | _ => cases hanswer

/-- Unless one of them is refused memory, both give the same answer and still look alike. -/
theorem Shadowed.perform {use : Use α} (h : Shadowed b c) (hn : ¬ IsRefusal (b.answer use))
    (hn' : ¬ IsRefusal (c.answer use)) :
    b.answer use = c.answer use ∧ Shadowed (b.perform use) (c.perform use) := by
  have hsame : b.answer use = c.answer use := by
    rw [answer_of_not_isRefusal hn h.kept, answer_of_not_isRefusal hn' h.kept', h.length,
      h.toList_eq]
    simp only [h.doubledCapacity?_eq]
  refine ⟨hsame, ?_⟩
  cases hanswer : b.answer use with
  | ok given =>
    have hanswer' := hsame.symm.trans hanswer
    exact h.of_obeys (obeys_of_answer hanswer h.kept.sound).2
      (obeys_of_answer hanswer' h.kept'.sound).2
  | error e =>
    have hanswer' := hsame.symm.trans hanswer
    rw [perform_of_error hanswer h.kept.sound, perform_of_error hanswer' h.kept'.sound]
    exact h

theorem Shadowed.run {history : List (Use α)} (h : Shadowed b c)
    (hn : ∀ answer ∈ b.answers history, ¬ IsRefusal answer)
    (hn' : ∀ answer ∈ c.answers history, ¬ IsRefusal answer) :
    b.answers history = c.answers history ∧ Shadowed (b.run history) (c.run history) := by
  induction history generalizing b c with
  | nil => exact ⟨rfl, h⟩
  | cons use history ih =>
    obtain ⟨hfirst, hrest⟩ := List.forall_mem_cons.mp hn
    obtain ⟨hfirst', hrest'⟩ := List.forall_mem_cons.mp hn'
    obtain ⟨hanswer, hnext⟩ := h.perform hfirst hfirst'
    obtain ⟨hanswers, hrun⟩ := ih hnext hrest hrest'
    rw [answers, answers, hanswer, hanswers]
    exact ⟨rfl, hrun⟩

end Granting

section EmptyRequests

variable [Element α]

/-- Room for no slot cannot be had without a slot. -/
theorem reserve_zero_unallocated (alloc : Allocator) :
    reserve alloc 0 (unallocated : Buffer α) =
      match alloc (Element.size α) 1 with
      | .error failure => .error (.allocation failure) unallocated
      | .ok room => .ok () { storage := some { room := room.val }, capacity := 1 } := by
  have hdoubled : doubledCapacity? (0 + 0) (max 0 1) (by omega) = some 1 := by
    rw [doubledCapacity?]
    rfl
  unfold reserve unallocated isAllocated
  dsimp only
  rw [if_neg (by decide), if_neg (by simp), hdoubled]
  dsimp only [Option.getD_none, Option.isNone]
  unfold Storage.reserve
  rw [if_neg (by simp)]
  cases alloc (Element.size α) 1 with
  | error failure => rfl
  | ok room => rfl

/-- Adding nothing is an empty request as well. -/
theorem extend_nil_eq_reserve (alloc : Allocator) (b : Buffer α) :
    extend alloc [] b = reserve alloc 0 b := by
  unfold extend
  rw [List.length_nil]
  cases reserve alloc 0 b with
  | ok u c => rfl
  | error e c => rfl

/-- A buffer that has been freed, or never had storage, and a new one with no slot: as long as no
empty request meets the former without storage, they answer alike and look alike, step by step. A
request that fits changes neither once there is storage. The empty request is where the freed one
falls short: it fits, and the new one is left as it is, but the freed one takes a slot, or fails for
want of it. Unless memory is refused, even that shows in nothing but the slot. -/
theorem interchangeable_with_slotless {freed zero : Buffer α}
    (hfreed : freed = unallocated ∨ ∃ b : Buffer α, b.Reachable ∧ freed = b.free)
    {alloc : Allocator} (hzero : create alloc 0 = .ok zero) :
    (∀ history, freed.asksForSlots history = true → freed.course history = zero.course history) ∧
    (∀ start ∈ [freed, zero], ∀ (history : List (Use α)) (alloc : Allocator) (additional : Nat),
      let b := start.run history
      b.isAllocated = true → b.length + additional ≤ b.capacity →
        reserve alloc additional b = .ok () b) ∧
    (∀ alloc : Allocator, reserve alloc 0 zero = .ok () zero ∧ extend alloc [] zero = .ok () zero ∧
      reserve alloc 0 freed = (match alloc (Element.size α) 1 with
        | .error failure => .error (.allocation failure) freed
        | .ok room => .ok () { storage := some { room := room.val }, capacity := 1 }) ∧
      extend alloc [] freed = reserve alloc 0 freed) ∧
    ∀ history : List (Use α),
      (∀ answer ∈ freed.answers history ++ zero.answers history, ¬ IsRefusal answer) →
      freed.answers history = zero.answers history ∧
        let b := freed.run history
        let c := zero.run history
        b.length = c.length ∧ b.toList = c.toList ∧ (∀ i, b.slot? i = c.slot? i) ∧
          (b.capacity = c.capacity ∨ b.capacity = 1 ∧ c.capacity = 0) := by
  obtain rfl : slotless = zero := Except.ok.inj hzero
  obtain rfl : freed = unallocated := by
    rcases hfreed with h | ⟨b, hb, rfl⟩
    · exact h
    · exact free_eq_unallocated hb.wellKept.sound
  have hshadowed := shadowed_unallocated_slotless (α := α)
  refine ⟨fun history ↦ course_unallocated_eq, ?_, fun alloc ↦ ?_, fun history hn ↦ ?_⟩
  · intro start hstart history alloc additional b ha hfits
    have hkept : start.WellKept := by
      obtain rfl | rfl : start = unallocated ∨ start = slotless := by simpa using hstart
      · exact hshadowed.kept
      · exact hshadowed.kept'
    exact reserve_of_fits (hkept.run history) ha hfits alloc
  · have hnone : reserve alloc 0 slotless = .ok () (slotless : Buffer α) :=
      reserve_of_fits hshadowed.kept' rfl (Nat.le_refl 0) alloc
    exact ⟨hnone, (extend_nil_eq_reserve alloc _).trans hnone, reserve_zero_unallocated alloc,
      extend_nil_eq_reserve alloc _⟩
  · obtain ⟨hn, hn'⟩ := List.forall_mem_append.mp hn
    obtain ⟨hanswers, hrun⟩ := hshadowed.run hn hn'
    exact ⟨hanswers, hrun.length, hrun.toList_eq, hrun.slot?_eq, hrun.capacity_cases⟩

/-- A buffer of two slots that has been freed takes three elements, the first of them only when it
is tried again, and gives one back. An empty request that finds storage is no exception. -/
theorem interchangeable_after_refused_push :
    let freed : Buffer UInt8 := Buffer.free
      { storage := some { slots := #[1], room := 2 }, length := 1, capacity := 2 }
    let history : List (Use UInt8) :=
      [⟨.limited 0, .push 3⟩, ⟨.limited 8, .push 3⟩, ⟨.limited 0, .reserve 0⟩,
        ⟨.limited 8, .extend [4, 5]⟩, ⟨.limited 8, .pop 0⟩, ⟨.limited 0, .extend []⟩,
        ⟨.limited 0, .clear⟩]
    freed.course history = course slotless history ∧ (freed.run history).capacity = 4 ∧
      reserve (.limited 0) 4 (freed.run history) = .ok () (freed.run history) := by
  intro freed history
  have hstart : IsNew { storage := some { room := 2 }, capacity := 2 : Buffer UInt8 } :=
    .create (by decide : 2 ≤ maxSize) (rfl : create .unlimited 2 = _)
  have hfreed : freed = unallocated ∨ ∃ b : Buffer UInt8, b.Reachable ∧ freed = b.free :=
    .inr ⟨_, ⟨_, [⟨.unlimited, .push 1⟩], hstart, rfl⟩, rfl⟩
  obtain ⟨hsame, hfits, -⟩ := interchangeable_with_slotless hfreed (create_zero .unlimited)
  exact ⟨hsame history (by decide +kernel), by decide +kernel,
    hfits freed List.mem_cons_self history (.limited 0) 4 (by decide +kernel) (by decide +kernel)⟩

/-- A request for no slot, which should change neither, tells the two apart. -/
theorem empty_request_tells_apart :
    let history : List (Use UInt8) := [⟨.addressSpace, .reserve 0⟩]
    let freed : Buffer UInt8 := unallocated
    ∃ zero, create .addressSpace 0 = .ok zero ∧ (freed.run history).capacity = 1 ∧
      (zero.run history).capacity = 0 ∧ freed.course history ≠ zero.course history := by
  intro history freed
  refine ⟨slotless, create_zero _, by decide +kernel, by decide +kernel, fun hsame ↦ ?_⟩
  have hcapacities : (freed.course history).map (fun step ↦ step.2.capacity) =
      (course slotless history).map (fun step ↦ step.2.capacity) := by rw [hsame]
  exact absurd hcapacities (by decide +kernel)

end EmptyRequests

end Delimited.Buffer
