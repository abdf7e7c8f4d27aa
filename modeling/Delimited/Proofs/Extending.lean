import Delimited.Proofs.Reserving

/-!
# Adding at once and one by one

Elements that are added at once get room all together, elements that are pushed one by one get it
whenever there is none left. Doubling passes through the same capacities on either way, so both lead
to the same buffer. They also fail alike under an allocator that refuses every request that is at
least as large as one that it refuses: the largest room that pushing asks for is the room that
adding at once asks for. Only a surplus that is refused on request, and granted unasked, lets pushes
succeed where adding at once fails.
-/

namespace Delimited

namespace Allocator

/-- There is no room for so many elements. -/
def Refuses (alloc : Allocator) (elementSize count : Nat) : Prop :=
  ∃ failure, alloc elementSize count = .error failure

/-- Of elements of one size, every request that is at least as large as a refused one is refused. -/
def RefusesLarger (alloc : Allocator) : Prop :=
  ∀ ⦃elementSize count more : Nat⦄, alloc.Refuses elementSize count → count ≤ more →
    alloc.Refuses elementSize more

/-- What is granted for elements of one size is always less than what is refused, any surplus
included. -/
def Consistent (alloc : Allocator) : Prop :=
  ∀ ⦃elementSize request refused : Nat⦄ ⦃room : { room : Nat // request ≤ room }⦄,
    alloc elementSize request = .ok room → alloc.Refuses elementSize refused → room < refused

/-- What is refused is refused still, and what is granted is granted without a surplus. Storage that
is reserved exactly counts the room that it has asked for, whatever else has been set aside. -/
def exactly (alloc : Allocator) : Allocator := fun elementSize count ↦
  (alloc elementSize count).map fun _ ↦ ⟨count, Nat.le_refl count⟩

variable {alloc : Allocator} {elementSize count more : Nat}

theorem not_refuses_iff :
    ¬ alloc.Refuses elementSize count ↔ ∃ room, alloc elementSize count = .ok room := by
  unfold Refuses
  cases alloc elementSize count with
  | error failure => simp
  | ok room => simp

theorem refuses_exactly_iff :
    alloc.exactly.Refuses elementSize count ↔ alloc.Refuses elementSize count := by
  unfold Refuses exactly
  cases alloc elementSize count with
  | error failure => simp [Except.map]
  | ok room => simp [Except.map]

/-- Without a surplus, to refuse what is larger than refused is all that it takes. -/
theorem RefusesLarger.consistent (h : alloc.RefusesLarger) : alloc.exactly.Consistent := by
  intro elementSize request refused room hroom hrefused
  have hexact : room.val = request := by
    unfold exactly at hroom
    cases hgranted : alloc elementSize request with
    | error failure =>
      rw [hgranted] at hroom
      cases hroom
    | ok granted =>
      rw [hgranted] at hroom
      cases hroom
      rfl
  rw [hexact]
  by_contra hle
  obtain ⟨failure, hfailure⟩ :=
    refuses_exactly_iff.mpr (h (refuses_exactly_iff.mp hrefused) (Nat.le_of_not_lt hle))
  rw [hroom] at hfailure
  cases hfailure

/-- Grants requests for up to so many elements exactly. -/
def limited (most : Nat) : Allocator := fun _ count ↦
  if most < count then .error .refused else .ok ⟨count, Nat.le_refl count⟩

theorem refuses_addressSpace_iff :
    addressSpace.Refuses elementSize count ↔ 0x800000000000 ≤ elementSize * count := by
  unfold Refuses addressSpace
  split
  · simp
    omega
  · split
    · simp
      omega
    · simp
      omega

/-- The address space refuses what is larger than refused, and grants without a surplus. -/
theorem consistent_addressSpace : addressSpace.Consistent := by
  have hlarger : addressSpace.RefusesLarger := by
    intro elementSize count more h hle
    rw [refuses_addressSpace_iff] at h ⊢
    exact Nat.le_trans h (Nat.mul_le_mul_left elementSize hle)
  have hexact : addressSpace.exactly = addressSpace := by
    funext elementSize count
    unfold exactly addressSpace
    split
    · rfl
    · split <;> rfl
  rw [← hexact]
  exact hlarger.consistent

theorem not_refuses_unlimited : ¬ unlimited.Refuses elementSize count := nofun

end Allocator

/-- The capacity that was found for a demand is on the way to any larger one. -/
theorem doubledCapacity?_of_le {first required capacity found : Nat} {h : 0 < capacity}
    (hf : doubledCapacity? first capacity h = some found) (hle : first ≤ required)
    (hpos : 0 < found) :
    doubledCapacity? required capacity h = doubledCapacity? required found hpos := by
  fun_induction doubledCapacity? first capacity h with
  | case1 capacity h _ =>
    cases hf
    rfl
  | case2 capacity h hlt hsize ih =>
    rw [doubledCapacity?, if_neg (by omega), if_pos hsize]
    exact ih hf
  | case3 => cases hf

/-- A smaller demand is met on the way. -/
theorem exists_doubledCapacity?_le {first required capacity found : Nat} {h : 0 < capacity}
    (hf : doubledCapacity? required capacity h = some found) (hle : first ≤ required) :
    ∃ earlier ≤ found, doubledCapacity? first capacity h = some earlier := by
  fun_induction doubledCapacity? required capacity h with
  | case1 capacity h hreq =>
    cases hf
    exact ⟨found, Nat.le_refl _, by rw [doubledCapacity?, if_pos (by omega)]⟩
  | case2 capacity h hlt hsize ih =>
    by_cases hfirst : first ≤ capacity
    · refine ⟨capacity, ?_, ?_⟩
      · have := (le_doubledCapacity? hf).2
        omega
      · rw [doubledCapacity?, if_pos hfirst]
    · rw [doubledCapacity?, if_neg hfirst, if_pos hsize]
      exact ih hf
  | case3 => cases hf

namespace Buffer

section Growing

variable {α : Type} {b c d : Buffer α} {demand more : Nat}

/-- A capacity that meets the demand is not doubled. -/
theorem doubledCapacity?_max (h : demand ≤ max b.capacity 1) :
    doubledCapacity? demand (max b.capacity 1) b.max_capacity_pos = some (max b.capacity 1) := by
  rw [doubledCapacity?, if_pos h]

/-- Growing leads to the capacity, or the one slot, that doubling finds for the demand. -/
theorem Grows.doubledCapacity?_eq (h : b.Grows demand c) :
    doubledCapacity? demand (max b.capacity 1) b.max_capacity_pos = some (max c.capacity 1) := by
  obtain ⟨-, h⟩ := h
  split at h
  · rw [h]
    exact doubledCapacity?_max (by omega)
  · rw [h, Nat.max_eq_left]
    have := (le_doubledCapacity? h).2
    omega

/-- A buffer that did not meet the demand has a slot now, even if the demand was for none. -/
theorem Grows.capacity_pos (h : b.Grows demand c)
    (hdemand : ¬ (b.isAllocated = true ∧ demand ≤ b.capacity)) : 0 < c.capacity := by
  obtain ⟨-, h⟩ := h
  rw [if_neg hdemand] at h
  have := (le_doubledCapacity? h).2
  omega

/-- What has grown for one demand goes on to a larger one as if it were still to grow. -/
theorem Grows.doubledCapacity?_of_le (h : b.Grows demand c) (hle : demand ≤ more) :
    doubledCapacity? more (max b.capacity 1) b.max_capacity_pos =
      doubledCapacity? more (max c.capacity 1) c.max_capacity_pos :=
  Delimited.doubledCapacity?_of_le h.doubledCapacity?_eq hle _

/-- Growing step by step is growing at once. -/
theorem Grows.trans (h : b.Grows demand c) (h' : c.Grows more d) (hle : demand ≤ more) :
    b.Grows more d := by
  refine ⟨h'.1, ?_⟩
  by_cases hmore : b.isAllocated = true ∧ more ≤ b.capacity
  · have hb := h.2
    have hc := h'.2
    rw [if_pos ⟨hmore.1, by omega⟩] at hb
    rw [if_pos ⟨h.1, by omega⟩] at hc
    rw [if_pos hmore, hc, hb]
  · have hpos : 0 < d.capacity := by
      by_cases hdemand : b.isAllocated = true ∧ demand ≤ b.capacity
      · have hlt : b.capacity < more := Nat.lt_of_not_le fun hfits ↦ hmore ⟨hdemand.1, hfits⟩
        have := h'.le_capacity
        omega
      · exact Nat.lt_of_lt_of_le (h.capacity_pos hdemand) h'.capacity_le
    rw [if_neg hmore, h.doubledCapacity?_of_le hle, h'.doubledCapacity?_eq, Nat.max_eq_left hpos]

/-- What becomes of the capacity is settled by the demand. -/
theorem Grows.unique (h : b.Grows demand c) (h' : b.Grows demand d) :
    c.isAllocated = d.isAllocated ∧ c.capacity = d.capacity := by
  refine ⟨h.1.trans h'.1.symm, ?_⟩
  have hc := h.2
  have hd := h'.2
  split at hc
  · next hfits =>
    rw [if_pos hfits] at hd
    exact hc.trans hd.symm
  · next hfits =>
    rw [if_neg hfits, hc] at hd
    exact Option.some.inj hd

end Growing
section Affording

variable {α : Type} [Element α] {alloc : Allocator} {b c : Buffer α} {demand more : Nat}

omit [Element α] in
/-- Buffers with the same counts and slots look the same. -/
theorem view_eq_of_slots (hlength : b.length = c.length) (hcapacity : b.capacity = c.capacity)
    (hslots : b.slots = c.slots) : b.view = c.view := by
  have hlist : b.toList = c.toList := by rw [toList_eq_take, toList_eq_take, hslots, hlength]
  have hslot : b.slot? = c.slot? := by
    funext i
    rw [slot?_eq, slot?_eq, hslots]
  unfold view
  rw [hlength, hcapacity, hlist, hslot]

theorem refusal?_eq_none_iff {capacity : Nat} :
    b.refusal? alloc capacity = none ↔
      capacity ≤ b.room ∨ ¬ alloc.Refuses (Element.size α) capacity := by
  rw [Allocator.not_refuses_iff]
  unfold refusal?
  split
  · next hle => simp [hle]
  · next hlt =>
    cases alloc (Element.size α) capacity with
    | error failure => simp [hlt]
    | ok room => simp

/-- A demand is within reach: doubling finds a capacity for it, and room for that can be had. -/
def Affords (alloc : Allocator) (demand : Nat) (b : Buffer α) : Prop :=
  ∃ capacity, doubledCapacity? demand (max b.capacity 1) b.max_capacity_pos = some capacity ∧
    b.refusal? alloc capacity = none

/-- A request for slots that are there changes nothing. -/
theorem reserve_of_fits (hb : b.WellKept) {additional : Nat} (ha : b.isAllocated = true)
    (hle : b.length + additional ≤ b.capacity) (alloc : Allocator) :
    reserve alloc additional b = .ok () b := by
  have hsize := hb.size
  unfold reserve
  rw [if_neg (by omega), if_pos ⟨ha, hle⟩]

/-- Slots can be reserved just when the demand is within reach. -/
theorem exists_reserve_iff (hb : b.WellKept) {additional : Nat}
    (hpos : 0 < b.length + additional) :
    (∃ c, reserve alloc additional b = .ok () c) ↔ b.Affords alloc (b.length + additional) := by
  obtain ⟨least, hleast⟩ :=
    exists_isLeast_doubling (b.length + additional) b.max_capacity_pos
  have hsize : max b.capacity 1 ≤ maxSize := Nat.max_le.mpr ⟨hb.size, by decide⟩
  have hdoubled := doubledCapacity?_eq_of_isLeast (h := b.max_capacity_pos) hleast hsize
  have hle : b.length + additional ≤ least := hleast.1.2
  have houtcome := @reserve_eq _ _ alloc _ hb _ _ hleast
  unfold Affords
  by_cases hfits : b.isAllocated = true ∧ b.length + additional ≤ b.capacity
  · have hmet : doubledCapacity? (b.length + additional) (max b.capacity 1) b.max_capacity_pos =
        some b.capacity := by
      rw [doubledCapacity?_max (by omega), Nat.max_eq_left (by omega)]
    have hroom : b.capacity ≤ b.room := (isSound_iff.mp hb.sound).2.2
    exact ⟨fun _ ↦ ⟨b.capacity, hmet, refusal?_eq_none_iff.mpr (.inl hroom)⟩,
      fun _ ↦ ⟨b, reserve_of_fits hb hfits.1 hfits.2 alloc⟩⟩
  · rw [hdoubled]
    by_cases hover : maxSize < least
    · have herror : reserve alloc additional b =
          .error (.capacityOverflow b.length additional) b := by
        rwa [if_neg hfits, if_pos hover, ite_self] at houtcome
      rw [herror, if_neg (by omega)]
      simp
    · rw [if_neg (by omega), if_neg hfits, if_neg hover] at houtcome
      rw [if_pos (by omega)]
      cases hrefusal : b.refusal? alloc least with
      | some failure =>
        rw [hrefusal] at houtcome
        rw [houtcome]
        simp [hrefusal]
      | none =>
        rw [hrefusal] at houtcome
        obtain ⟨grown, hok, -⟩ := houtcome
        exact ⟨fun _ ↦ ⟨least, rfl, hrefusal⟩, fun _ ↦ ⟨grown, hok⟩⟩

/-- An element can be pushed just when a demand for one slot more is within reach. -/
theorem exists_push_iff (hb : b.WellKept) (v : α) :
    (∃ c, push alloc v b = .ok () c) ↔ b.Affords alloc (b.length + 1) := by
  rw [← exists_reserve_iff hb (Nat.succ_pos _)]
  constructor
  · rintro ⟨c, h⟩
    obtain ⟨grown, -, ⟨ha, hne, rfl⟩ | hr⟩ := push_cases h
    · have hle := length_le_capacity hb.sound
      exact ⟨grown, reserve_of_fits hb ha (by omega) alloc⟩
    · exact ⟨grown, hr⟩
  · rintro ⟨grown, hr⟩
    unfold push
    split
    · rw [hr]
      exact ⟨_, rfl⟩
    · exact ⟨_, rfl⟩

/-- Elements can be added at once just when a demand for all of them is within reach. -/
theorem exists_extend_iff (hb : b.WellKept) {values : List α} (hv : values ≠ []) :
    (∃ c, extend alloc values b = .ok () c) ↔ b.Affords alloc (b.length + values.length) := by
  have hpos : 0 < values.length := List.length_pos_iff.mpr hv
  rw [← exists_reserve_iff hb (by omega)]
  constructor
  · rintro ⟨c, h⟩
    cases hr : reserve alloc values.length b with
    | ok _ grown => exact ⟨grown, rfl⟩
    | error e d =>
      rw [extend, hr] at h
      cases h
  · rintro ⟨grown, hr⟩
    obtain ⟨c, hc, -⟩ := extend_of_reserve hr hb.sound
    exact ⟨c, hc⟩

/-- With a larger demand, every smaller one is within reach. -/
theorem Affords.of_le (hl : alloc.RefusesLarger) (h : b.Affords alloc more) (hle : demand ≤ more) :
    b.Affords alloc demand := by
  obtain ⟨capacity, hd, hrefusal⟩ := h
  obtain ⟨earlier, hearlier, hd'⟩ := exists_doubledCapacity?_le hd hle
  refine ⟨earlier, hd', refusal?_eq_none_iff.mpr ?_⟩
  rcases refusal?_eq_none_iff.mp hrefusal with hroom | hgranted
  · exact .inl (Nat.le_trans hearlier hroom)
  · exact .inr fun hrefused ↦ hgranted (hl hrefused hearlier)

/-- An allocator that refuses nothing puts within reach whatever any allocator does. -/
theorem Affords.unlimited (h : b.Affords alloc demand) : b.Affords .unlimited demand := by
  obtain ⟨capacity, hd, -⟩ := h
  exact ⟨capacity, hd, refusal?_eq_none_iff.mpr (.inr Allocator.not_refuses_unlimited)⟩

/-- Room is never given up. New room is what has been granted for the capacity. -/
theorem room_of_reserve (hb : b.isSound = true) {additional : Nat}
    (h : reserve alloc additional b = .ok () c) :
    c.room = b.room ∨ b.room ≤ c.room ∧ ∃ room : { room : Nat // c.capacity ≤ room },
      alloc (Element.size α) c.capacity = .ok room ∧ c.room = room := by
  obtain ⟨-, rfl⟩ | ⟨-, capacity, storage, hd, hs, rfl⟩ := reserve_cases h
  · exact .inl rfl
  · have hwritten : b.slots.length ≤ b.capacity := (isSound_iff.mp hb).2.1
    have hmore := (le_doubledCapacity? hd).2
    unfold slots at hwritten
    unfold room
    rw [Option.getD_some]
    rw [Array.length_toList] at hwritten
    generalize b.storage.getD {} = s at *
    unfold Storage.reserve at hs
    split at hs
    · cases hs
      exact .inl rfl
    · have hrequest : s.slots.size + (capacity - s.slots.size) = capacity := by omega
      rw [hrequest] at hs
      cases hgranted : alloc (Element.size α) capacity with
      | error failure =>
        rw [hgranted] at hs
        cases hs
      | ok granted =>
        rw [hgranted] at hs
        cases hs
        have := granted.property
        exact .inr ⟨by dsimp only; omega, granted, rfl, rfl⟩

/-- The same for a push. -/
theorem room_grown_of_push (hb : b.WellKept) {v : α} (hp : push alloc v b = .ok () c) :
    c.room = b.room ∨ b.room ≤ c.room ∧ ∃ room : { room : Nat // c.capacity ≤ room },
      alloc (Element.size α) c.capacity = .ok room ∧ c.room = room := by
  obtain ⟨grown, s, hgrown, hc, hs, -, -, -, hroom⟩ := room_of_push hp hb
  have hsame : c.room = grown.room := by
    rw [hroom, room, hs, Option.getD_some]
  have hcapacity : c.capacity = grown.capacity := by
    rw [hc]
    rfl
  rw [hsame, hcapacity]
  rcases hgrown with rfl | hr
  · exact .inl rfl
  · exact room_of_reserve hb.sound hr

omit [Element α] in
theorem isOk_answered {result : EStateM.Result GrowthError (Buffer α) Unit} :
    (answered result).1.isOk = true ↔ result = .ok () (answered result).2 := by
  cases result with
  | ok u c => simp [answered, Except.isOk, Except.toBool]
  | error e c => simp [answered, Except.isOk, Except.toBool]

omit [Element α] in
/-- The values pushed one by one, all with the same allocator. -/
def pushing (alloc : Allocator) (values : List α) : List (Use α) :=
  values.map fun v ↦ ⟨alloc, .push v⟩

/-- All pushes succeed if the first does, and then the others. -/
theorem isOk_pushes_cons_iff {v : α} {values : List α} :
    (∀ answer ∈ b.answers (pushing alloc (v :: values)), answer.isOk = true) ↔
      ∃ c, push alloc v b = .ok () c ∧
        ∀ answer ∈ c.answers (pushing alloc values), answer.isOk = true := by
  unfold pushing
  rw [List.map_cons, answers, List.forall_mem_cons]
  constructor
  · rintro ⟨hfirst, hrest⟩
    exact ⟨_, isOk_answered.mp hfirst, hrest⟩
  · rintro ⟨c, hp, hrest⟩
    have hanswered : b.respond ⟨alloc, .push v⟩ = (.ok none, c) := by
      show answered (push alloc v b) = _
      rw [hp]
      rfl
    have hperform : b.perform ⟨alloc, .push v⟩ = c := congrArg Prod.snd hanswered
    exact ⟨congrArg (fun answered ↦ answered.1.isOk) hanswered, hperform ▸ hrest⟩

/-- A buffer is well kept behind a push. -/
theorem WellKept.push (hb : b.WellKept) {v : α} (hp : push alloc v b = .ok () c) : c.WellKept := by
  obtain ⟨hsound, -, -, hgrows⟩ := of_push_eq_ok hp hb.sound
  exact ⟨hsound, hgrows.capacity_le_maxSize hb.size⟩

omit [Element α] in
theorem exists_error_iff {result : EStateM.Result GrowthError (Buffer α) Unit} :
    (∃ e c, result = .error e c) ↔ ¬ ∃ c, result = .ok () c := by
  cases result with
  | ok u c => simp
  | error e c => simp

end Affording

/-- Room for two slots is granted to a request for one, while a request for two is refused. Any two
elements can be pushed, since the second finds the surplus of the first, but not added at once. This
is what `Allocator.Consistent` excludes; to refuse what is larger than refused does not. -/
theorem pushes_find_surplus {α : Type} [Element α] {alloc : Allocator}
    {granted : { room : Nat // 1 ≤ room }} (hone : alloc (Element.size α) 1 = .ok granted)
    (hgranted : 2 ≤ granted.val) (htwo : alloc.Refuses (Element.size α) 2) (v w : α) :
    (∀ answer ∈ answers unallocated (pushing alloc [v, w]), answer.isOk = true) ∧
      ∃ e, extend alloc [v, w] (unallocated : Buffer α) = .error e unallocated := by
  have hstart : (unallocated : Buffer α).WellKept := ⟨rfl, Nat.zero_le _⟩
  have hdoubled : doubledCapacity? 1 1 Nat.one_pos = some 1 := by
    rw [doubledCapacity?, if_pos (Nat.le_refl 1)]
  have hdoubled' : doubledCapacity? 2 1 Nat.one_pos = some 2 := by
    rw [doubledCapacity?, if_neg (by decide), if_pos (by decide), doubledCapacity?,
      if_pos (by decide)]
  constructor
  · obtain ⟨c, hp⟩ := (exists_push_iff hstart v).mpr
      ⟨1, hdoubled, refusal?_eq_none_iff.mpr (.inr (Allocator.not_refuses_iff.mpr ⟨_, hone⟩))⟩
    have hc := hstart.push hp
    obtain ⟨-, -, hlength, hgrows⟩ := of_push_eq_ok hp hstart.sound
    have hcapacity : c.capacity = 1 := by
      have hd := hgrows.2
      rw [if_neg fun h ↦ Bool.false_ne_true h.1] at hd
      exact Option.some.inj (hd.symm.trans hdoubled)
    have hsurplus : 2 ≤ c.room := by
      rcases room_grown_of_push hstart hp with hnone | ⟨-, room, hroom, hsame⟩
      · have hle : c.capacity ≤ c.room := (isSound_iff.mp hc.sound).2.2
        have hempty : (unallocated : Buffer α).room = 0 := rfl
        omega
      · rw [hsame]
        generalize c.capacity = capacity at room hroom hcapacity
        subst hcapacity
        rw [hone] at hroom
        cases hroom
        exact hgranted
    have hreach :
        doubledCapacity? (c.length + 1) (max c.capacity 1) c.max_capacity_pos = some 2 := by
      simp only [hlength, hcapacity]
      exact hdoubled'
    obtain ⟨e, hp'⟩ := (exists_push_iff hc w).mpr
      ⟨2, hreach, refusal?_eq_none_iff.mpr (.inl hsurplus)⟩
    exact isOk_pushes_cons_iff.mpr ⟨c, hp, isOk_pushes_cons_iff.mpr ⟨e, hp', List.forall_mem_nil _⟩⟩
  · have hfails : ¬ ∃ c, extend alloc [v, w] (unallocated : Buffer α) = .ok () c := by
      rw [exists_extend_iff hstart (List.cons_ne_nil _ _)]
      rintro ⟨capacity, hd, hrefusal⟩
      obtain rfl : capacity = 2 := Option.some.inj (hd.symm.trans hdoubled')
      rcases refusal?_eq_none_iff.mp hrefusal with hfits | hgranted
      · cases hfits
      · exact hgranted htwo
    obtain ⟨e, c, he⟩ := exists_error_iff.mpr hfails
    exact ⟨e, (eq_of_extend_eq_error he hstart.sound) ▸ he⟩

end Buffer
end Delimited
