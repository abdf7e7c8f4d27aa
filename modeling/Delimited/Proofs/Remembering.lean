import Delimited.Proofs.Bookkeeping

/-!
# A buffer remembers what was stored

A buffer is a plain list that remembers. Beside the elements there is the largest number of
elements since the storage was created, and what has been stored at which place. Slots up to that
number can be read, and each holds what was stored in it last. What the buffer does to its elements
never depends on what it remembers, so buffers with equal elements behave alike.
-/

namespace Delimited.Buffer

variable {α : Type}

/-- Values with their places, the first of which is given. -/
def placed (place : Nat) (values : List α) : List (Nat × α) :=
  (List.range' place values.length).zip values

/-- A plain list with a memory. -/
structure Memory (α : Type) where
  elements : List α := []
  /-- The largest number of elements since there is storage. -/
  peak : Nat := 0
  /-- What has been stored since there is storage, latest first. -/
  stored : List (Nat × α) := []

/-- The list and its memory after an operation that succeeds. Giving the storage back clears the
memory. -/
def Memory.after (m : Memory α) (operation : Operation α) : Memory α :=
  match operation with
  | .free => {}
  | _ =>
    let elements := operation.onList m.elements
    let stored := operation.stores m.elements m.peak
    { elements
      peak := max m.peak elements.length
      stored := placed stored.1 stored.2 ++ m.stored }

/-- The list and its memory after operations on the empty list, earliest first. -/
def Memory.run (operations : List (Operation α)) : Memory α := operations.foldl after {}

namespace Operation

/-- The elements that an operation adds behind those that there are. -/
def added : Operation α → List α
  | .push v => [v]
  | .extend values => values
  | _ => []

/-- An operation treats equal elements alike: its own values equal themselves, and an order to sort
by does not tell equal elements apart. -/
def Respects [BEq α] : Operation α → Prop
  | .push v => (v == v) = true
  | .pop fallback => (fallback == fallback) = true
  | .extend values => ∀ v ∈ values, (v == v) = true
  | .sort order => ∀ x x' y y', (x == x') = true → (y == y') = true →
      (order.compare x y).isLE = (order.compare x' y').isLE
  | .set _ v => (v == v) = true
  | .replaceSlot _ v => (v == v) = true
  | _ => True

/-- Where only identical elements are equal, every operation treats equal elements alike. -/
theorem respects [BEq α] [LawfulBEq α] (operation : Operation α) : operation.Respects := by
  cases operation with
  | extend values => exact fun v _ ↦ beq_self_eq_true v
  | sort order =>
    intro x x' y y' hx hy
    rw [eq_of_beq hx, eq_of_beq hy]
  | _ => simp [Respects]

/-- An operation stores at slots that exist or right behind the last one. -/
theorem stores_fst_le {elements : List α} {slots : Nat} (operation : Operation α)
    (h : elements.length ≤ slots) : (operation.stores elements slots).1 ≤ slots := by
  cases operation with
  | push v => exact h
  | extend values => exact h
  | set i v =>
    simp only [stores]
    split <;> simp
    omega
  | replaceSlot i v =>
    simp only [stores]
    split <;> simp
    omega
  | _ => exact Nat.zero_le _

/-- The slots that exist after an operation are as many as there ever were elements. -/
theorem max_stores {elements : List α} {slots : Nat} {operation : Operation α}
    (h : elements.length ≤ slots) (hfree : operation ≠ .free) :
    max slots
        ((operation.stores elements slots).1 + (operation.stores elements slots).2.length) =
      max slots (operation.onList elements).length := by
  cases operation with
  | set i v =>
    simp only [stores, onList, List.length_set]
    split <;> simp <;> omega
  | replaceSlot i v =>
    simp only [stores, onList, List.length_set]
    split <;> simp <;> omega
  | free => exact absurd rfl hfree
  | _ => simp [stores, onList] <;> omega

end Operation

/-- What has been stored last at a place is a new value if one was stored there. -/
theorem lookup_placed (values : List α) (place i : Nat) (stored : List (Nat × α)) :
    (placed place values ++ stored).lookup i =
      if place ≤ i ∧ i < place + values.length then values[i - place]? else stored.lookup i := by
  induction values generalizing place with
  | nil =>
    rw [if_neg (by simp)]
    rfl
  | cons v values ih =>
    rw [placed, List.length_cons, List.range'_succ, List.zip_cons_cons, List.cons_append,
      List.lookup_cons]
    split
    · next hi =>
      obtain rfl := eq_of_beq hi
      simp
    · next hi =>
      have hne : i ≠ place := by simpa using hi
      rw [← placed, ih]
      by_cases hin : place + 1 ≤ i ∧ i < place + 1 + values.length
      · have hsub : i - place = i - (place + 1) + 1 := by omega
        rw [if_pos hin, if_pos (by omega), hsub, List.getElem?_cons_succ]
      · rw [if_neg hin, if_neg (by omega)]

/-- The memory says of every slot whether it has been written and what it holds. -/
structure Remembers (m : Memory α) (b : Buffer α) : Prop where
  sound : b.isSound = true
  elements : b.toList = m.elements
  peak : b.slots.length = m.peak
  stored (i : Nat) : b.slots[i]? = m.stored.lookup i

theorem Remembers.length_le {m : Memory α} {b : Buffer α} (h : Remembers m b) :
    m.elements.length ≤ m.peak := by
  rw [← h.elements, length_toList h.sound, ← h.peak]
  exact (isSound_iff.mp h.sound).1

/-- An operation that succeeds is remembered. -/
theorem Remembers.after {operation : Operation α} {m : Memory α} {b c : Buffer α}
    (h : Remembers m b) (hc : Obeys operation b c) : Remembers (m.after operation) c := by
  by_cases hfree : operation = .free
  · obtain rfl := hc.freed hfree
    subst hfree
    exact ⟨rfl, rfl, rfl, fun i ↦ rfl⟩
  · have hafter : m.after operation =
        { elements := operation.onList m.elements
          peak := max m.peak (operation.onList m.elements).length
          stored := placed (operation.stores m.elements m.peak).1
            (operation.stores m.elements m.peak).2 ++ m.stored } := by
      cases operation with
      | free => exact absurd rfl hfree
      | _ => rfl
    have hplace : (operation.stores m.elements m.peak).1 ≤ b.slots.length := by
      rw [h.peak]
      exact operation.stores_fst_le h.length_le
    have hslots := hc.slots hfree
    dsimp only at hslots
    rw [h.elements, h.peak] at hslots
    rw [hafter]
    refine ⟨hc.sound, ?_, ?_, fun i ↦ ?_⟩
    · rw [hc.elements, h.elements]
    · rw [hslots, length_overwrite hplace, h.peak, Operation.max_stores h.length_le hfree]
    · rw [hslots, getElem?_overwrite hplace, lookup_placed, h.stored]

/-- A new buffer has nothing to remember. -/
theorem IsNew.remembers [Element α] {b : Buffer α} (h : b.IsNew) : Remembers {} b := by
  have hslots : b.slots = [] ∧ b.toList = [] := by
    cases h with
    | unallocated => exact ⟨rfl, rfl⟩
    | create hsize h => exact ⟨slots_of_create_eq_ok h, (create_eq_ok h).2.1⟩
  obtain ⟨hslots, helements⟩ := hslots
  refine ⟨h.wellKept.sound, helements, ?_, fun i ↦ ?_⟩
  · rw [hslots]
    rfl
  · rw [hslots]
    rfl

/-- A whole history is remembered, less what failed. -/
theorem Remembers.run [Element α] {m : Memory α} {b : Buffer α} (h : Remembers m b)
    (history : List (Use α)) :
    Remembers ((b.succeeding history).foldl Memory.after m) (b.run history) := by
  induction history generalizing m b with
  | nil => exact h
  | cons use history ih =>
    rw [run_cons, succeeding]
    split
    · next given hok => exact ih (h.after (obeys_of_answer hok h.sound).2)
    · next e herror =>
      rw [perform_of_error herror h.sound]
      exact ih h

section Agreement

variable [BEq α]

/-- Lists are equal when they can be laid side by side with equal elements. -/
theorem beq_iff_pairs {elements elements' : List α} :
    (elements == elements') = true ↔
      ∃ pairs : List (α × α), pairs.map Prod.fst = elements ∧ pairs.map Prod.snd = elements' ∧
        ∀ p ∈ pairs, (p.1 == p.2) = true := by
  constructor
  · intro h
    induction elements generalizing elements' with
    | nil =>
      cases elements' with
      | nil => exact ⟨[], rfl, rfl, nofun⟩
      | cons v' elements' => cases h
    | cons v elements ih =>
      cases elements' with
      | nil => cases h
      | cons v' elements' =>
        rw [List.cons_beq_cons, Bool.and_eq_true] at h
        obtain ⟨pairs, rfl, rfl, hpairs⟩ := ih h.2
        exact ⟨(v, v') :: pairs, rfl, rfl, List.forall_mem_cons.mpr ⟨h.1, hpairs⟩⟩
  · rintro ⟨pairs, rfl, rfl, hpairs⟩
    induction pairs with
    | nil => rfl
    | cons p pairs ih =>
      obtain ⟨hp, hpairs⟩ := List.forall_mem_cons.mp hpairs
      rw [List.map_cons, List.map_cons, List.cons_beq_cons, hp, ih hpairs]
      rfl

/-- Equal lists stay equal under an operation that treats equal elements alike. -/
theorem onList_beq {operation : Operation α} {elements elements' : List α}
    (ho : operation.Respects) (h : (elements == elements') = true) :
    (operation.onList elements == operation.onList elements') = true := by
  obtain ⟨pairs, rfl, rfl, hpairs⟩ := beq_iff_pairs.mp h
  rw [beq_iff_pairs]
  cases operation with
  | push v =>
    refine ⟨pairs ++ [(v, v)], by simp [Operation.onList], by simp [Operation.onList], ?_⟩
    exact List.forall_mem_append.mpr ⟨hpairs, List.forall_mem_singleton.mpr ho⟩
  | pop fallback =>
    exact ⟨pairs.dropLast, List.map_dropLast, List.map_dropLast,
      fun p hp ↦ hpairs p (List.dropLast_subset pairs hp)⟩
  | extend values =>
    refine ⟨pairs ++ values.map fun v ↦ (v, v), ?_, ?_, ?_⟩
    · simp [Operation.onList, Function.comp_def]
    · simp [Operation.onList, Function.comp_def]
    · refine List.forall_mem_append.mpr ⟨hpairs, ?_⟩
      simpa using fun v hv ↦ ho v hv
  | reserve additional => exact ⟨pairs, rfl, rfl, hpairs⟩
  | clear => exact ⟨[], rfl, rfl, nofun⟩
  | free => exact ⟨[], rfl, rfl, nofun⟩
  | sort order =>
    refine ⟨pairs.mergeSort fun p q ↦ (order.compare p.1 q.1).isLE, ?_, ?_, ?_⟩
    · exact List.map_mergeSort fun p hp q hq ↦ rfl
    · exact List.map_mergeSort fun p hp q hq ↦ ho p.1 p.2 q.1 q.2 (hpairs p hp) (hpairs q hq)
    · exact fun p hp ↦ hpairs p (List.mem_mergeSort.mp hp)
  | reverse =>
    exact ⟨pairs.reverse, List.map_reverse, List.map_reverse,
      fun p hp ↦ hpairs p (List.mem_reverse.mp hp)⟩
  | set i v =>
    refine ⟨pairs.set i (v, v), List.map_set, List.map_set, fun p hp ↦ ?_⟩
    obtain hp | rfl := List.mem_or_eq_of_mem_set hp
    · exact hpairs p hp
    · exact ho
  | replaceSlot i v =>
    refine ⟨pairs.set i (v, v), List.map_set, List.map_set, fun p hp ↦ ?_⟩
    obtain hp | rfl := List.mem_or_eq_of_mem_set hp
    · exact hpairs p hp
    · exact ho
  | copy => exact ⟨pairs, rfl, rfl, hpairs⟩
  | tryCopy => exact ⟨pairs, rfl, rfl, hpairs⟩

/-- What such an operation gives of equal lists is equal. -/
theorem givenOf_beq {operation : Operation α} {elements elements' : List α}
    (ho : operation.Respects) (h : (elements == elements') = true) :
    (operation.givenOf elements == operation.givenOf elements') = true := by
  obtain ⟨pairs, rfl, rfl, hpairs⟩ := beq_iff_pairs.mp h
  cases operation with
  | pop fallback =>
    simp only [Operation.givenOf, List.getLast?_map]
    cases hlast : pairs.getLast? with
    | none => exact ho
    | some p => exact hpairs p (List.mem_of_getLast? hlast)
  | _ => rfl

theorem beq_iff_toList {b c : Buffer α} : (b == c) = true ↔ (b.toList == c.toList) = true := by
  show (b.used == c.used) = true ↔ (b.used.toList == c.used.toList) = true
  rw [Array.beq_toList]

variable [Element α]

omit [BEq α] in
theorem given_cons {b : Buffer α} {use : Use α} {given : Option α}
    (h : b.answer use = .ok given) (history : List (Use α)) :
    b.given (use :: history) = given.toList ++ (b.perform use).given history := by
  rw [Buffer.given, answers, List.filterMap_cons, h]
  cases given with
  | none => rfl
  | some v => rfl

/-- Equal buffers stay equal under the same operations, and give equal elements. -/
theorem run_beq {b c : Buffer α} {uses uses' : List (Use α)} (hb : b.isSound = true)
    (hc : c.isSound = true) (h : (b == c) = true)
    (hsame : uses.map Use.operation = uses'.map Use.operation)
    (hrespects : ∀ use ∈ uses, use.operation.Respects)
    (hok : ∀ answer ∈ b.answers uses, answer.isOk = true)
    (hok' : ∀ answer ∈ c.answers uses', answer.isOk = true) :
    (b.run uses == c.run uses') = true ∧ (b.given uses == c.given uses') = true := by
  induction uses generalizing b c uses' with
  | nil =>
    obtain rfl := List.map_eq_nil_iff.mp hsame.symm
    exact ⟨h, rfl⟩
  | cons use uses ih =>
    obtain ⟨use', uses', rfl, hop, hsame⟩ := List.map_eq_cons_iff.mp hsame.symm
    obtain ⟨hanswer, hok⟩ := List.forall_mem_cons.mp hok
    obtain ⟨hanswer', hok'⟩ := List.forall_mem_cons.mp hok'
    obtain ⟨hrespect, hrespects⟩ := List.forall_mem_cons.mp hrespects
    cases hgiven : b.answer use with
    | error e =>
      rw [hgiven] at hanswer
      cases hanswer
    | ok given =>
      cases hgiven' : c.answer use' with
      | error e =>
        rw [hgiven'] at hanswer'
        cases hanswer'
      | ok given' =>
        obtain ⟨rfl, hobeys⟩ := obeys_of_answer hgiven hb
        obtain ⟨rfl, hobeys'⟩ := obeys_of_answer hgiven' hc
        have helements : (b.toList == c.toList) = true := beq_iff_toList.mp h
        have hperform : (b.perform use == c.perform use') = true := by
          rw [beq_iff_toList, hobeys.elements, hobeys'.elements, hop]
          exact onList_beq hrespect helements
        obtain ⟨hrun, hgivens⟩ :=
          ih hobeys.sound hobeys'.sound hperform hsame.symm hrespects hok hok'
        refine ⟨hrun, ?_⟩
        rw [given_cons hgiven, given_cons hgiven', hop]
        have hfirst := givenOf_beq hrespect helements
        generalize use.operation.givenOf b.toList = given at hfirst
        generalize use.operation.givenOf c.toList = given' at hfirst
        cases given with
        | none =>
          cases given' with
          | none => exact hgivens
          | some v' => cases hfirst
        | some v =>
          cases given' with
          | none => cases hfirst
          | some v' =>
            show (v :: _ == v' :: _) = true
            rw [List.cons_beq_cons, Bool.and_eq_true]
            exact ⟨hfirst, hgivens⟩

end Agreement

/-- A slot only comes into use by a value that is stored in it then. -/
theorem drop_toList_perform [Element α] {b : Buffer α} (use : Use α) (hb : b.isSound = true) :
    (b.perform use).toList.drop b.length =
      match b.answer use with
      | .ok _ => use.operation.added
      | .error _ => [] := by
  rw [← length_toList hb]
  split
  · next given h =>
    rw [(obeys_of_answer h hb).2.elements]
    cases use.operation with
    | push v => exact List.drop_left
    | extend values => exact List.drop_left
    | _ => simp [Operation.onList, Operation.added]
  · next e h => rw [perform_of_error h hb, List.drop_length]

/-- A buffer is a plain list that remembers its old slots. Driven by the operations that succeed,
the list has the elements of the buffer, of which the last one is removed first; a slot can be read
below the largest number of elements since there is storage, and holds what was stored there last;
and what comes into use is what an operation adds, never an old value. So two buffers with equal
elements, however different otherwise, stay equal and give equal elements when they succeed in the
same operations, as long as these treat equal elements alike. -/
theorem remembers_stores [Element α] {start : Buffer α} (h : start.IsNew)
    (history : List (Use α)) :
    let b := start.run history
    let m := Memory.run (start.succeeding history)
    b.toList = m.elements ∧
    (∀ i, ((b.slot? i).isSome = true ↔ i < m.peak) ∧ b.slot? i = m.stored.lookup i) ∧
    (∀ fallback, (b.pop fallback).1 = m.elements.getLast?.getD fallback) ∧
    (∀ use, (b.perform use).toList.drop b.length =
      match b.answer use with
      | .ok _ => use.operation.added
      | .error _ => []) ∧
    ∀ [BEq α] (c : Buffer α) (uses uses' : List (Use α)), c.Reachable → (b == c) = true →
      uses.map Use.operation = uses'.map Use.operation →
      (∀ use ∈ uses, use.operation.Respects) →
      (∀ answer ∈ b.answers uses, answer.isOk = true) →
      (∀ answer ∈ c.answers uses', answer.isOk = true) →
        (b.run uses == c.run uses') = true ∧ (b.given uses == c.given uses') = true := by
  intro b m
  have hm : Remembers m b := h.remembers.run history
  refine ⟨hm.elements, fun i ↦ ⟨?_, ?_⟩, fun fallback ↦ ?_,
    fun use ↦ drop_toList_perform use hm.sound,
    fun c uses uses' hc heq hsame hrespects hok hok' ↦
      run_beq hm.sound hc.wellKept.sound heq hsame hrespects hok hok'⟩
  · rw [slot?_eq, isSome_getElem?, hm.peak]
  · rw [slot?_eq, hm.stored]
  · rw [pop_fst fallback hm.sound, hm.elements]

/-- A slot that is left of an element is overwritten, then an element that is in use, while making
more room fails. A buffer with the one element only, and room for no other, gives the same. -/
theorem remembers_stores_after_pop :
    let start : Buffer UInt8 := { storage := some { room := 2 }, capacity := 2 }
    let other : Buffer UInt8 := { storage := some { room := 1 }, capacity := 1 }
    let history : List (Use UInt8) :=
      [⟨.unlimited, .push 1⟩, ⟨.unlimited, .push 2⟩, ⟨.unlimited, .pop 0⟩,
        ⟨.unlimited, .reserve maxSize⟩, ⟨.unlimited, .replaceSlot 1 9⟩, ⟨.unlimited, .set 0 7⟩]
    let b := start.run history
    let c := other.run [⟨.unlimited, .push 7⟩]
    let uses : List (Use UInt8) := [⟨.unlimited, .pop 0⟩, ⟨.unlimited, .pop 3⟩]
    b.toList = [7] ∧ b.slot? 0 = some 7 ∧ b.slot? 1 = some 9 ∧ b.slot? 2 = none ∧
      (b == c) = true ∧ (b.run uses == c.run uses) = true ∧
      (b.given uses == c.given uses) = true ∧ b.given uses = [7, 3] := by
  intro start other history b c uses
  have hcreate : create .unlimited 2 = .ok start := rfl
  have hcreate' : create .unlimited 1 = .ok other := rfl
  have hstart : start.IsNew := .create (by decide) hcreate
  have hother : other.IsNew := .create (by decide) hcreate'
  obtain ⟨helements, hslot, -, -, hsame⟩ := remembers_stores hstart history
  obtain ⟨hrun, hgiven⟩ := hsame c uses uses ⟨other, _, hother, rfl⟩ (by decide) rfl
    (fun use _ ↦ use.operation.respects) (by decide) (by decide)
  exact ⟨helements.trans (by decide), (hslot 0).2.trans (by decide),
    (hslot 1).2.trans (by decide), (hslot 2).2.trans (by decide), by decide, hrun, hgiven,
    by decide⟩

/-- A few numbers as floating point has them. Zero comes with either sign, and there is a value
that is not a number. -/
inductive Figure where
  | minusZero
  | zero
  | one
  | notANumber
  deriving Repr

namespace Figure

instance : Element Figure := ⟨8⟩

/-- The zeros are equal. What is not a number does not even equal itself. -/
instance : BEq Figure where
  beq
    | .notANumber, _ => false
    | _, .notANumber => false
    | .one, .one => true
    | .one, _ => false
    | _, .one => false
    | _, _ => true

/-- The place of the reciprocal in the order of numbers, where the zeros are at either end. -/
def reciprocalRank : Figure → Nat
  | .minusZero => 0
  | .one => 1
  | .zero => 2
  | .notANumber => 3

/-- The order of the reciprocals. -/
abbrev byReciprocal : Ord Figure := ⟨fun x y ↦ compare x.reciprocalRank y.reciprocalRank⟩

/-- By their reciprocals one comes before zero, and behind the other zero. -/
theorem mergeSort_byReciprocal :
    let le (x y : Figure) : Bool := (byReciprocal.compare x y).isLE
    [zero, one].mergeSort le = [one, zero] ∧ [minusZero, one].mergeSort le = [minusZero, one] := by
  intro le
  refine ⟨?_, List.mergeSort_of_pairwise (by decide)⟩
  have hle : le zero one = false := by decide
  simp [List.mergeSort, List.MergeSort.Internal.splitInTwo, hle]

end Figure

/-- Equal buffers take the same value and are equal no more, where the value does not equal itself;
nor are they once they are sorted, where the order tells equal elements apart. And slots can be
older than the storage that they are in: a copy of a buffer with one element shows a second. -/
theorem unequal_after_same_operations :
    let start : Buffer Figure := { storage := some { room := 2 }, capacity := 2 }
    let pushes : List Figure → List (Use Figure) := List.map fun v ↦ ⟨.unlimited, .push v⟩
    let sorts : List (Use Figure) := [⟨.unlimited, .sort Figure.byReciprocal⟩]
    let b := start.run (pushes [.zero, .one])
    let c := start.run (pushes [.minusZero, .one])
    let popped := Buffer.run { storage := some { room := 2 }, capacity := 2 : Buffer UInt8 }
      [⟨.unlimited, .push 1⟩, ⟨.unlimited, .push 2⟩, ⟨.unlimited, .pop 0⟩]
    ((start == start) = true ∧
      (∀ answer ∈ start.answers (pushes [.notANumber]), answer.isOk = true) ∧
      (start.run (pushes [.notANumber]) == start.run (pushes [.notANumber])) = false) ∧
    ((b == c) = true ∧ (∀ answer ∈ b.answers sorts ++ c.answers sorts, answer.isOk = true) ∧
      (b.run sorts == c.run sorts) = false) ∧
    (popped.perform ⟨.unlimited, .copy⟩).length = 1 ∧
      (popped.perform ⟨.unlimited, .copy⟩).slot? 1 = some 2 := by
  intro start pushes sorts b c popped
  refine ⟨by decide, ⟨by decide, by decide, ?_⟩, by decide⟩
  obtain ⟨hmoved, hstays⟩ := Figure.mergeSort_byReciprocal
  have hb : (b.run sorts).toList = [.one, .zero] :=
    (obeys_of_answer (rfl : b.answer ⟨.unlimited, .sort Figure.byReciprocal⟩ = .ok none)
      (by decide)).2.elements.trans hmoved
  have hc : (c.run sorts).toList = [.minusZero, .one] :=
    (obeys_of_answer (rfl : c.answer ⟨.unlimited, .sort Figure.byReciprocal⟩ = .ok none)
      (by decide)).2.elements.trans hstays
  rw [Bool.eq_false_iff, ne_eq, beq_iff_toList, hb, hc]
  decide

end Delimited.Buffer
