/-!
# Loops round by round

One round of a loop either leads to the state of the next round or is the last one. A loop that ends
does so after a number of rounds, whatever way its recursion is defined.
-/

namespace Delimited

/-- What a round of a loop comes to. -/
inductive Round (τ α : Type) where
  /-- The loop goes on from another state. -/
  | again (state : τ)
  /-- The loop is over. -/
  | done (result : α)

/-- From a state on, the loop ends in its so many rounds, the last one included, with a result. -/
inductive Rounds {τ α : Type} (round : τ → Round τ α) : Nat → τ → α → Prop where
  | last {state : τ} {result : α} (h : round state = .done result) : Rounds round 1 state result
  | more {count : Nat} {state next : τ} {result : α} (h : round state = .again next)
      (rest : Rounds round count next result) : Rounds round (count + 1) state result

end Delimited
