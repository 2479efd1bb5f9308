namespace ShaderCatalog

/-! Finite sets of ordered values, as strictly increasing lists. -/

section

variable {α : Type} [LT α] [DecidableLT α] [DecidableEq α]

def insertSorted (x : α) : List α → List α
  | [] => [x]
  | y :: ys =>
      if x < y then x :: y :: ys
      else if x = y then y :: ys
      else y :: insertSorted x ys

/-- The members of `xs`, each once and in increasing order. -/
def sortedSet (xs : List α) : List α :=
  xs.foldr insertSorted []

@[simp] theorem mem_insertSorted {x z : α} {ys : List α} :
    z ∈ insertSorted x ys ↔ z = x ∨ z ∈ ys := by
  induction ys with
  | nil => simp [insertSorted]
  | cons y ys induction =>
      simp only [insertSorted]
      split
      · simp
      · split
        next h =>
          subst h
          simp
        next => simp [induction, or_left_comm]

@[simp] theorem mem_sortedSet {z : α} {xs : List α} : z ∈ sortedSet xs ↔ z ∈ xs := by
  induction xs with
  | nil => simp [sortedSet]
  | cons x xs induction =>
      have unfold_cons : sortedSet (x :: xs) = insertSorted x (sortedSet xs) := rfl
      simp [unfold_cons, induction]

end

end ShaderCatalog
