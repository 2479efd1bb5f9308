import ShaderCatalog.Order

namespace ShaderCatalog

/-! A sorted set is strictly increasing, whatever the order and the repetition of the
values it was made from. -/

section

variable {α : Type} [LT α] [DecidableLT α] [DecidableEq α]
  [Std.Trichotomous (· < · : α → α → Prop)]
  [Trans (· < · : α → α → Prop) (· < · : α → α → Prop) (· < · : α → α → Prop)]

theorem pairwise_insertSorted (x : α) {ys : List α}
    (increasing : ys.Pairwise (· < ·)) : (insertSorted x ys).Pairwise (· < ·) := by
  induction ys with
  | nil => exact List.pairwise_singleton _ _
  | cons y ys induction =>
      obtain ⟨least, tailIncreasing⟩ := List.pairwise_cons.mp increasing
      simp only [insertSorted]
      split
      next below =>
        refine List.pairwise_cons.mpr ⟨?_, increasing⟩
        intro z member
        rcases List.mem_cons.mp member with rfl | inTail
        · exact below
        · exact Trans.trans below (least z inTail)
      next notBelow =>
        split
        · exact increasing
        next different =>
          have above : y < x := by
            rcases Std.Trichotomous.rel_or_eq_or_rel_swap (r := (· < ·)) (a := x) (b := y)
              with below | same | above
            · exact absurd below notBelow
            · exact absurd same different
            · exact above
          refine List.pairwise_cons.mpr ⟨?_, induction tailIncreasing⟩
          intro z member
          rcases mem_insertSorted.mp member with rfl | inTail
          · exact above
          · exact least z inTail

theorem pairwise_sortedSet (xs : List α) : (sortedSet xs).Pairwise (· < ·) := by
  induction xs with
  | nil => exact List.Pairwise.nil
  | cons x xs induction => exact pairwise_insertSorted x induction

end

end ShaderCatalog
