namespace ShaderCatalog

/-! Sets of characters given by closed ranges of code points. -/

abbrev CharRanges := List (Nat × Nat)

namespace CharRanges

def contains (ranges : CharRanges) (c : Char) : Bool :=
  ranges.any fun range => range.1 ≤ c.toNat && c.toNat ≤ range.2

theorem contains_iff {ranges : CharRanges} {c : Char} :
    ranges.contains c = true ↔
      ∃ range ∈ ranges, range.1 ≤ c.toNat ∧ c.toNat ≤ range.2 := by
  simp [contains]

end CharRanges

end ShaderCatalog
