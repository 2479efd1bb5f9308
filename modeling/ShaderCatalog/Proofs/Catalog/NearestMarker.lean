import ShaderCatalog.Proofs.Catalog.ResolvedMarkers

namespace ShaderCatalog

/-! The marker that governs a line. Sorting by lines keeps the order of markers that share
one, so the last of the sorted markers at or above a line is, among the markers as they are
given, the one of the greatest line and the last on that line. -/

namespace Marker

/-- Whether a marker is the nearest at or above a line, where other markers are given before
and after it. -/
structure IsNearest (before : List Marker) (marker : Marker) (after : List Marker)
    (line : Int) : Prop where
  above : marker.line ≤ line
  before_le : ∀ other ∈ before, other.line ≤ line → other.line ≤ marker.line
  after_lt : ∀ other ∈ after, other.line ≤ line → other.line < marker.line

theorem IsNearest.le {before after : List Marker} {marker : Marker} {line : Int}
    (nearest : marker.IsNearest before after line) {other : Marker}
    (member : other ∈ before ++ marker :: after) (above : other.line ≤ line) :
    other.line ≤ marker.line := by
  rcases List.mem_append.mp member with earlier | notEarlier
  · exact nearest.before_le other earlier above
  · rcases List.mem_cons.mp notEarlier with rfl | later
    · exact Int.le_refl other.line
    · exact Int.le_of_lt (nearest.after_lt other later above)

theorem IsNearest.mono {before after keptBefore keptAfter : List Marker} {marker : Marker}
    {line : Int} (nearest : marker.IsNearest before after line) (fewerBefore : keptBefore ⊆ before)
    (fewerAfter : keptAfter ⊆ after) : marker.IsNearest keptBefore keptAfter line where
  above := nearest.above
  before_le other member := nearest.before_le other (fewerBefore member)
  after_lt other member := nearest.after_lt other (fewerAfter member)

section

variable (markers : List Marker) (line : Int)

theorem line_le_trans (first second third : Marker)
    (below : decide (first.line ≤ second.line) = true)
    (belowThat : decide (second.line ≤ third.line) = true) :
    decide (first.line ≤ third.line) = true :=
  decide_eq_true (Int.le_trans (of_decide_eq_true below) (of_decide_eq_true belowThat))

theorem line_le_total (first second : Marker) :
    (decide (first.line ≤ second.line) || decide (second.line ≤ first.line)) = true := by
  rw [Bool.or_eq_true, decide_eq_true_eq, decide_eq_true_eq]
  exact Int.le_total first.line second.line

theorem sorted_perm : (sorted markers).Perm markers :=
  List.mergeSort_perm markers _

theorem pairwise_sorted :
    (sorted markers).Pairwise fun earlier later => earlier.line ≤ later.line :=
  (List.pairwise_mergeSort line_le_trans line_le_total markers).imp of_decide_eq_true

theorem filter_line_sorted :
    (sorted markers).filter (·.line = line) = markers.filter (·.line = line) := by
  -- The markers of one line are sorted as they are given, so sorting keeps them so.
  have inOrder : (markers.filter (·.line = line)).Pairwise fun first second =>
      decide (first.line ≤ second.line) = true := by
    rw [List.pairwise_filter]
    apply List.pairwise_of_forall
    intro first second firstLine secondLine
    simp_all
  have kept : (markers.filter (·.line = line)).Sublist (sorted markers) :=
    List.sublist_mergeSort line_le_trans line_le_total inOrder List.filter_sublist
  have keptFiltered := kept.filter (·.line = line)
  simp only [List.filter_filter, Bool.and_self] at keptFiltered
  have lengths := ((sorted_perm markers).filter (·.line = line)).length_eq
  exact (keptFiltered.eq_of_length lengths.symm).symm

end

theorem takeWhile_eq_filter {markers : List Marker} (line : Int)
    (increasing : markers.Pairwise fun earlier later => earlier.line ≤ later.line) :
    markers.takeWhile (·.line ≤ line) = markers.filter (·.line ≤ line) := by
  induction markers with
  | nil => rfl
  | cons first markers induction =>
      obtain ⟨below, tailIncreasing⟩ := List.pairwise_cons.mp increasing
      by_cases above : first.line ≤ line
      · rw [List.takeWhile_cons_of_pos (by simpa using above),
          List.filter_cons_of_pos (by simpa using above), induction tailIncreasing]
      · rw [List.takeWhile_cons_of_neg (by simpa using above),
          List.filter_cons_of_neg (by simpa using above), eq_comm, List.filter_eq_nil_iff]
        intro other member
        have otherBelow := below other member
        simp only [decide_eq_true_eq]
        omega

theorem getLast?_eq_some_iff {markers : List Marker} {marker : Marker}
    (increasing : markers.Pairwise fun earlier later => earlier.line ≤ later.line) :
    markers.getLast? = some marker ↔
      (∀ other ∈ markers, other.line ≤ marker.line) ∧
        (markers.filter (·.line = marker.line)).getLast? = some marker := by
  constructor
  · intro isLast
    obtain ⟨others, rfl⟩ := List.getLast?_eq_some_iff.mp isLast
    obtain ⟨-, -, below⟩ := List.pairwise_append.mp increasing
    constructor
    · intro other member
      rcases List.mem_append.mp member with earlier | last
      · exact below other earlier marker (List.mem_singleton_self marker)
      · exact Int.le_of_eq (congrArg Marker.line (List.mem_singleton.mp last))
    · rw [List.filter_append, List.filter_cons_of_pos (by simp), List.filter_nil,
        List.getLast?_concat]
  · rintro ⟨greatest, isLast⟩
    have member : marker ∈ markers := (List.mem_filter.mp (List.mem_of_getLast? isLast)).1
    obtain ⟨last, found⟩ := Option.isSome_iff_exists.mp
      (List.getLast?_isSome.mpr (List.ne_nil_of_mem member))
    obtain ⟨others, rfl⟩ := List.getLast?_eq_some_iff.mp found
    obtain ⟨-, -, below⟩ := List.pairwise_append.mp increasing
    have lastBelow : marker.line ≤ last.line := by
      rcases List.mem_append.mp member with earlier | same
      · exact below marker earlier last (List.mem_singleton_self last)
      · exact Int.le_of_eq (congrArg Marker.line (List.mem_singleton.mp same))
    have lastAbove := greatest last (List.mem_append_right _ (List.mem_singleton_self last))
    rw [List.filter_append, List.filter_cons_of_pos (by simp; omega), List.filter_nil,
      List.getLast?_concat] at isLast
    rw [List.getLast?_concat, isLast]

end Marker

open Marker

section

variable {markers before after : List Marker} {marker : Marker} {line : Int}

theorem governing?_eq (markers : List Marker) (line : Int) :
    governing? markers line = ((sorted markers).filter (·.line ≤ line)).getLast? :=
  congrArg List.getLast? (takeWhile_eq_filter line (pairwise_sorted markers))

theorem governing?_eq_none_iff :
    governing? markers line = none ↔ ∀ marker ∈ markers, line < marker.line := by
  rw [governing?_eq, List.getLast?_eq_none_iff, List.filter_eq_nil_iff]
  simp only [(sorted_perm markers).mem_iff, decide_eq_true_eq, Int.not_le]

theorem governing?_eq_some_iff_getLast? :
    governing? markers line = some marker ↔
      marker.line ≤ line ∧ (∀ other ∈ markers, other.line ≤ line → other.line ≤ marker.line) ∧
        (markers.filter (·.line = marker.line)).getLast? = some marker := by
  have onLine (above : marker.line ≤ line) :
      ((sorted markers).filter (·.line ≤ line)).filter (·.line = marker.line) =
        markers.filter (·.line = marker.line) := by
    rw [← filter_line_sorted markers, List.filter_filter]
    apply List.filter_congr
    intro other member
    rw [Bool.and_eq_left_iff_imp, decide_eq_true_eq, decide_eq_true_eq]
    intro same
    exact same ▸ above
  have greatest : (∀ other ∈ (sorted markers).filter (·.line ≤ line),
        other.line ≤ marker.line) ↔
      ∀ other ∈ markers, other.line ≤ line → other.line ≤ marker.line := by
    simp only [List.mem_filter, (sorted_perm markers).mem_iff, decide_eq_true_eq, and_imp]
  rw [governing?_eq, Marker.getLast?_eq_some_iff ((pairwise_sorted markers).filter _), greatest]
  constructor
  · rintro ⟨nearest, last⟩
    have member := (List.mem_filter.mp (List.mem_of_getLast? last)).1
    have above : marker.line ≤ line := of_decide_eq_true (List.mem_filter.mp member).2
    exact ⟨above, nearest, onLine above ▸ last⟩
  · rintro ⟨above, nearest, last⟩
    exact ⟨nearest, (onLine above).symm ▸ last⟩

theorem getLast?_filter_eq_some_iff {α : Type} {p : α → Bool} {xs : List α} {x : α} :
    (xs.filter p).getLast? = some x ↔
      p x = true ∧ ∃ before after, xs = before ++ x :: after ∧ ∀ y ∈ after, p y = false := by
  rw [List.getLast?_filter, List.find?_eq_some_iff_append]
  apply and_congr_right
  intro holds
  constructor
  · rintro ⟨after, before, split, none⟩
    refine ⟨before.reverse, after.reverse, ?_, fun y member => ?_⟩
    · rw [← List.reverse_reverse xs, split]
      simp
    · simpa using none y (List.mem_reverse.mp member)
  · rintro ⟨before, after, rfl, none⟩
    exact ⟨after.reverse, before.reverse, by simp, fun y member => by
      simpa using none y (List.mem_reverse.mp member)⟩

theorem governing?_eq_some_iff_isNearest :
    governing? markers line = some marker ↔
      ∃ before after, markers = before ++ marker :: after ∧
        marker.IsNearest before after line := by
  rw [governing?_eq_some_iff_getLast?, getLast?_filter_eq_some_iff]
  constructor
  · rintro ⟨above, nearest, -, before, after, rfl, noneOnLine⟩
    refine ⟨before, after, rfl, above, ?_, ?_⟩
    · intro other member
      exact nearest other (List.mem_append_left _ member)
    · intro other member otherAbove
      have le := nearest other (by simp [member]) otherAbove
      have ne := of_decide_eq_false (noneOnLine other member)
      omega
  · rintro ⟨before, after, rfl, nearest⟩
    refine ⟨nearest.above, fun other member => nearest.le member, by simp, before, after, rfl, ?_⟩
    intro other member
    rw [decide_eq_false_iff_not]
    intro same
    have lt := nearest.after_lt other member (same ▸ nearest.above)
    omega

-- Of the markers on one line, the last one given governs.
example :
    governing? [⟨8, "Near".toList⟩, ⟨1, "Far".toList⟩, ⟨8, "Last".toList⟩] 9 =
      some ⟨8, "Last".toList⟩ := by
  cbv

theorem governing?_of_sublist {kept : List Marker} (isSublist : kept.Sublist markers)
    (nearestKept : ∀ before marker after, markers = before ++ marker :: after →
      marker.IsNearest before after line →
        ∃ keptBefore keptAfter, kept = keptBefore ++ marker :: keptAfter ∧
          keptBefore.Sublist before ∧ keptAfter.Sublist after) :
    governing? kept line = governing? markers line := by
  cases governs : governing? markers line with
  | none =>
      rw [governing?_eq_none_iff] at governs ⊢
      exact fun marker member => governs marker (isSublist.subset member)
  | some marker =>
      obtain ⟨before, after, split, nearest⟩ := governing?_eq_some_iff_isNearest.mp governs
      obtain ⟨keptBefore, keptAfter, keptSplit, fewerBefore, fewerAfter⟩ :=
        nearestKept before marker after split nearest
      exact governing?_eq_some_iff_isNearest.mpr
        ⟨keptBefore, keptAfter, keptSplit, nearest.mono fewerBefore.subset fewerAfter.subset⟩

end

end ShaderCatalog
