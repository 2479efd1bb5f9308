import Mathlib.Data.List.Infix
import ShaderCatalog.Proofs.Files.ShaderFiles
import ShaderCatalog.Proofs.Files.Writing

namespace ShaderCatalog

/-! Trees in which all that there is stands in directories. In such a tree the names that
lead down to a place lead there on foot, so that a search finds what stands at the places
below it; and it stays such a tree whatever is written. -/

namespace FileTree

/-- Whether everything in the tree stands in directories. -/
def IsClosed (tree : FileTree) : Prop :=
  ∀ place, (tree.lookup place).isSome = true → tree.IsSurrounded place

theorem isSurrounded_of_suffix_workingDirectory {tree : FileTree} {place : Location}
    (inside : place <:+ tree.workingDirectory) : tree.IsSurrounded place :=
  fun _ isOuter => if_pos (isOuter.trans ((List.tail_suffix place).trans inside))

theorem isClosed_iff {tree : FileTree} :
    tree.IsClosed ↔ ∀ entry ∈ tree.entries, ∀ outer ∈ entry.1.tail.tails,
      tree.lookup outer = some .directory := by
  simp only [List.mem_tails]
  constructor
  · intro closed entry member
    exact closed entry.1 (isSome_lookup_iff.mpr (Or.inr ⟨entry, member, rfl⟩))
  · intro surrounded place present
    rcases isSome_lookup_iff.mp present with inside | ⟨entry, member, rfl⟩
    · exact isSurrounded_of_suffix_workingDirectory inside
    · exact surrounded entry member

instance (tree : FileTree) : Decidable tree.IsClosed :=
  decidable_of_iff _ isClosed_iff.symm

theorem IsSurrounded.of_keeps {before after : FileTree} {place : Location}
    (surrounded : before.IsSurrounded place) (keeps : Keeps before after) :
    after.IsSurrounded place :=
  fun outer isOuter => keeps.directory outer (surrounded outer isOuter)

theorem KeptOrMade.isSurrounded {path : Path} {before after : FileTree} {place : Location}
    (kept : KeptOrMade path before after place) (keeps : Keeps before after)
    (closed : before.IsClosed) (present : (after.lookup place).isSome = true) :
    after.IsSurrounded place := by
  rcases kept with same | ⟨-, -, directory, -, located⟩
  · rw [same] at present
    exact (closed place present).of_keeps keeps
  · exact .of_locate located

theorem AddsDirectories.isClosed {path : Path} {before after : FileTree}
    (adds : AddsDirectories path before after) (closed : before.IsClosed) : after.IsClosed :=
  fun place present => (adds.keptOrMade place).isSurrounded adds.keeps closed present

theorem WritesFile.isClosed {path : Path} {bytes : Bytes} {before after : FileTree}
    {place : Location} (writes : WritesFile path bytes before after place)
    (closed : before.IsClosed) : after.IsClosed := by
  intro other present
  by_cases same : other = place
  · rw [same]
    exact .of_locate writes.located
  · exact (writes.keptOrMade other same).isSurrounded writes.keeps closed present

theorem isClosed_write {tree : FileTree} (closed : tree.IsClosed) (path : Path) (text : Text) :
    (tree.write path text).1.IsClosed := by
  cases outcome : (tree.write path text).2 with
  | error failure => exact (addsDirectories_write_of_error outcome).isClosed closed
  | ok done =>
      obtain ⟨place, writes⟩ := writesFile_write_of_ok outcome
      exact writes.isClosed closed

theorem IsSurrounded.isSome_of_suffix {tree : FileTree} {place outer : Location}
    (surrounded : tree.IsSurrounded place) (present : (tree.lookup place).isSome = true)
    (isOuter : outer <:+ place) : (tree.lookup outer).isSome = true := by
  cases place with
  | nil =>
      rw [List.suffix_nil.mp isOuter]
      exact present
  | cons name around =>
      rcases List.suffix_cons_iff.mp isOuter with rfl | further
      · exact present
      · rw [surrounded outer further]
        rfl

theorem walk_of_isSurrounded {tree other : FileTree} (refusals : tree.refusals = other.refusals)
    {names : List Text} (straight : parentName ∉ names) {start place : Location}
    (walked : other.walk start names = .ok place)
    (surrounded : tree.IsSurrounded (names.reverse ++ start))
    (present : (tree.lookup (names.reverse ++ start)).isSome = true) :
    tree.walk start names = .ok (names.reverse ++ start) := by
  induction names generalizing start with
  | nil => rfl
  | cons name names induction =>
      rw [List.mem_cons, not_or] at straight
      obtain ⟨next, entered, onwards⟩ := walk_cons_eq_ok_iff.mp walked
      obtain ⟨-, granted, stepped, -⟩ := enter_eq_ok_iff.mp entered
      rw [step, if_neg (Ne.symm straight.1)] at stepped
      rw [← stepped] at onwards
      have isDirectory : tree.lookup start = some .directory := by
        apply surrounded
        rw [List.tail_append_of_ne_nil (List.reverse_ne_nil_iff.mpr (List.cons_ne_nil name names))]
        exact List.suffix_append _ _
      rw [List.reverse_cons, List.append_assoc, List.singleton_append] at surrounded present ⊢
      have stands := surrounded.isSome_of_suffix present (List.suffix_append names.reverse _)
      rw [← refusals] at granted
      exact walk_cons_eq_ok_iff.mpr ⟨name :: start,
        enter_eq_ok_iff.mpr ⟨isDirectory, granted, if_neg (Ne.symm straight.1), Or.inr stands⟩,
        induction straight.2 onwards surrounded present⟩

theorem namesBelow?_append {directory : Location} {names : List Text} (nonempty : names ≠ []) :
    namesBelow? directory (names.reverse ++ directory) = some names := by
  have different : directory ≠ names.reverse ++ directory := by
    intro same
    have lengths := congrArg List.length same
    have positive := List.length_pos_iff.mpr nonempty
    rw [List.length_append, List.length_reverse] at lengths
    omega
  rw [namesBelow?, if_pos ⟨List.suffix_append _ _, different⟩, List.length_append,
    Nat.add_sub_cancel, List.take_left, List.reverse_reverse]

theorem mem_shadersBelow_iff {tree : FileTree} {path : Path} {directory : Location}
    {names : List Text} :
    names ∈ tree.shadersBelow path directory ↔ tree.isFound path directory names = true := by
  rw [shadersBelow, List.mem_filter, waysBelow, mem_sortedSet, List.mem_filterMap]
  refine and_iff_right_of_imp fun found => ?_
  obtain ⟨shader, -, bytes, -, present⟩ := leadsToShader_iff.mp (isFound_iff.mp found).2.2
  have nonempty : names ≠ [] := by
    rintro rfl
    cases shader
  have noDirectory : tree.lookup (names.reverse ++ directory) ≠ some .directory := by
    simp [present]
  have stands : (tree.lookup (names.reverse ++ directory)).isSome = true := by
    rw [present]
    rfl
  obtain ⟨entry, member, entryPlace⟩ :=
    (isSome_lookup_iff.mp stands).resolve_left (not_suffix_of_lookup_ne noDirectory)
  refine ⟨entry, member, ?_⟩
  rw [entryPlace]
  exact namesBelow?_append nonempty

end FileTree

end ShaderCatalog
