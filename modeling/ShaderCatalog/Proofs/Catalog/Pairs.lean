import Mathlib.Data.List.Sort
import ShaderCatalog.Proofs.SortedSet
import ShaderCatalog.Swift.Enums

namespace ShaderCatalog

/-! A catalog is known by the pairs that it lists: everything that is shown of it,
down to the code generated from it, depends on these pairs alone. -/

theorem ShaderGroup.pairwise_name_sort {groups : List ShaderGroup}
    (distinct : groups.Pairwise fun first second => (first == second) = false) :
    ((sort groups).map name).Pairwise (· < ·) := by
  have inOrder : (sort groups).Pairwise fun first second => ¬ second.name < first.name := by
    refine (List.pairwise_mergeSort ?_ ?_ groups).imp fun {first second} notBelow => ?_
    · intro first second third
      simp only [Bool.not_eq_true', decide_eq_false_iff_not]
      exact fun notBelow otherNotBelow => List.le_trans notBelow otherNotBelow
    · intro first second
      simp only [Bool.or_eq_true, Bool.not_eq_true', decide_eq_false_iff_not]
      exact List.le_total first.name second.name
    · simpa using notBelow
  have apart : (sort groups).Pairwise fun first second => first.name ≠ second.name := by
    refine (List.mergeSort_perm groups _).symm.pairwise (distinct.imp fun differ same => ?_)
      Ne.symm
    rw [beq_iff_name_eq.mpr same] at differ
    contradiction
  rw [List.pairwise_map]
  refine (inOrder.and apart).imp fun {first second} ⟨notBelow, differ⟩ => ?_
  exact (List.le_iff_lt_or_eq.mp notBelow).resolve_right differ

namespace Catalog

def groupNames (catalog : Catalog) : List Text :=
  catalog.groups.map ShaderGroup.name

@[simp] theorem not_lists_emptyCollection (group name : Text) :
    ¬ (∅ : Catalog).Lists group name :=
  lists_empty group name

theorem pairwise_groupNames (catalog : Catalog) :
    catalog.groupNames.Pairwise (· < ·) :=
  ShaderGroup.pairwise_name_sort (List.pairwise_map.mpr catalog.table.distinct)

theorem mem_groupNames {catalog : Catalog} {group : Text} :
    group ∈ catalog.groupNames ↔ ∃ name, catalog.Lists group name := by
  simp only [groupNames, List.mem_map, mem_groups]
  constructor
  · rintro ⟨found, ⟨names, member⟩, rfl⟩
    obtain ⟨name, listed⟩ := List.exists_mem_of_ne_nil _ (catalog.filled _ member)
    exact ⟨name, _, member, rfl, listed⟩
  · rintro ⟨name, entry, member, named, -⟩
    exact ⟨entry.1, ⟨entry.2, member⟩, named⟩

theorem pairwise_functions (catalog : Catalog) (group : ShaderGroup) :
    (catalog.functions group).Pairwise (· < ·) :=
  pairwise_sortedSet _

theorem functions_ne_nil_iff {catalog : Catalog} {group : ShaderGroup} :
    catalog.functions group ≠ [] ↔ group.name ∈ catalog.groupNames := by
  rw [mem_groupNames]
  constructor
  · intro nonempty
    obtain ⟨name, member⟩ := List.exists_mem_of_ne_nil _ nonempty
    exact ⟨name, mem_functions.mp member⟩
  · rintro ⟨name, listed⟩
    exact List.ne_nil_of_mem (mem_functions.mpr listed)

theorem mem_sections {catalog : Catalog} {shown : Text × List Text} :
    shown ∈ catalog.sections ↔
      ∃ group ∈ catalog.groups, (group.name, catalog.functions group) = shown :=
  List.mem_map

theorem fst_mem_groupNames {catalog : Catalog} {shown : Text × List Text}
    (member : shown ∈ catalog.sections) : shown.1 ∈ catalog.groupNames := by
  obtain ⟨group, groupMember, rfl⟩ := mem_sections.mp member
  exact List.mem_map_of_mem groupMember

theorem mem_snd_iff_lists {catalog : Catalog} {shown : Text × List Text} {name : Text}
    (member : shown ∈ catalog.sections) : name ∈ shown.2 ↔ catalog.Lists shown.1 name := by
  obtain ⟨group, -, rfl⟩ := mem_sections.mp member
  exact mem_functions

theorem functions_of_mem_sections {catalog : Catalog} {shown : Text × List Text}
    (member : shown ∈ catalog.sections) : shown.2 ≠ [] ∧ shown.2.Pairwise (· < ·) := by
  obtain ⟨group, groupMember, rfl⟩ := mem_sections.mp member
  exact ⟨functions_ne_nil_iff.mpr (List.mem_map_of_mem groupMember),
    catalog.pairwise_functions group⟩

theorem exists_mem_sections_iff {catalog : Catalog} {group name : Text} :
    (∃ names, (group, names) ∈ catalog.sections ∧ name ∈ names) ↔
      catalog.Lists group name := by
  constructor
  · rintro ⟨names, member, listed⟩
    exact (mem_snd_iff_lists member).mp listed
  · intro listed
    obtain ⟨found, member, rfl⟩ := List.mem_map.mp (mem_groupNames.mpr ⟨name, listed⟩)
    exact ⟨catalog.functions found, mem_sections.mpr ⟨found, member, rfl⟩,
      mem_functions.mpr listed⟩

theorem map_fst_sections (catalog : Catalog) :
    catalog.sections.map (·.1) = catalog.groupNames := by
  rw [sections, List.map_map]
  rfl

theorem length_groups (catalog : Catalog) : catalog.groups.length = catalog.size := by
  rw [groups, ShaderGroup.sort, List.length_mergeSort, Dict.keys, List.length_map, size]

theorem isEmpty_iff {catalog : Catalog} :
    catalog.isEmpty = true ↔ ∀ group name, ¬ catalog.Lists group name := by
  rw [isEmpty, List.isEmpty_iff]
  constructor
  · rintro noEntries group name ⟨entry, member, -⟩
    exact absurd (noEntries ▸ member) List.not_mem_nil
  · intro noPairs
    refine List.eq_nil_iff_forall_not_mem.mpr fun entry member => ?_
    obtain ⟨name, listed⟩ := List.exists_mem_of_ne_nil _ (catalog.filled entry member)
    exact noPairs entry.1.name name ⟨entry, member, rfl, listed⟩

section

variable {first second : Catalog}
  (same : ∀ group name, first.Lists group name ↔ second.Lists group name)

include same

theorem groupNames_congr : first.groupNames = second.groupNames := by
  apply first.pairwise_groupNames.eq_of_mem_iff second.pairwise_groupNames
  intro group
  simp only [mem_groupNames, same]

theorem functions_congr {group other : ShaderGroup} (named : group.name = other.name) :
    first.functions group = second.functions other := by
  apply (first.pairwise_functions group).eq_of_mem_iff (second.pairwise_functions other)
  intro name
  simp only [mem_functions, same, named]

end

theorem sections_eq_map (catalog : Catalog) :
    catalog.sections =
      catalog.groupNames.map fun name => (name, catalog.functions ⟨.custom, some name⟩) := by
  rw [sections, groupNames, List.map_map]
  refine List.map_congr_left fun group _ => congrArg (group.name, ·) ?_
  exact functions_congr (fun _ _ => Iff.rfl) rfl

section

variable {first second : Catalog}
  (same : ∀ group name, first.Lists group name ↔ second.Lists group name)

include same

theorem sections_congr : first.sections = second.sections := by
  rw [sections_eq_map, sections_eq_map, groupNames_congr same]
  exact List.map_congr_left fun name _ => by rw [functions_congr same rfl]

theorem isEmpty_congr : first.isEmpty = second.isEmpty := by
  rw [Bool.eq_iff_iff, isEmpty_iff, isEmpty_iff]
  simp only [same]

theorem generate_congr (module : Text) : generate first module = generate second module := by
  rw [generate, generate, isEmpty_congr same, sections_congr same]

end

end Catalog

section

variable {α : Type} {first second : List α}

theorem mem_iff_of_subset_of_length_eq (distinct : first.Nodup) (subset : first ⊆ second)
    (sameLength : first.length = second.length) (x : α) : x ∈ first ↔ x ∈ second :=
  ((List.subperm_of_subset distinct subset).perm_of_length_le sameLength.ge).mem_iff

theorem length_eq_of_mem_iff (distinct : first.Nodup) (otherDistinct : second.Nodup)
    (same : ∀ x, x ∈ first ↔ x ∈ second) : first.length = second.length :=
  ((List.perm_ext_iff_of_nodup distinct otherDistinct).mpr same).length_eq

end

theorem NameSet.beq_iff {first second : NameSet} :
    (first == second) = true ↔ ∀ name, name ∈ first.names ↔ name ∈ second.names := by
  change (first.names.length == second.names.length &&
    first.names.all (second.names.contains ·)) = true ↔ _
  simp only [Bool.and_eq_true, beq_iff_eq, List.all_eq_true, List.contains_iff_mem]
  constructor
  · rintro ⟨sameLength, subset⟩
    exact mem_iff_of_subset_of_length_eq first.nodup subset sameLength
  · intro same
    exact ⟨length_eq_of_mem_iff first.nodup second.nodup same, fun name => (same name).mp⟩

namespace Catalog

def keyNames (catalog : Catalog) : List Text :=
  catalog.table.entries.map fun entry => entry.1.name

theorem nodup_keyNames (catalog : Catalog) : catalog.keyNames.Nodup := by
  refine List.pairwise_map.mpr (catalog.table.distinct.imp fun differ same => ?_)
  rw [ShaderGroup.beq_iff_name_eq.mpr same] at differ
  contradiction

theorem mem_keyNames {catalog : Catalog} {group : Text} :
    group ∈ catalog.keyNames ↔ ∃ name, catalog.Lists group name := by
  rw [← mem_groupNames, groupNames, groups, ShaderGroup.sort, keyNames, Dict.keys]
  simp only [List.mem_map, List.mem_mergeSort, exists_exists_and_eq_and]

theorem groupNames_eq_sortedSet (catalog : Catalog) :
    catalog.groupNames = sortedSet catalog.keyNames := by
  apply catalog.pairwise_groupNames.eq_of_mem_iff (pairwise_sortedSet _)
  intro group
  rw [mem_sortedSet, mem_keyNames, mem_groupNames]

theorem length_keyNames (catalog : Catalog) : catalog.keyNames.length = catalog.size :=
  List.length_map _

theorem mem_names_iff_lists {catalog : Catalog} {entry : ShaderGroup × NameSet} {name : Text}
    (member : entry ∈ catalog.table.entries) :
    name ∈ entry.2.names ↔ catalog.Lists entry.1.name name := by
  refine ⟨fun listed => ⟨entry, member, rfl, listed⟩, ?_⟩
  rintro ⟨other, otherMember, named, listed⟩
  rwa [Dict.eq_of_beq_keys otherMember member (ShaderGroup.beq_iff_name_eq.mpr named)] at listed

theorem beq_iff_entries {first second : Catalog} :
    (first == second) = true ↔
      first.size = second.size ∧
        ∀ entry ∈ first.table.entries, ∃ other ∈ second.table.entries,
          other.1.name = entry.1.name ∧ ∀ name, name ∈ other.2.names ↔ name ∈ entry.2.names := by
  change (first.table.entries.length == second.table.entries.length &&
    first.table.entries.all fun entry =>
      (second.table.get? entry.1).any (· == entry.2)) = true ↔ _
  simp only [Bool.and_eq_true, beq_iff_eq, List.all_eq_true, Option.any_eq_true,
    Dict.get?_eq_some_iff, ShaderGroup.beq_iff_name_eq, NameSet.beq_iff, size]
  refine and_congr_right fun _ => forall₂_congr fun entry _ => ?_
  constructor
  · rintro ⟨_, ⟨other, member, named, rfl⟩, same⟩
    exact ⟨other, member, named, same⟩
  · rintro ⟨other, member, named, same⟩
    exact ⟨other.2, ⟨other, member, named, rfl⟩, same⟩

theorem beq_iff {first second : Catalog} :
    (first == second) = true ↔
      ∀ group name, first.Lists group name ↔ second.Lists group name := by
  rw [beq_iff_entries, ← length_keyNames, ← length_keyNames]
  constructor
  · rintro ⟨sameSize, found⟩ group name
    have shared : ∀ group ∈ first.keyNames, group ∈ second.keyNames ∧
        ∀ name, first.Lists group name ↔ second.Lists group name := by
      refine List.forall_mem_map.mpr fun entry member => ?_
      obtain ⟨other, otherMember, named, same⟩ := found entry member
      refine ⟨List.mem_map.mpr ⟨other, otherMember, named⟩, fun name => ?_⟩
      rw [← mem_names_iff_lists member, ← same, mem_names_iff_lists otherMember, named]
    have sameGroups := mem_iff_of_subset_of_length_eq first.nodup_keyNames
      (fun group member => (shared group member).1) sameSize group
    by_cases present : group ∈ first.keyNames
    · exact (shared group present).2 name
    · have absent := mt sameGroups.mpr present
      rw [mem_keyNames] at present absent
      exact iff_of_false (fun listed => present ⟨name, listed⟩)
        fun listed => absent ⟨name, listed⟩
  · intro same
    have sameGroups (group : Text) : group ∈ first.keyNames ↔ group ∈ second.keyNames := by
      simp only [mem_keyNames, same]
    refine ⟨length_eq_of_mem_iff first.nodup_keyNames second.nodup_keyNames sameGroups,
      fun entry member => ?_⟩
    obtain ⟨other, otherMember, named⟩ :=
      List.mem_map.mp ((sameGroups entry.1.name).mp (List.mem_map_of_mem member))
    refine ⟨other, otherMember, named, fun name => ?_⟩
    rw [mem_names_iff_lists otherMember, mem_names_iff_lists member, named, same]

theorem beq_iff_sections_eq {first second : Catalog} :
    (first == second) = true ↔ first.sections = second.sections := by
  rw [beq_iff]
  refine ⟨sections_congr, fun same group name => ?_⟩
  rw [← exists_mem_sections_iff, same, exists_mem_sections_iff]

end Catalog

end ShaderCatalog
