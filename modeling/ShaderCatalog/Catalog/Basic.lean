import ShaderCatalog.Catalog.Dict
import ShaderCatalog.Group
import ShaderCatalog.Order

namespace ShaderCatalog

/-! Catalogs: which function names belong to which groups. -/

abbrev GroupedNames := Dict ShaderGroup NameSet

namespace GroupedNames

def Lists (grouped : GroupedNames) (group name : Text) : Prop :=
  ∃ entry ∈ grouped.entries, entry.1.name = group ∧ name ∈ entry.2.names

instance (grouped : GroupedNames) (group name : Text) : Decidable (grouped.Lists group name) :=
  inferInstanceAs (Decidable (∃ _ ∈ _, _))

def IsFilled (grouped : GroupedNames) : Prop :=
  ∀ entry ∈ grouped.entries, entry.2.names ≠ []

instance (grouped : GroupedNames) : Decidable grouped.IsFilled :=
  inferInstanceAs (Decidable (∀ _ ∈ _, _))

def change (grouped : GroupedNames) (group : ShaderGroup) (f : NameSet → NameSet) :
    GroupedNames :=
  grouped.update group .empty f

def insert (grouped : GroupedNames) (group : ShaderGroup) (name : Text) : GroupedNames :=
  grouped.change group (·.insert name)

def mergeGroup (grouped : GroupedNames) (added : ShaderGroup × NameSet) : GroupedNames :=
  grouped.change added.1 (·.union added.2)

def merge (grouped other : GroupedNames) : GroupedNames :=
  other.entries.foldl mergeGroup grouped

theorem lists_change {grouped : GroupedNames} {added : ShaderGroup}
    {f : NameSet → NameSet} {names : List Text} {group name : Text}
    (changed : ∀ set, name ∈ (f set).names ↔ name ∈ set.names ∨ name ∈ names) :
    (grouped.change added f).Lists group name ↔
      grouped.Lists group name ∨ (group = added.name ∧ name ∈ names) := by
  cases present : grouped.contains added with
  | true =>
      obtain ⟨entry, member, same⟩ := Dict.contains_iff.mp present
      have named : entry.1.name = added.name := ShaderGroup.beq_iff_name_eq.mp same
      simp only [Lists, change, Dict.entries_update_of_contains present, List.mem_map]
      constructor
      · rintro ⟨_, ⟨old, oldMember, rfl⟩, rfl, listed⟩
        by_cases known : (old.1 == added) = true
        · simp only [if_pos known, changed] at listed
          rcases listed with inOld | isNew
          · exact .inl ⟨old, oldMember, rfl, inOld⟩
          · exact .inr ⟨ShaderGroup.beq_iff_name_eq.mp known, isNew⟩
        · simp only [if_neg known] at listed
          exact .inl ⟨old, oldMember, rfl, listed⟩
      · rintro (⟨old, oldMember, rfl, listed⟩ | ⟨rfl, isNew⟩)
        · refine ⟨_, ⟨old, oldMember, rfl⟩, rfl, ?_⟩
          by_cases known : (old.1 == added) = true
          · simp only [if_pos known, changed]
            exact .inl listed
          · simpa only [if_neg known] using listed
        · refine ⟨_, ⟨entry, member, rfl⟩, named, ?_⟩
          simp only [if_pos same, changed]
          exact .inr isNew
  | false =>
      simp only [Lists, change, Dict.entries_update_of_not_contains present, List.mem_append,
        List.mem_singleton, or_and_right, exists_or, exists_eq_left, changed]
      simp [NameSet.empty, eq_comm]

theorem lists_insert {grouped : GroupedNames} {added : ShaderGroup}
    {function group name : Text} :
    (grouped.insert added function).Lists group name ↔
      grouped.Lists group name ∨ (group = added.name ∧ name = function) := by
  have changed (set : NameSet) :
      name ∈ (set.insert function).names ↔ name ∈ set.names ∨ name ∈ [function] := by
    rw [NameSet.mem_insert, List.mem_singleton]
  rw [insert, lists_change changed, List.mem_singleton]

theorem lists_merge {grouped other : GroupedNames} {group name : Text} :
    (grouped.merge other).Lists group name ↔
      grouped.Lists group name ∨ other.Lists group name := by
  unfold merge Lists
  generalize other.entries = entries
  induction entries generalizing grouped with
  | nil => simp
  | cons entry entries induction =>
      rw [List.foldl_cons, induction, mergeGroup]
      change (grouped.change entry.1 _).Lists group name ∨ _ ↔ _
      rw [lists_change fun _ => NameSet.mem_union]
      simp [Lists, or_assoc, eq_comm]

theorem isFilled_empty : IsFilled Dict.empty :=
  fun _ member => absurd member List.not_mem_nil

theorem IsFilled.change {grouped : GroupedNames} {group : ShaderGroup}
    {f : NameSet → NameSet} {name : Text} (filled : grouped.IsFilled)
    (changed : ∀ set, name ∈ (f set).names) : (grouped.change group f).IsFilled := by
  intro entry member
  cases present : grouped.contains group with
  | true =>
      rw [GroupedNames.change, Dict.entries_update_of_contains present] at member
      obtain ⟨old, oldMember, rfl⟩ := List.mem_map.mp member
      dsimp only
      split
      · exact List.ne_nil_of_mem (changed _)
      · exact filled old oldMember
  | false =>
      rw [GroupedNames.change, Dict.entries_update_of_not_contains present] at member
      rcases List.mem_append.mp member with inGrouped | isNew
      · exact filled entry inGrouped
      · rw [List.mem_singleton.mp isNew]
        exact List.ne_nil_of_mem (changed _)

theorem IsFilled.insert {grouped : GroupedNames} (filled : grouped.IsFilled)
    (group : ShaderGroup) (name : Text) : (grouped.insert group name).IsFilled :=
  filled.change fun _ => NameSet.mem_insert.mpr (.inr rfl)

theorem IsFilled.merge {grouped other : GroupedNames} (filled : grouped.IsFilled)
    (otherFilled : other.IsFilled) : (grouped.merge other).IsFilled := by
  unfold IsFilled at otherFilled
  unfold GroupedNames.merge
  generalize other.entries = entries at otherFilled ⊢
  induction entries generalizing grouped with
  | nil => exact filled
  | cons entry entries induction =>
      obtain ⟨entryFilled, entriesFilled⟩ := List.forall_mem_cons.mp otherFilled
      obtain ⟨name, member⟩ := List.exists_mem_of_ne_nil _ entryFilled
      exact induction (filled.change fun _ => NameSet.mem_union.mpr (.inr member)) entriesFilled

end GroupedNames

/-- A catalog has a group only if it has a function in it. -/
structure Catalog where
  table : GroupedNames
  filled : table.IsFilled

namespace Catalog

def empty : Catalog :=
  ⟨.empty, GroupedNames.isFilled_empty⟩

instance : EmptyCollection Catalog :=
  ⟨empty⟩

/-- Whether the catalog lists the function `name` under the group name `group`. -/
def Lists (catalog : Catalog) (group name : Text) : Prop :=
  catalog.table.Lists group name

instance (catalog : Catalog) (group name : Text) : Decidable (catalog.Lists group name) :=
  inferInstanceAs (Decidable (catalog.table.Lists group name))

def insert (catalog : Catalog) (group : ShaderGroup) (name : Text) : Catalog :=
  ⟨catalog.table.insert group name, catalog.filled.insert group name⟩

def merge (catalog other : Catalog) : Catalog :=
  ⟨catalog.table.merge other.table, catalog.filled.merge other.filled⟩

def isEmpty (catalog : Catalog) : Bool :=
  catalog.table.entries.isEmpty

def groups (catalog : Catalog) : List ShaderGroup :=
  ShaderGroup.sort catalog.table.keys

def functions (catalog : Catalog) (group : ShaderGroup) : List Text :=
  sortedSet ((catalog.table.get? group).elim [] (·.names))

def sections (catalog : Catalog) : List (Text × List Text) :=
  catalog.groups.map fun group => (group.name, catalog.functions group)

def size (catalog : Catalog) : Nat :=
  catalog.table.entries.length

def functionCount (catalog : Catalog) : Nat :=
  (catalog.sections.flatMap (·.2)).length

def contains (catalog : Catalog) (group : ShaderGroup) : Bool :=
  catalog.table.contains group

instance : BEq Catalog :=
  ⟨fun catalog other => catalog.table == other.table⟩

def description (catalog : Catalog) : String :=
  let sectionText (shown : Text × List Text) : String :=
    String.ofList shown.1 ++ ": " ++ quotedList (shown.2.map String.ofList)
  "GroupTable(\x7b" ++ ", ".intercalate (catalog.sections.map sectionText) ++ "\x7d)"

@[simp] theorem lists_empty (group name : Text) : ¬ empty.Lists group name := by
  simp [empty, Lists, GroupedNames.Lists, Dict.empty]

@[simp] theorem lists_insert {catalog : Catalog} {added : ShaderGroup}
    {function group name : Text} :
    (catalog.insert added function).Lists group name ↔
      catalog.Lists group name ∨ (name = function ∧ group = added.name) := by
  rw [and_comm]
  exact GroupedNames.lists_insert

@[simp] theorem lists_merge {catalog other : Catalog} {group name : Text} :
    (catalog.merge other).Lists group name ↔
      catalog.Lists group name ∨ other.Lists group name :=
  GroupedNames.lists_merge

theorem mem_functions {catalog : Catalog} {group : ShaderGroup} {name : Text} :
    name ∈ catalog.functions group ↔ catalog.Lists group.name name := by
  simp only [functions, mem_sortedSet, Lists, GroupedNames.Lists]
  cases found : catalog.table.get? group with
  | none =>
      have absent := Dict.get?_eq_none_iff.mp found
      refine iff_of_false List.not_mem_nil ?_
      rintro ⟨entry, member, same, -⟩
      rw [Dict.contains_iff.mpr ⟨entry, member, ShaderGroup.beq_iff_name_eq.mpr same⟩] at absent
      cases absent
  | some names =>
      obtain ⟨entry, member, same, rfl⟩ := Dict.get?_eq_some_iff.mp found
      have named := ShaderGroup.beq_iff_name_eq.mp same
      constructor
      · intro listed
        exact ⟨entry, member, named, listed⟩
      · rintro ⟨other, otherMember, otherNamed, listed⟩
        rw [Dict.eq_of_beq_keys otherMember member
          (ShaderGroup.beq_iff_name_eq.mpr (otherNamed.trans named.symm))] at listed
        exact listed

theorem mem_groups {catalog : Catalog} {group : ShaderGroup} :
    group ∈ catalog.groups ↔ ∃ names, (group, names) ∈ catalog.table.entries := by
  simp [groups, ShaderGroup.sort, Dict.keys]

end Catalog

end ShaderCatalog
