import Mathlib.Data.List.Induction
import ShaderCatalog.Catalog.Store

namespace ShaderCatalog

/-! No two tables share a set, however they are filled and merged. So a change to a set is a
change to one group of one table, and a table changes as one that holds its sets itself. -/

namespace Dict

variable {Key Value Other : Type} [BEq Key]

theorem contains_mapEntries (dict : Dict Key Value) (f : Key → Value → Other) (key : Key) :
    (dict.mapEntries f).contains key = dict.contains key := by
  simp [contains, mapEntries, Function.comp_def]

theorem mem_setDefault_iff {dict : Dict Key Value} {key : Key} {value : Value}
    {entry : Key × Value} :
    entry ∈ (dict.setDefault key value).entries ↔
      entry ∈ dict.entries ∨ (dict.contains key = false ∧ entry = (key, value)) := by
  cases present : dict.contains key with
  | true => simp [setDefault_of_contains present]
  | false => simp [entries_setDefault_of_not_contains present]

end Dict

namespace Store

variable {Key : Type}

/-- Every set is referred to from one entry of one table at most. -/
structure IsApart (store : Store Key) : Prop where
  inside : ∀ key, ∀ entry ∈ (store.tables key).entries, entry.2 < store.sets.length
  apart : ∀ key, ∀ entry ∈ (store.tables key).entries,
    ∀ other, ∀ shared ∈ (store.tables other).entries,
      entry.2 = shared.2 → key = other ∧ entry = shared

theorem IsApart.empty : (empty : Store Key).IsApart :=
  ⟨fun _ _ member => absurd member List.not_mem_nil,
    fun _ _ member => absurd member List.not_mem_nil⟩

theorem entries_table (store : Store Key) (key : Key) :
    (store.table key).entries =
      (store.tables key).entries.map fun entry => (entry.1, store.names entry.2) :=
  rfl

theorem catalog?_eq_some_iff {store : Store Key} {key : Key} {catalog : Catalog} :
    store.catalog? key = some catalog ↔ store.table key = catalog.table := by
  unfold catalog?
  constructor
  · intro found
    split at found
    · cases found
      rfl
    · cases found
  · intro same
    have filled : (store.table key).IsFilled := same ▸ catalog.filled
    rw [dif_pos filled]
    cases catalog
    cases same
    rfl

variable [DecidableEq Key] {store : Store Key} {key : Key} {group : ShaderGroup}
  {f : NameSet → NameSet}

theorem change_of_entry {entry : ShaderGroup × Nat}
    (member : entry ∈ (store.tables key).entries) (same : (entry.1 == group) = true) :
    store.change key group f = { store with sets := store.sets.modify entry.2 f } := by
  have found := Dict.get?_eq_some_iff.mpr ⟨entry, member, same, rfl⟩
  rw [change, withGroup, found]

theorem change_of_not_contains (absent : (store.tables key).contains group = false) :
    store.change key group f =
      { sets := store.sets ++ [f .empty]
        tables := fun other =>
          if other = key then (store.tables key).setDefault group store.sets.length
          else store.tables other } := by
  have changed : (store.sets ++ [NameSet.empty]).modify store.sets.length f =
      store.sets ++ [f .empty] := by
    simp [List.modify_eq_take_cons_drop]
  rw [change, withGroup, Dict.get?_eq_none_iff.mpr absent]
  exact congrArg (Store.mk · _) changed

theorem tables_change (other : Key) :
    (store.change key group f).tables other =
      if other = key then (store.tables key).setDefault group store.sets.length
      else store.tables other := by
  cases present : (store.tables key).contains group with
  | true =>
      obtain ⟨entry, member, same⟩ := Dict.contains_iff.mp present
      rw [change_of_entry member same, Dict.setDefault_of_contains present]
      split
      next received => rw [received]
      next => rfl
  | false => rw [change_of_not_contains present]

theorem mem_tables_change_iff {other : Key} {entry : ShaderGroup × Nat} :
    entry ∈ ((store.change key group f).tables other).entries ↔
      entry ∈ (store.tables other).entries ∨
        ((store.tables key).contains group = false ∧
          other = key ∧ entry = (group, store.sets.length)) := by
  rw [tables_change]
  split
  next received => rw [Dict.mem_setDefault_iff, received, and_iff_right rfl]
  next different => simp [different]

theorem length_sets_change_of_not_contains
    (absent : (store.tables key).contains group = false) :
    (store.change key group f).sets.length = store.sets.length + 1 := by
  rw [change_of_not_contains absent, List.length_append, List.length_singleton]

theorem length_sets_le_change :
    store.sets.length ≤ (store.change key group f).sets.length := by
  cases present : (store.tables key).contains group with
  | true =>
      obtain ⟨entry, member, same⟩ := Dict.contains_iff.mp present
      rw [change_of_entry member same]
      exact Nat.le_of_eq (List.length_modify f _ _).symm
  | false =>
      rw [length_sets_change_of_not_contains present]
      exact Nat.le_succ _

theorem IsApart.change (apart : store.IsApart) : (store.change key group f).IsApart where
  inside := by
    intro other entry member
    rcases mem_tables_change_iff.mp member with before | ⟨absent, -, rfl⟩
    · exact Nat.lt_of_lt_of_le (apart.inside other entry before) length_sets_le_change
    · rw [length_sets_change_of_not_contains absent]
      exact Nat.lt_succ_self _
  apart := by
    intro first entry member second shared sharedMember samePlace
    rcases mem_tables_change_iff.mp member with before | ⟨-, rfl, rfl⟩
    · rcases mem_tables_change_iff.mp sharedMember with sharedBefore | ⟨-, rfl, rfl⟩
      · exact apart.apart first entry before second shared sharedBefore samePlace
      · exact absurd samePlace (Nat.ne_of_lt (apart.inside first entry before))
    · rcases mem_tables_change_iff.mp sharedMember with sharedBefore | ⟨-, rfl, rfl⟩
      · exact absurd samePlace.symm (Nat.ne_of_lt (apart.inside second shared sharedBefore))
      · exact ⟨rfl, rfl⟩

theorem names_change (apart : store.IsApart) {other : Key} {entry : ShaderGroup × Nat}
    (member : entry ∈ (store.tables other).entries) :
    (store.change key group f).names entry.2 =
      if other = key ∧ (entry.1 == group) = true then f (store.names entry.2)
      else store.names entry.2 := by
  have inside := apart.inside other entry member
  cases present : (store.tables key).contains group with
  | true =>
      obtain ⟨changed, changedMember, same⟩ := Dict.contains_iff.mp present
      have place_iff : changed.2 = entry.2 ↔ other = key ∧ (entry.1 == group) = true := by
        constructor
        · intro samePlace
          obtain ⟨rfl, rfl⟩ := apart.apart key changed changedMember other entry member samePlace
          exact ⟨rfl, same⟩
        · rintro ⟨rfl, known⟩
          have sameKey := BEq.trans same (BEq.symm known)
          rw [Dict.eq_of_beq_keys changedMember member sameKey]
      rw [change_of_entry changedMember same]
      simp only [names, List.getD_eq_getElem?_getD, List.getElem?_modify, place_iff]
      split <;> simp [List.getElem?_eq_getElem inside]
  | false =>
      have others : ¬ (other = key ∧ (entry.1 == group) = true) := by
        rintro ⟨rfl, known⟩
        rw [Dict.contains_iff.mpr ⟨entry, member, known⟩] at present
        cases present
      rw [if_neg others, change_of_not_contains present]
      simp only [names, List.getD_eq_getElem?_getD, List.getElem?_append_left inside]

theorem names_change_length (absent : (store.tables key).contains group = false) :
    (store.change key group f).names store.sets.length = f .empty := by
  rw [change_of_not_contains absent]
  simp [names]

/-- A table changes as if it held its sets itself, and the other tables stay as they are. -/
theorem table_change (apart : store.IsApart) (other : Key) :
    (store.change key group f).table other =
      if other = key then (store.table key).change group f else store.table other := by
  apply Dict.ext_entries
  split
  next received =>
    subst received
    have kept : (store.tables other).entries.map (fun entry =>
        (entry.1, (store.change other group f).names entry.2)) =
        (store.table other).entries.map fun entry =>
          (entry.1, if entry.1 == group then f entry.2 else entry.2) := by
      rw [entries_table, List.map_map]
      refine List.map_congr_left fun entry member => ?_
      rw [names_change apart member]
      simp
    have sameGroups : (store.table other).contains group = (store.tables other).contains group :=
      Dict.contains_mapEntries _ _ _
    rw [entries_table, tables_change, if_pos rfl, GroupedNames.change, Dict.entries_update]
    cases present : (store.tables other).contains group with
    | true =>
        rw [Dict.setDefault_of_contains present,
          Dict.setDefault_of_contains (sameGroups.trans present)]
        exact kept
    | false =>
        rw [Dict.entries_setDefault_of_not_contains present,
          Dict.entries_setDefault_of_not_contains (sameGroups.trans present), List.map_append,
          List.map_append, kept]
        simp [names_change_length present]
  next different =>
    rw [entries_table, tables_change, if_neg different, entries_table]
    exact List.map_congr_left fun entry member => by
      rw [names_change apart member, if_neg fun received => different received.1]

theorem mergeGroup_unread (apart : store.IsApart) {receiver added : Key}
    {first entry : ShaderGroup × Nat} (member : entry ∈ (store.tables added).entries)
    (differ : (first.1 == entry.1) = false) :
    (store.mergeGroup receiver first).names entry.2 = store.names entry.2 := by
  rw [mergeGroup, names_change apart member, if_neg]
  rintro ⟨-, same⟩
  rw [BEq.symm same] at differ
  contradiction

/-- Some groups of a table are merged into a table. What is read of the sets whose turn is still
to come is what was in them at first, also when a table is merged into itself. -/
theorem foldl_mergeGroup (receiver added : Key) {entries : List (ShaderGroup × Nat)}
    (apart : store.IsApart) (members : ∀ entry ∈ entries, entry ∈ (store.tables added).entries)
    (distinct : entries.Pairwise fun earlier later => (earlier.1 == later.1) = false) :
    (entries.foldl (mergeGroup receiver) store).IsApart ∧
    ∀ other, (entries.foldl (mergeGroup receiver) store).table other =
      if other = receiver then
        (entries.map fun entry => (entry.1, store.names entry.2)).foldl
          GroupedNames.mergeGroup (store.table receiver)
      else
        store.table other := by
  induction entries generalizing store with
  | nil =>
      refine ⟨apart, fun other => ?_⟩
      split
      next received => rw [received]; rfl
      next => rfl
  | cons first entries induction =>
      obtain ⟨-, restMembers⟩ := List.forall_mem_cons.mp members
      obtain ⟨firstDistinct, restDistinct⟩ := List.pairwise_cons.mp distinct
      have unread : entries.map (fun entry =>
          (entry.1, (store.mergeGroup receiver first).names entry.2)) =
          entries.map fun entry => (entry.1, store.names entry.2) :=
        List.map_congr_left fun entry member => by
          rw [mergeGroup_unread apart (restMembers entry member) (firstDistinct entry member)]
      have stay : ∀ entry ∈ entries,
          entry ∈ ((store.mergeGroup receiver first).tables added).entries :=
        fun entry member => mem_tables_change_iff.mpr (.inl (restMembers entry member))
      have stepApart : (store.mergeGroup receiver first).IsApart := apart.change
      obtain ⟨mergedApart, shown⟩ := induction stepApart stay restDistinct
      refine ⟨mergedApart, fun other => ?_⟩
      rw [List.foldl_cons, shown, unread, mergeGroup, table_change apart, if_pos rfl,
        table_change apart]
      split <;> rfl

theorem IsApart.merge (apart : store.IsApart) (receiver added : Key) :
    (store.merge receiver added).IsApart :=
  (foldl_mergeGroup receiver added apart (fun _ => id) (store.tables added).distinct).1

theorem table_merge (apart : store.IsApart) (receiver added other : Key) :
    (store.merge receiver added).table other =
      if other = receiver then (store.table receiver).merge (store.table added)
      else store.table other :=
  (foldl_mergeGroup receiver added apart (fun _ => id) (store.tables added).distinct).2 other

end Store

namespace CatalogStep

variable {Key : Type} [DecidableEq Key]

theorem isApart_run {store : Store Key} (apart : store.IsApart) (step : CatalogStep Key) :
    (step.run store).IsApart := by
  cases step with
  | insert receiver group function => exact apart.change
  | merge receiver added => exact apart.merge receiver added

theorem storeAfter_concat (steps : List (CatalogStep Key)) (step : CatalogStep Key) :
    storeAfter (steps ++ [step]) = step.run (storeAfter steps) := by
  simp [storeAfter]

theorem isApart_storeAfter (steps : List (CatalogStep Key)) : (storeAfter steps).IsApart := by
  induction steps using List.reverseRecOn with
  | nil => exact .empty
  | append_singleton steps step induction =>
      rw [storeAfter_concat]
      exact isApart_run induction step

theorem table_run_of_ne {store : Store Key} (apart : store.IsApart) {step : CatalogStep Key}
    {key : Key} (other : key ≠ step.receiver) : (step.run store).table key = store.table key := by
  cases step with
  | insert receiver group function => exact (Store.table_change apart key).trans (if_neg other)
  | merge receiver added => exact (Store.table_merge apart receiver added key).trans (if_neg other)

end CatalogStep

end ShaderCatalog
