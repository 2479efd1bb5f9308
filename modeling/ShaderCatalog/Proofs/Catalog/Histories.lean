import Mathlib.Data.Finset.Card
import Mathlib.Logic.Function.Basic
import ShaderCatalog.Proofs.Catalog.Pairs
import ShaderCatalog.Proofs.Catalog.Sharing

namespace ShaderCatalog

/-! Tables that are filled and merged, one step at a time. Each of them stands for a finite set of
pairs of a group name and a function name, and a step changes the set of its receiver alone. -/

namespace Catalog

abbrev PairSet := Finset (Text × Text)

/-- What a catalog shows of itself, told by a set of pairs. -/
structure Denotes (catalog : Catalog) (pairs : PairSet) : Prop where
  functions_iff : ∀ (group : ShaderGroup) name,
    name ∈ catalog.functions group ↔ (group.name, name) ∈ pairs
  increasing : (catalog.sections.map (·.1)).Pairwise (· < ·)
  functions_increasing : ∀ shown ∈ catalog.sections,
    shown.2 ≠ [] ∧ shown.2.Pairwise (· < ·)
  sections_iff : ∀ group name,
    (∃ names, (group, names) ∈ catalog.sections ∧ name ∈ names) ↔ (group, name) ∈ pairs
  size_eq : catalog.size = (pairs.image Prod.fst).card
  contains_iff : ∀ group, catalog.contains group = true ↔ catalog.functions group ≠ []

theorem contains_iff_mem {catalog : Catalog} {group : ShaderGroup} :
    catalog.contains group = true ↔ group.name ∈ catalog.keyNames := by
  rw [contains, Dict.contains_iff, keyNames, List.mem_map]
  simp only [ShaderGroup.beq_iff_name_eq]

theorem size_eq_card {catalog : Catalog} {pairs : PairSet}
    (lists : ∀ group name, catalog.Lists group name ↔ (group, name) ∈ pairs) :
    catalog.size = (pairs.image Prod.fst).card := by
  have members : catalog.keyNames.toFinset = pairs.image Prod.fst := by
    ext group
    simp [mem_keyNames, lists]
  rw [← length_keyNames, ← members, List.toFinset_card_of_nodup catalog.nodup_keyNames]

theorem denotes_of_lists {catalog : Catalog} {pairs : PairSet}
    (lists : ∀ group name, catalog.Lists group name ↔ (group, name) ∈ pairs) :
    catalog.Denotes pairs where
  functions_iff := fun group name => mem_functions.trans (lists group.name name)
  increasing := by
    rw [map_fst_sections]
    exact catalog.pairwise_groupNames
  functions_increasing := fun _ member => functions_of_mem_sections member
  sections_iff := by
    intro group name
    rw [exists_mem_sections_iff, lists]
  size_eq := size_eq_card lists
  contains_iff := by
    intro group
    rw [contains_iff_mem, functions_ne_nil_iff, mem_keyNames, mem_groupNames]

section

variable (first second third : Catalog)

theorem merge_comm : (first.merge second == second.merge first) = true := by
  rw [beq_iff]
  intro group name
  simp only [lists_merge]
  exact or_comm

theorem merge_assoc :
    ((first.merge second).merge third == first.merge (second.merge third)) = true := by
  rw [beq_iff]
  intro group name
  simp only [lists_merge]
  exact or_assoc

theorem merge_self : (first.merge first == first) = true := by
  rw [beq_iff]
  intro group name
  rw [lists_merge]
  exact or_self_iff

theorem merge_empty : (first.merge ∅ == first) = true := by
  rw [beq_iff]
  intro group name
  simp

theorem empty_merge : ((∅ : Catalog).merge first == first) = true := by
  rw [beq_iff]
  intro group name
  simp

end

end Catalog

namespace CatalogStep

section

variable {Key : Type}

def catalog (catalogs : Key → Catalog) : CatalogStep Key → Catalog
  | insert receiver group function => (catalogs receiver).insert group function
  | merge receiver added => (catalogs receiver).merge (catalogs added)

def pairs (sets : Key → Catalog.PairSet) : CatalogStep Key → Catalog.PairSet
  | insert receiver group function => Insert.insert (group.name, function) (sets receiver)
  | merge receiver added => sets receiver ∪ sets added

theorem lists_catalog {catalogs : Key → Catalog} {sets : Key → Catalog.PairSet}
    (lists : ∀ key group name, (catalogs key).Lists group name ↔ (group, name) ∈ sets key)
    (step : CatalogStep Key) (group name : Text) :
    (step.catalog catalogs).Lists group name ↔ (group, name) ∈ step.pairs sets := by
  cases step with
  | insert receiver added function =>
      simp only [catalog, pairs, Catalog.lists_insert, Finset.mem_insert, Prod.mk.injEq, lists]
      rw [or_comm, and_comm]
  | merge receiver added =>
      simp only [catalog, pairs, Catalog.lists_merge, Finset.mem_union, lists]

variable [DecidableEq Key]

theorem table_run_receiver {store : Store Key} {catalogs : Key → Catalog}
    (apart : store.IsApart) (held : ∀ key, store.table key = (catalogs key).table)
    (step : CatalogStep Key) :
    (step.run store).table step.receiver = (step.catalog catalogs).table := by
  cases step with
  | insert receiver group function =>
      refine (Store.table_change apart receiver).trans ?_
      rw [if_pos rfl, held]
      rfl
  | merge receiver added =>
      refine (Store.table_merge apart receiver added receiver).trans ?_
      rw [if_pos rfl, held, held]
      rfl

/-- The sets of pairs behind a series of steps that begins with empty ones. -/
def pairsAfter (steps : List (CatalogStep Key)) : Key → Catalog.PairSet :=
  steps.foldl (fun sets step =>
    Function.update sets step.receiver (step.pairs sets)) fun _ => ∅

theorem pairsAfter_concat (steps : List (CatalogStep Key)) (step : CatalogStep Key) :
    pairsAfter (steps ++ [step]) =
      Function.update (pairsAfter steps) step.receiver (step.pairs (pairsAfter steps)) := by
  simp [pairsAfter]

theorem exists_catalogs (steps : List (CatalogStep Key)) :
    ∃ catalogs : Key → Catalog, (∀ key, (storeAfter steps).table key = (catalogs key).table) ∧
      ∀ key group name,
        (catalogs key).Lists group name ↔ (group, name) ∈ pairsAfter steps key := by
  induction steps using List.reverseRecOn with
  | nil => exact ⟨fun _ => ∅, fun _ => rfl, by simp [pairsAfter]⟩
  | append_singleton steps step induction =>
      obtain ⟨catalogs, held, lists⟩ := induction
      refine ⟨Function.update catalogs step.receiver (step.catalog catalogs), ?_, ?_⟩
      · intro key
        rw [storeAfter_concat]
        by_cases received : key = step.receiver
        · rw [received, Function.update_self]
          exact table_run_receiver (isApart_storeAfter steps) held step
        · rw [Function.update_of_ne received, ← held]
          exact table_run_of_ne (isApart_storeAfter steps) received
      · intro key group name
        rw [pairsAfter_concat]
        by_cases received : key = step.receiver
        · rw [received, Function.update_self, Function.update_self]
          exact lists_catalog lists step group name
        · rw [Function.update_of_ne received, Function.update_of_ne received]
          exact lists key group name

/-- Whatever is inserted and merged, each table is a catalog that denotes the pairs that were
put into it, and catalogs are equal if and only if they denote the same pairs. A step leaves
all tables but its receiver as they are, and a merge makes the union of two catalogs of its
receiver; up to equality this union is commutative, associative and idempotent, and the empty
catalog is its unit. -/
theorem storeAfter_denotes (steps : List (CatalogStep Key)) :
    (∃ catalogs : Key → Catalog,
      (∀ key, (storeAfter steps).catalog? key = some (catalogs key)) ∧
      (∀ key, (catalogs key).Denotes (pairsAfter steps key)) ∧
      (∀ key other, (catalogs key == catalogs other) = true ↔
        pairsAfter steps key = pairsAfter steps other) ∧
      ∀ receiver added, (storeAfter (steps ++ [merge receiver added])).catalog? receiver =
        some ((catalogs receiver).merge (catalogs added))) ∧
    (∀ step key, key ≠ step.receiver →
      (storeAfter (steps ++ [step])).catalog? key = (storeAfter steps).catalog? key) ∧
    ∀ first second third : Catalog,
      (first.merge second == second.merge first) = true ∧
      ((first.merge second).merge third == first.merge (second.merge third)) = true ∧
      (first.merge first == first) = true ∧
      (first.merge ∅ == first) = true ∧ ((∅ : Catalog).merge first == first) = true := by
  obtain ⟨catalogs, held, lists⟩ := exists_catalogs steps
  have apart := isApart_storeAfter steps
  refine ⟨⟨catalogs, ?_, ?_, ?_, ?_⟩, ?_, ?_⟩
  · exact fun key => Store.catalog?_eq_some_iff.mpr (held key)
  · exact fun key => Catalog.denotes_of_lists (lists key)
  · intro key other
    rw [Catalog.beq_iff, Finset.ext_iff, Prod.forall]
    simp only [lists]
  · intro receiver added
    rw [storeAfter_concat, Store.catalog?_eq_some_iff]
    exact table_run_receiver apart held (merge receiver added)
  · intro step key other
    rw [storeAfter_concat, Store.catalog?, Store.catalog?, table_run_of_ne apart other]
  · intro first second third
    exact ⟨Catalog.merge_comm first second, Catalog.merge_assoc first second third,
      Catalog.merge_self first, Catalog.merge_empty first, Catalog.empty_merge first⟩

end

end CatalogStep

end ShaderCatalog
