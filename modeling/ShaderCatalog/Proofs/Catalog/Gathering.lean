import ShaderCatalog.Document
import ShaderCatalog.Proofs.Catalog.Pairs
import ShaderCatalog.Proofs.Catalog.ResolvedMarkers
import ShaderCatalog.Proofs.Swift.Layout

namespace ShaderCatalog

/-! The catalogs of documents and of series of documents, by the pairs that they
list. Catalogs are gathered by folds that may fail; such a fold lists what its steps
add, and succeeds if each of its steps does. -/

section

variable {Item Error : Type} {add : Catalog → Item → Except Error Catalog}

theorem lists_foldlM {Adds : Item → Text → Text → Prop}
    (step : ∀ before item after, add before item = .ok after → ∀ group name,
      after.Lists group name ↔ before.Lists group name ∨ Adds item group name)
    {items : List Item} {start result : Catalog}
    (succeeded : items.foldlM add start = .ok result) (group name : Text) :
    result.Lists group name ↔
      start.Lists group name ∨ ∃ item ∈ items, Adds item group name := by
  induction items generalizing start with
  | nil =>
      cases succeeded
      simp
  | cons item items induction =>
      rw [List.foldlM_cons] at succeeded
      cases added : add start item with
      | error error =>
          rw [added] at succeeded
          cases succeeded
      | ok next =>
          rw [added] at succeeded
          rw [induction succeeded, step start item next added]
          simp [or_assoc]

theorem exists_foldlM_eq_ok_iff {Succeeds : Item → Prop}
    (step : ∀ before item, (∃ after, add before item = .ok after) ↔ Succeeds item)
    (items : List Item) (start : Catalog) :
    (∃ result, items.foldlM add start = .ok result) ↔ ∀ item ∈ items, Succeeds item := by
  induction items generalizing start with
  | nil => exact ⟨fun _ _ member => absurd member List.not_mem_nil, fun _ => ⟨start, rfl⟩⟩
  | cons item items induction =>
      rw [List.foldlM_cons, List.forall_mem_cons, ← step start item]
      cases added : add start item with
      | error error =>
          constructor
          · rintro ⟨_, succeeded⟩
            cases succeeded
          · rintro ⟨⟨_, succeeded⟩, _⟩
            cases succeeded
      | ok next =>
          rw [← induction next]
          exact ⟨fun succeeded => ⟨⟨next, rfl⟩, succeeded⟩, fun succeeded => succeeded.2⟩

end

namespace Document

/-- Whether the document has a function of this name in the group of this name. -/
def Resolves (document : Document) (group name : Text) : Prop :=
  ∃ catalog, document.catalog = .ok catalog ∧ catalog.Lists group name

end Document

theorem lists_assignGroups {declarations : List Declaration} {markers : List Marker}
    {documentId : String} {catalog : Catalog}
    (succeeded : assignGroups declarations markers documentId = .ok catalog)
    (group name : Text) :
    catalog.Lists group name ↔
      ∃ declaration ∈ declarations, declaration.name ≠ [] ∧ declaration.name = name ∧
        ∃ assigned, declaration.group markers documentId = .ok assigned ∧
          assigned.name = group := by
  have step (before : Catalog) (declaration : Declaration) (after : Catalog)
      (added : (declaration.group markers documentId).map (fun assigned =>
        before.insert assigned declaration.name) = .ok after) (group name : Text) :
      after.Lists group name ↔
        before.Lists group name ∨ (declaration.name = name ∧
          ∃ assigned, declaration.group markers documentId = .ok assigned ∧
            assigned.name = group) := by
    cases found : declaration.group markers documentId with
    | error error =>
        rw [found] at added
        cases added
    | ok assigned =>
        rw [found] at added
        cases added
        simp [eq_comm]
  rw [assignGroups_eq_foldlM] at succeeded
  rw [lists_foldlM step succeeded]
  simp [List.mem_filter, and_assoc]

theorem exists_assignGroups_eq_ok_iff {declarations : List Declaration}
    {markers : List Marker} {documentId : String} :
    (∃ catalog, assignGroups declarations markers documentId = .ok catalog) ↔
      ∀ declaration ∈ declarations, declaration.name ≠ [] →
        ∃ group, declaration.group markers documentId = .ok group := by
  rw [assignGroups_eq_foldlM, exists_foldlM_eq_ok_iff fun _ _ => exists_map_eq_ok_iff]
  simp [List.mem_filter]

namespace Delivery

theorem exists_gather_eq_ok_iff (deliveries : List Delivery) :
    (∃ catalog, gather deliveries = .ok catalog) ↔
      ∀ delivery ∈ deliveries, ∃ catalog, delivery.catalog = .ok catalog :=
  exists_foldlM_eq_ok_iff (fun _ _ => exists_map_eq_ok_iff) deliveries ∅

theorem lists_gather {deliveries : List Delivery} {catalog : Catalog}
    (succeeded : gather deliveries = .ok catalog) (group name : Text) :
    catalog.Lists group name ↔
      ∃ delivery ∈ deliveries, ∃ delivered, delivery.catalog = .ok delivered ∧
        delivered.Lists group name := by
  have step (before : Catalog) (delivery : Delivery) (after : Catalog)
      (added : delivery.catalog.map before.merge = .ok after) (group name : Text) :
      after.Lists group name ↔
        before.Lists group name ∨ ∃ delivered, delivery.catalog = .ok delivered ∧
          delivered.Lists group name := by
    cases found : delivery.catalog with
    | error error =>
        rw [found] at added
        cases added
    | ok delivered =>
        rw [found] at added
        cases added
        simp
  rw [lists_foldlM step succeeded]
  simp

theorem catalog_loaded_eq_ok_iff {document : Document} {catalog : Catalog} :
    (loaded document).catalog = .ok catalog ↔ document.catalog = .ok catalog :=
  mapError_eq_ok_iff

theorem exists_gather_loaded_eq_ok_iff (documents : List Document) :
    (∃ catalog, gather (documents.map loaded) = .ok catalog) ↔
      ∀ document ∈ documents, ∃ catalog, document.catalog = .ok catalog := by
  rw [exists_gather_eq_ok_iff, List.forall_mem_map]
  simp only [catalog_loaded_eq_ok_iff]

theorem lists_gather_loaded {documents : List Document} {catalog : Catalog}
    (succeeded : gather (documents.map loaded) = .ok catalog) (group name : Text) :
    catalog.Lists group name ↔ ∃ document ∈ documents, document.Resolves group name := by
  rw [lists_gather succeeded]
  simp only [List.mem_map, exists_exists_and_eq_and, catalog_loaded_eq_ok_iff,
    Document.Resolves]

end Delivery

end ShaderCatalog
