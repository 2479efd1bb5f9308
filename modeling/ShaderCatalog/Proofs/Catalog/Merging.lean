import ShaderCatalog.Proofs.Catalog.Gathering

namespace ShaderCatalog

/-! The code for a series of documents does not depend on the way in which their
catalogs are united. -/

/-- A way to unite the catalogs of documents, in any order, with any repetition and
in any bracketing. -/
inductive Merging where
  | empty
  | of (document : Document)
  | merge (receiver added : Merging)

namespace Merging

def documents : Merging → List Document
  | empty => []
  | of document => [document]
  | merge receiver added => receiver.documents ++ added.documents

def catalog : Merging → Except InvalidGroupName Catalog
  | empty => .ok ∅
  | of document => document.catalog
  | merge receiver added => do return (← receiver.catalog).merge (← added.catalog)

theorem exists_catalog {merging : Merging}
    (succeeds : ∀ document ∈ merging.documents, ∃ catalog, document.catalog = .ok catalog) :
    ∃ catalog, merging.catalog = .ok catalog ∧ ∀ group name,
      catalog.Lists group name ↔
        ∃ document ∈ merging.documents, document.Resolves group name := by
  induction merging with
  | empty => exact ⟨∅, rfl, by simp [documents]⟩
  | of document =>
      obtain ⟨catalog, found⟩ := succeeds document (by simp [documents])
      exact ⟨catalog, found, by simp [documents, Document.Resolves, found]⟩
  | merge receiver added receiverInduction addedInduction =>
      obtain ⟨first, firstFound, firstLists⟩ := receiverInduction fun document member =>
        succeeds document (List.mem_append_left _ member)
      obtain ⟨second, secondFound, secondLists⟩ := addedInduction fun document member =>
        succeeds document (List.mem_append_right _ member)
      refine ⟨first.merge second, ?_, fun group name => ?_⟩
      · rw [catalog, firstFound, secondFound]
        rfl
      · rw [Catalog.lists_merge, firstLists, secondLists]
        simp [documents, or_and_right, exists_or]

end Merging

theorem generateFrom_of_gather {deliveries : List Delivery} {catalog : Catalog}
    (gathered : Delivery.gather deliveries = .ok catalog) (module : Text) :
    generateFrom deliveries module = .ok (generate catalog module) := by
  rw [generateFrom, gathered]
  rfl

theorem generateFrom_loaded_of_lists {documents : List Document} {catalog : Catalog}
    (succeeds : ∀ document ∈ documents, ∃ catalog, document.catalog = .ok catalog)
    (lists : ∀ group name, catalog.Lists group name ↔
      ∃ document ∈ documents, document.Resolves group name) (module : Text) :
    generateFrom (documents.map .loaded) module = .ok (generate catalog module) := by
  obtain ⟨gathered, gatherEq⟩ :=
    (Delivery.exists_gather_loaded_eq_ok_iff documents).mpr succeeds
  have same (group name : Text) : gathered.Lists group name ↔ catalog.Lists group name := by
    rw [Delivery.lists_gather_loaded gatherEq, lists]
  rw [generateFrom_of_gather gatherEq, Catalog.generate_congr same]

/-- Documents without faults are turned into the code of any catalog that their
catalogs can be united to. So the code is that of any other series with the same
documents, and the cases of a group in it are the functions that some document has
there, each once and in order. -/
theorem generateFrom_eq_of_merging (documents : List Document) (module : Text)
    (succeeds : ∀ document ∈ documents, ∃ catalog, document.catalog = .ok catalog) :
    (∀ merging : Merging, (∀ document, document ∈ merging.documents ↔ document ∈ documents) →
      ∃ catalog, merging.catalog = .ok catalog ∧
        generateFrom (documents.map .loaded) module = .ok (generate catalog module)) ∧
    (∀ others : List Document, (∀ document, document ∈ others ↔ document ∈ documents) →
      generateFrom (others.map .loaded) module =
        generateFrom (documents.map .loaded) module) ∧
    ∃ sections : List (Text × List Text),
      generateFrom (documents.map .loaded) module = .ok (codeOf module sections) ∧
      (sections.map (·.1)).Pairwise (· < ·) ∧
      (∀ shown ∈ sections, shown.2 ≠ [] ∧ shown.2.Pairwise (· < ·)) ∧
      ∀ group name, (∃ names, (group, names) ∈ sections ∧ name ∈ names) ↔
        ∃ document ∈ documents, document.Resolves group name := by
  obtain ⟨catalog, gathered⟩ :=
    (Delivery.exists_gather_loaded_eq_ok_iff documents).mpr succeeds
  have lists := Delivery.lists_gather_loaded gathered
  have generated := generateFrom_of_gather gathered module
  refine ⟨fun merging sameDocuments => ?_, fun others sameDocuments => ?_,
    catalog.sections, ?_, ?_, ?_, ?_⟩
  · obtain ⟨merged, found, mergedLists⟩ := Merging.exists_catalog fun document member =>
      succeeds document ((sameDocuments document).mp member)
    simp only [sameDocuments] at mergedLists
    exact ⟨merged, found, generateFrom_loaded_of_lists succeeds mergedLists module⟩
  · rw [generated]
    apply generateFrom_loaded_of_lists
    · intro document member
      exact succeeds document ((sameDocuments document).mp member)
    · simpa only [sameDocuments] using lists
  · rw [generated, generate_eq]
  · rw [Catalog.map_fst_sections]
    exact catalog.pairwise_groupNames
  · exact fun _ member => Catalog.functions_of_mem_sections member
  · intro group name
    rw [Catalog.exists_mem_sections_iff, lists]

/-- Two documents that share a group, read in the other order and one of them twice. -/
theorem generateFrom_eq_of_merging_twice :
    let first : Document := ⟨"a.metal", "vertex float4 b(int i)\nkernel void c(int i)".toList⟩
    let second : Document := ⟨"b.metal", "vertex float4 a(int i)".toList⟩
    (∀ document ∈ [first, second], ∃ catalog, document.catalog = .ok catalog) ∧
      generateFrom ([second, first, second].map .loaded) "App".toList =
        generateFrom ([first, second].map .loaded) "App".toList := by
  intro first second
  have succeeds : ∀ document ∈ [first, second], ∃ catalog, document.catalog = .ok catalog := by
    intro document member
    rcases List.mem_pair.mp member with rfl | rfl
    · exact exists_eq_ok_of_isOk (by decide +kernel)
    · exact exists_eq_ok_of_isOk (by decide +kernel)
  refine ⟨succeeds, ?_⟩
  apply (generateFrom_eq_of_merging [first, second] "App".toList succeeds).2.1
  intro document
  simp only [List.mem_cons, List.not_mem_nil, or_false]
  constructor
  · rintro (inSecond | inFirst | inSecond)
    · exact Or.inr inSecond
    · exact Or.inl inFirst
    · exact Or.inr inSecond
  · rintro (inFirst | inSecond)
    · exact Or.inr (Or.inl inFirst)
    · exact Or.inl inSecond

end ShaderCatalog
