import ShaderCatalog.Proofs.Catalog.Gathering
import ShaderCatalog.Proofs.Catalog.NearestMarker
import ShaderCatalog.Proofs.Source.DeclaredName
import ShaderCatalog.Proofs.Source.LineOrder

namespace ShaderCatalog

/-! Which failure is reported. Deliveries are taken in order, declarations in the order
of the source and the characters of a group name from the left; the first fault found
is the one that is reported, and nothing behind it counts. -/

/-- The fault of the first item that has one. -/
def FirstFault {Item Error : Type} (Faulty : Item → Error → Prop) (items : List Item)
    (error : Error) : Prop :=
  ∃ before item after, items = before ++ item :: after ∧
    (∀ earlier ∈ before, ∀ other, ¬ Faulty earlier other) ∧ Faulty item error

section

variable {Item Error : Type} {Faulty : Item → Error → Prop} {item : Item}
  {items : List Item} {error : Error}

theorem not_firstFault_nil : ¬ FirstFault Faulty [] error := by
  rintro ⟨before, item, after, split, _⟩
  exact List.append_ne_nil_of_right_ne_nil before (List.cons_ne_nil item after) split.symm

theorem firstFault_cons_iff :
    FirstFault Faulty (item :: items) error ↔
      Faulty item error ∨
        (∀ other, ¬ Faulty item other) ∧ FirstFault Faulty items error := by
  constructor
  · rintro ⟨before, found, after, split, sound, faulty⟩
    cases before with
    | nil =>
        cases split
        exact Or.inl faulty
    | cons first before =>
        cases split
        obtain ⟨itemSound, beforeSound⟩ := List.forall_mem_cons.mp sound
        exact Or.inr ⟨itemSound, before, found, after, rfl, beforeSound, faulty⟩
  · rintro (faulty | ⟨itemSound, before, found, after, rfl, sound, faulty⟩)
    · exact ⟨[], item, items, rfl, fun _ member => absurd member List.not_mem_nil, faulty⟩
    · exact ⟨item :: before, found, after, rfl,
        List.forall_mem_cons.mpr ⟨itemSound, sound⟩, faulty⟩

theorem firstFault_filter_iff (keep : Item → Bool) :
    FirstFault Faulty (items.filter keep) error ↔
      FirstFault (fun item error => keep item = true ∧ Faulty item error) items error := by
  induction items with
  | nil => exact iff_of_false not_firstFault_nil not_firstFault_nil
  | cons item items induction =>
      cases kept : keep item with
      | true =>
          rw [List.filter_cons_of_pos kept, firstFault_cons_iff, firstFault_cons_iff, induction]
          simp [kept]
      | false =>
          rw [List.filter_cons_of_neg (by simp [kept]), firstFault_cons_iff, induction]
          simp [kept]

theorem firstFault_congr {Other : Item → Error → Prop}
    (same : ∀ item ∈ items, ∀ error, Faulty item error ↔ Other item error) :
    FirstFault Faulty items error ↔ FirstFault Other items error := by
  induction items with
  | nil => exact iff_of_false not_firstFault_nil not_firstFault_nil
  | cons item items induction =>
      obtain ⟨itemSame, itemsSame⟩ := List.forall_mem_cons.mp same
      rw [firstFault_cons_iff, firstFault_cons_iff, induction itemsSame]
      simp only [itemSame]

theorem firstFault_map_iff {Source : Type} {sources : List Source} (f : Source → Item) :
    FirstFault Faulty (sources.map f) error ↔
      FirstFault (fun source => Faulty (f source)) sources error := by
  induction sources with
  | nil => exact iff_of_false not_firstFault_nil not_firstFault_nil
  | cons source sources induction =>
      rw [List.map_cons, firstFault_cons_iff, firstFault_cons_iff, induction]

theorem firstFault_image_iff {Shown : Type} {shown : Shown} (told : Error → Shown) :
    FirstFault (fun item shown => ∃ error, Faulty item error ∧ shown = told error) items shown ↔
      ∃ error, FirstFault Faulty items error ∧ shown = told error := by
  have sound (item : Item) : (∀ shown, ¬ ∃ error, Faulty item error ∧ shown = told error) ↔
      ∀ error, ¬ Faulty item error :=
    ⟨fun none error faulty => none (told error) ⟨error, faulty, rfl⟩,
      fun none _ ⟨error, faulty, _⟩ => none error faulty⟩
  induction items with
  | nil => exact iff_of_false not_firstFault_nil (fun ⟨_, faulty, _⟩ => not_firstFault_nil faulty)
  | cons item items induction =>
      simp only [firstFault_cons_iff, induction, sound, or_and_right, exists_or, and_assoc,
        exists_and_left]

theorem exists_firstFault_iff :
    (∃ error, FirstFault Faulty items error) ↔ ∃ item ∈ items, ∃ error, Faulty item error := by
  induction items with
  | nil => exact iff_of_false (fun ⟨_, faulty⟩ => not_firstFault_nil faulty) (by simp)
  | cons item items induction =>
      simp only [firstFault_cons_iff, List.exists_mem_cons_iff, ← induction]
      by_cases itemFaulty : ∃ error, Faulty item error
      · obtain ⟨error, faulty⟩ := itemFaulty
        exact iff_of_true ⟨error, .inl faulty⟩ (.inl ⟨error, faulty⟩)
      · simp [not_exists.mp itemFaulty]

/-- A fold that may fail ends with the first fault of its items, if a step fails with
the fault of its item. -/
theorem foldlM_eq_error_iff {State : Type} {add : State → Item → Except Error State}
    (step : ∀ state item error, add state item = .error error ↔ Faulty item error)
    (start : State) :
    items.foldlM add start = .error error ↔ FirstFault Faulty items error := by
  induction items generalizing start with
  | nil => exact iff_of_false (fun failed => by cases failed) not_firstFault_nil
  | cons item items induction =>
      rw [List.foldlM_cons, firstFault_cons_iff]
      cases added : add start item with
      | error fault =>
          have faulty := (step start item fault).mp added
          constructor
          · intro failed
            cases failed
            exact Or.inl faulty
          · rintro (itemFaulty | ⟨sound, _⟩)
            · rw [← (step start item error).mpr itemFaulty, added]
              rfl
            · exact absurd faulty (sound fault)
      | ok next =>
          have sound (other : Error) : ¬ Faulty item other := by
            intro faulty
            rw [(step start item other).mpr faulty] at added
            cases added
          constructor
          · intro failed
            exact Or.inr ⟨sound, (induction next).mp failed⟩
          · rintro (faulty | ⟨_, later⟩)
            · exact absurd faulty (sound error)
            · exact (induction next).mpr later

theorem mapM_eq_error_iff {Value : Type} {f : Item → Except Error Value} :
    items.mapM f = .error error ↔
      FirstFault (fun item error => f item = .error error) items error := by
  induction items with
  | nil => exact iff_of_false (fun failed => by cases failed) not_firstFault_nil
  | cons item items induction =>
      rw [List.mapM_cons, firstFault_cons_iff, ← induction]
      cases f item with
      | error fault => simp [bind, Except.bind]
      | ok value => cases items.mapM f <;> simp [pure, Except.pure, bind, Except.bind]

theorem firstFault_insert_iff {before after : List Item} (sound : ∀ other, ¬ Faulty item other) :
    FirstFault Faulty (before ++ item :: after) error ↔
      FirstFault Faulty (before ++ after) error := by
  induction before with
  | nil =>
      rw [List.nil_append, List.nil_append, firstFault_cons_iff, or_iff_right (sound error)]
      exact and_iff_right sound
  | cons first before induction =>
      rw [List.cons_append, List.cons_append, firstFault_cons_iff, firstFault_cons_iff, induction]

end

/-- What is wrong with a name as it is written. -/
inductive NameFault.IsIn (written : Text) : NameFault → Prop where
  | empty (blank : Text.trim written = []) : IsIn written .empty
  | unexpected {letters rest : Text} {c : Char}
      (split : Text.trim written = letters ++ c :: rest)
      (before : ∀ letter ∈ letters, letter.isAlpha = true) (other : c.isAlpha = false) :
      IsIn written (.unexpected [c])
  | reserved (taken : Text.trim written ∈ reservedTypeNames) :
      IsIn written (.reserved (Text.trim written))

theorem isAlpha_of_mem_reservedTypeNames {name : Text} (reserved : name ∈ reservedTypeNames) :
    name ≠ [] ∧ ∀ c ∈ name, c.isAlpha = true := by
  rcases List.mem_pair.mp reserved with rfl | rfl
  · exact ⟨List.cons_ne_nil _ _, List.all_eq_true.mp (by decide)⟩
  · exact ⟨List.cons_ne_nil _ _, List.all_eq_true.mp (by decide)⟩

theorem ShaderGroup.ofName_eq_error_iff {written : Text} {fault : NameFault} :
    ofName written = .error fault ↔ fault.IsIn written := by
  simp only [ofName]
  constructor
  · intro failed
    split at failed
    next blank =>
      cases failed
      exact .empty blank
    next =>
      split at failed
      next c found =>
        cases failed
        obtain ⟨other, letters, rest, split, before⟩ := invalidCharacter?_eq_some_iff.mp found
        exact .unexpected split before other
      next =>
        split at failed
        next taken =>
          cases failed
          exact .reserved taken
        next => contradiction
  · rintro (blank | ⟨split, before, other⟩ | taken)
    · rw [if_pos blank]
    · have nonempty : Text.trim written ≠ [] := by simp [split]
      have found := invalidCharacter?_eq_some_iff.mpr ⟨other, _, _, split, before⟩
      rw [if_neg nonempty, found]
    · obtain ⟨nonempty, letters⟩ := isAlpha_of_mem_reservedTypeNames taken
      have lettersOnly := invalidCharacter?_eq_none_iff.mpr letters
      simp only [if_neg nonempty, lettersOnly, if_pos taken]

namespace Marker

/-- Whether the marker is the nearest of some markers at or above a line. -/
structure Governs (marker : Marker) (markers : List Marker) (line : Int) : Prop where
  mem : marker ∈ markers
  above : marker.line ≤ line
  nearest : ∀ other ∈ markers, other.line ≤ line → other.line ≤ marker.line

theorem governing?_eq_some_iff {markers : List Marker} {line : Int} {marker : Marker}
    (increasing : markers.Pairwise fun earlier later => earlier.line < later.line) :
    governing? markers line = some marker ↔ marker.Governs markers line := by
  rw [governing?_eq_some_iff_isNearest]
  constructor
  · rintro ⟨before, after, rfl, nearest⟩
    exact ⟨by simp, nearest.above, fun other member => nearest.le member⟩
  · rintro ⟨member, above, nearest⟩
    obtain ⟨before, after, rfl⟩ := List.append_of_mem member
    obtain ⟨-, fromMarker, -⟩ := List.pairwise_append.mp increasing
    obtain ⟨below, -⟩ := List.pairwise_cons.mp fromMarker
    refine ⟨before, after, rfl, above, fun other earlier => ?_, fun other later otherAbove => ?_⟩
    · exact nearest other (List.mem_append_left _ earlier)
    · have otherBelow := below other later
      have otherNearest := nearest other (by simp [later]) otherAbove
      omega

theorem group_eq_error_iff {marker : Marker} {documentId : String} {error : InvalidGroupName} :
    marker.group documentId = .error error ↔
      error.fault.IsIn marker.groupName ∧
        error = ⟨documentId, marker.line, marker.groupName, error.fault⟩ := by
  rw [group, mapError_eq_error_iff]
  simp only [ShaderGroup.ofName_eq_error_iff]
  constructor
  · rintro ⟨fault, wrong, rfl⟩
    exact ⟨wrong, rfl⟩
  · rintro ⟨wrong, same⟩
    exact ⟨error.fault, wrong, same⟩

end Marker

/-- Whether the marker that governs a declaration makes the error. -/
def Declaration.IsMisnamed (markers : List Marker) (documentId : String)
    (declaration : Declaration) (error : InvalidGroupName) : Prop :=
  ∃ marker : Marker, marker.Governs markers declaration.line ∧
    error.fault.IsIn marker.groupName ∧
    error = ⟨documentId, marker.line, marker.groupName, error.fault⟩

theorem Declaration.group_eq_error_iff {markers : List Marker} {documentId : String}
    {declaration : Declaration} {error : InvalidGroupName}
    (increasing : markers.Pairwise fun earlier later => earlier.line < later.line) :
    declaration.group markers documentId = .error error ↔
      declaration.IsMisnamed markers documentId error := by
  rw [group, IsMisnamed]
  simp only [← Marker.governing?_eq_some_iff increasing, ← Marker.group_eq_error_iff]
  cases governing? markers declaration.line with
  | none => simp
  | some marker => simp

theorem assignGroups_eq_error_iff {declarations : List Declaration} {markers : List Marker}
    {documentId : String} {error : InvalidGroupName} :
    assignGroups declarations markers documentId = .error error ↔
      FirstFault (fun declaration error => declaration.name ≠ [] ∧
        declaration.group markers documentId = .error error) declarations error := by
  rw [assignGroups_eq_foldlM, foldlM_eq_error_iff fun _ _ _ => map_eq_error_iff,
    firstFault_filter_iff]
  simp only [Bool.not_eq_true', List.isEmpty_eq_false_iff]

theorem Document.pairwise_markers (document : Document) :
    document.markers.Pairwise fun earlier later => earlier.line < later.line :=
  pairwise_line_markers _

theorem Document.catalog_eq_error_iff {document : Document} {error : InvalidGroupName} :
    document.catalog = .error error ↔
      FirstFault (Declaration.IsMisnamed document.markers document.origin)
        document.declarations error := by
  rw [catalog, assignGroups_eq_error_iff]
  apply firstFault_congr
  intro declaration member other
  have named := (isIdentifier_name_of_mem_declarations member).ne_nil
  rw [Declaration.group_eq_error_iff document.pairwise_markers]
  exact and_iff_right named

namespace Delivery

/-- What goes wrong with a delivery: the loader failed, or a document cannot be
cataloged. -/
inductive Fails : Delivery → Failure → Prop where
  | failed (failure : Failure) : Fails (.failed failure) failure
  | loaded {document : Document} {error : InvalidGroupName}
      (found : document.catalog = .error error) :
      Fails (.loaded document) (.invalidGroupName error)

theorem catalog_eq_error_iff {delivery : Delivery} {failure : Failure} :
    delivery.catalog = .error failure ↔ delivery.Fails failure := by
  cases delivery with
  | loaded document =>
      rw [catalog, mapError_eq_error_iff]
      constructor
      · rintro ⟨error, found, rfl⟩
        exact .loaded found
      · rintro (_ | found)
        exact ⟨_, found, rfl⟩
  | skipped error =>
      constructor
      · intro failed
        cases failed
      · intro failed
        cases failed
  | failed found =>
      constructor
      · intro failed
        cases failed
        exact .failed _
      · intro failed
        cases failed
        rfl

theorem gather_eq_error_iff {deliveries : List Delivery} {failure : Failure} :
    gather deliveries = .error failure ↔ FirstFault Fails deliveries failure := by
  apply foldlM_eq_error_iff
  intro catalog delivery failure
  rw [← catalog_eq_error_iff]
  exact map_eq_error_iff

end Delivery

theorem exists_generateFrom_eq_ok_iff (deliveries : List Delivery) (module : Text) :
    (∃ code, generateFrom deliveries module = .ok code) ↔
      ∀ delivery ∈ deliveries, ∃ catalog, delivery.catalog = .ok catalog := by
  rw [← Delivery.exists_gather_eq_ok_iff, generateFrom, exists_map_eq_ok_iff]

theorem generateFrom_eq_error_iff (deliveries : List Delivery) (module : Text)
    (failure : Failure) :
    generateFrom deliveries module = .error failure ↔
      FirstFault Delivery.Fails deliveries failure := by
  rw [← Delivery.gather_eq_error_iff, generateFrom, map_eq_error_iff]

/-- Code is generated if and only if every source is loaded and every document is
cataloged; else the first failing delivery is reported, and of a document the first
declaration whose governing marker names no valid group. -/
theorem generateFrom_reports_first (deliveries : List Delivery) (module : Text) :
    ((∃ code, generateFrom deliveries module = .ok code) ↔
      (∀ failure, .failed failure ∉ deliveries) ∧
        ∀ document, .loaded document ∈ deliveries →
          ∃ catalog, document.catalog = .ok catalog) ∧
    (∀ failure, generateFrom deliveries module = .error failure ↔
      FirstFault Delivery.Fails deliveries failure) ∧
    ∀ document : Document,
      (document.declarations.Pairwise fun earlier later => earlier.line < later.line) ∧
      ∀ error, document.catalog = .error error ↔
        FirstFault (Declaration.IsMisnamed document.markers document.origin)
          document.declarations error := by
  refine ⟨?_, generateFrom_eq_error_iff deliveries module, fun document => ?_⟩
  · rw [exists_generateFrom_eq_ok_iff]
    constructor
    · intro succeeds
      refine ⟨fun failure member => ?_, fun document member => ?_⟩
      · obtain ⟨catalog, found⟩ := succeeds _ member
        cases found
      · obtain ⟨catalog, found⟩ := succeeds _ member
        exact ⟨catalog, Delivery.catalog_loaded_eq_ok_iff.mp found⟩
    · rintro ⟨noFailure, cataloged⟩ delivery member
      cases delivery with
      | loaded document =>
          obtain ⟨catalog, found⟩ := cataloged document member
          exact ⟨catalog, Delivery.catalog_loaded_eq_ok_iff.mpr found⟩
      | skipped error => exact ⟨∅, rfl⟩
      | failed failure => exact absurd member (noFailure failure)
  · exact ⟨pairwise_line_declarations _, fun _ => Document.catalog_eq_error_iff⟩

end ShaderCatalog
