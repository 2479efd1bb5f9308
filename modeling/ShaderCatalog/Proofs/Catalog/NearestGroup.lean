import ShaderCatalog.Proofs.Catalog.FirstFailure
import ShaderCatalog.Proofs.Catalog.Names

namespace ShaderCatalog

/-! The group of a declaration by the markers as they are given, in any order and on any
lines: the nearest marker at or above the declaration names it, and the qualifier gives it
if no marker stands there. Markers that are nearest to no declaration count for nothing. -/

namespace NameFault.IsIn

variable {written : Text} {fault : NameFault}

theorem character?_eq (wrong : fault.IsIn written) :
    fault.character? = (invalidCharacter? (Text.trim written)).map fun c => [c] := by
  cases wrong with
  | empty blank =>
      rw [blank]
      rfl
  | unexpected split before other =>
      rw [invalidCharacter?_eq_some_iff.mpr ⟨other, _, _, split, before⟩]
      rfl
  | reserved taken =>
      rw [invalidCharacter?_eq_none_iff.mpr (isAlpha_of_mem_reservedTypeNames taken).2]
      rfl

end NameFault.IsIn

theorem exists_isIn_iff {written : Text} :
    (∃ fault : NameFault, fault.IsIn written) ↔ ¬ IsGroupName (Text.trim written) := by
  simp only [← ShaderGroup.ofName_eq_error_iff]
  cases named : ShaderGroup.ofName written with
  | error fault =>
      have improper : ¬ IsGroupName (Text.trim written) := by
        intro proper
        rw [ShaderGroup.ofName_eq_ok_iff.mpr ⟨proper, rfl⟩] at named
        cases named
      exact iff_of_true ⟨fault, rfl⟩ improper
  | ok group =>
      have proper := (ShaderGroup.ofName_eq_ok_iff.mp named).1
      exact iff_of_false (fun ⟨_, failed⟩ => by cases failed) (not_not_intro proper)

theorem Marker.group_eq_ok_iff {marker : Marker} {documentId : String} {group : ShaderGroup} :
    marker.group documentId = .ok group ↔
      IsGroupName (Text.trim marker.groupName) ∧
        group = ⟨.custom, some (Text.trim marker.groupName)⟩ := by
  rw [← ShaderGroup.ofName_eq_ok_iff, Marker.group, mapError_eq_ok_iff]

namespace Declaration

/-- The group of a declaration by the nearest marker, or by its qualifier. -/
inductive BelongsTo (markers : List Marker) (declaration : Declaration) :
    ShaderGroup → Prop where
  | marked {before after : List Marker} {marker : Marker}
      (split : markers = before ++ marker :: after)
      (nearest : marker.IsNearest before after declaration.line)
      (proper : IsGroupName (Text.trim marker.groupName)) :
      BelongsTo markers declaration ⟨.custom, some (Text.trim marker.groupName)⟩
  | unmarked (below : ∀ marker ∈ markers, declaration.line < marker.line) :
      BelongsTo markers declaration (ShaderGroup.ofQualifier declaration.qualifier)

/-- What is reported of a declaration whose nearest marker names no valid group. -/
inductive Fails (markers : List Marker) (documentId : String) (declaration : Declaration) :
    InvalidGroupName → Prop where
  | marked {before after : List Marker} {marker : Marker} {fault : NameFault}
      (split : markers = before ++ marker :: after)
      (nearest : marker.IsNearest before after declaration.line)
      (wrong : fault.IsIn marker.groupName) :
      Fails markers documentId declaration
        ⟨documentId, marker.line, marker.groupName, fault⟩

section

variable {markers : List Marker} {documentId : String} {declaration : Declaration}

theorem group_eq_ok_iff_belongsTo {group : ShaderGroup} :
    declaration.group markers documentId = .ok group ↔
      declaration.BelongsTo markers group := by
  rw [Declaration.group]
  constructor
  · cases governs : governing? markers declaration.line with
    | none =>
        rintro ⟨⟩
        exact .unmarked (governing?_eq_none_iff.mp governs)
    | some marker =>
        intro found
        obtain ⟨before, after, split, nearest⟩ := governing?_eq_some_iff_isNearest.mp governs
        obtain ⟨proper, rfl⟩ := Marker.group_eq_ok_iff.mp found
        exact .marked split nearest proper
  · rintro (⟨split, nearest, proper⟩ | below)
    · rw [governing?_eq_some_iff_isNearest.mpr ⟨_, _, split, nearest⟩]
      exact Marker.group_eq_ok_iff.mpr ⟨proper, rfl⟩
    · rw [governing?_eq_none_iff.mpr below]

theorem group_eq_error_iff_fails {error : InvalidGroupName} :
    declaration.group markers documentId = .error error ↔
      declaration.Fails markers documentId error := by
  rw [Declaration.group]
  constructor
  · cases governs : governing? markers declaration.line with
    | none =>
        rintro ⟨⟩
    | some marker =>
        intro failed
        obtain ⟨before, after, split, nearest⟩ := governing?_eq_some_iff_isNearest.mp governs
        obtain ⟨wrong, same⟩ := Marker.group_eq_error_iff.mp failed
        rw [same]
        exact .marked split nearest wrong
  · rintro ⟨split, nearest, wrong⟩
    rw [governing?_eq_some_iff_isNearest.mpr ⟨_, _, split, nearest⟩]
    exact Marker.group_eq_error_iff.mpr ⟨wrong, rfl⟩

theorem Fails.character?_eq {error : InvalidGroupName}
    (fails : declaration.Fails markers documentId error) :
    error.fault.character? =
      (invalidCharacter? (Text.trim error.groupName)).map fun c => [c] := by
  obtain ⟨_, _, wrong⟩ := fails
  exact wrong.character?_eq

end

end Declaration

/-- Whether a marker, given between others, is the nearest to a declaration with a name. -/
def Marker.IsAssigned (declarations : List Declaration) (before : List Marker)
    (marker : Marker) (after : List Marker) : Prop :=
  ∃ declaration ∈ declarations, declaration.name ≠ [] ∧
    marker.IsNearest before after declaration.line

section

variable {declarations : List Declaration} {markers : List Marker} {documentId : String}

theorem assignGroups_eq_error_iff_fails {error : InvalidGroupName} :
    assignGroups declarations markers documentId = .error error ↔
      FirstFault (fun declaration error => declaration.name ≠ [] ∧
        declaration.Fails markers documentId error) declarations error := by
  rw [assignGroups_eq_error_iff]
  simp only [Declaration.group_eq_error_iff_fails]

theorem exists_assignGroups_eq_error_iff :
    (∃ error, assignGroups declarations markers documentId = .error error) ↔
      ∃ before marker after, markers = before ++ marker :: after ∧
        marker.IsAssigned declarations before after ∧
          ¬ IsGroupName (Text.trim marker.groupName) := by
  simp only [assignGroups_eq_error_iff_fails, exists_firstFault_iff]
  constructor
  · rintro ⟨declaration, member, _, named, split, nearest, wrong⟩
    exact ⟨_, _, _, split, ⟨declaration, member, named, nearest⟩, exists_isIn_iff.mp ⟨_, wrong⟩⟩
  · rintro ⟨before, marker, after, split, ⟨declaration, member, named, nearest⟩, improper⟩
    obtain ⟨fault, wrong⟩ := exists_isIn_iff.mpr improper
    exact ⟨declaration, member, _, named, .marked split nearest wrong⟩

theorem assignGroups_of_sublist {kept : List Marker} (isSublist : kept.Sublist markers)
    (assignedKept : ∀ before marker after, markers = before ++ marker :: after →
      marker.IsAssigned declarations before after →
        ∃ keptBefore keptAfter, kept = keptBefore ++ marker :: keptAfter ∧
          keptBefore.Sublist before ∧ keptAfter.Sublist after) :
    assignGroups declarations kept documentId =
      assignGroups declarations markers documentId := by
  rw [assignGroups_eq_foldlM, assignGroups_eq_foldlM]
  apply foldlM_congr
  intro declaration member catalog
  obtain ⟨declared, named⟩ := List.mem_filter.mp member
  have governs := governing?_of_sublist isSublist fun before marker after split nearest =>
    assignedKept before marker after split ⟨declaration, declared, by simpa using named, nearest⟩
  rw [Declaration.group, Declaration.group, governs]

end

/-- Declarations are grouped by their nearest markers, whatever the order and the lines of
the markers. It fails if and only if a nearest marker names no valid group, with the first
declaration of such a marker; else exactly the groups that the declarations belong to are
listed. Markers that are nearest to no declaration can go. -/
theorem assignGroups_follows_nearest (declarations : List Declaration) (markers : List Marker)
    (documentId : String) :
    ((∃ error, assignGroups declarations markers documentId = .error error) ↔
      ∃ before marker after, markers = before ++ marker :: after ∧
        marker.IsAssigned declarations before after ∧
          ¬ IsGroupName (Text.trim marker.groupName)) ∧
    (∀ error, assignGroups declarations markers documentId = .error error ↔
      FirstFault (fun declaration error => declaration.name ≠ [] ∧
        declaration.Fails markers documentId error) declarations error) ∧
    (∀ error, assignGroups declarations markers documentId = .error error →
      error.fault.character? =
        (invalidCharacter? (Text.trim error.groupName)).map fun c => [c]) ∧
    (∀ catalog, assignGroups declarations markers documentId = .ok catalog →
      ∀ group name, catalog.Lists group name ↔
        ∃ declaration ∈ declarations, declaration.name ≠ [] ∧ declaration.name = name ∧
          ∃ assigned, declaration.BelongsTo markers assigned ∧ assigned.name = group) ∧
    ∀ kept, kept.Sublist markers →
      (∀ before marker after, markers = before ++ marker :: after →
        marker.IsAssigned declarations before after →
          ∃ keptBefore keptAfter, kept = keptBefore ++ marker :: keptAfter ∧
            keptBefore.Sublist before ∧ keptAfter.Sublist after) →
      assignGroups declarations kept documentId =
        assignGroups declarations markers documentId := by
  refine ⟨exists_assignGroups_eq_error_iff, fun _ => assignGroups_eq_error_iff_fails, ?_, ?_,
    fun _ => assignGroups_of_sublist⟩
  · intro error failed
    obtain ⟨_, _, _, _, _, _, fails⟩ := assignGroups_eq_error_iff_fails.mp failed
    exact fails.character?_eq
  · intro catalog succeeded group name
    rw [lists_assignGroups succeeded]
    simp only [Declaration.group_eq_ok_iff_belongsTo]

end ShaderCatalog
