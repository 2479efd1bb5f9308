import ShaderCatalog.Proofs.Catalog.NearestGroup
import ShaderCatalog.Proofs.Source.PrecedingMarker

namespace ShaderCatalog

/-! A marker in front of a document. It names the group of all functions above the first
marker of the document, and changes the group of no other function. -/

def InvalidGroupName.down (error : InvalidGroupName) : InvalidGroupName :=
  { error with line := error.line + 1 }

def Document.withMarker (document : Document) (name : Text) : Document :=
  ⟨document.origin, markerComment name ++ '\n' :: document.content⟩

theorem IsGroupName.isBlank_eq_false {name : Text} (proper : IsGroupName name) :
    ∀ c ∈ name, isBlank c = false := by
  intro c member
  cases blank : isBlank c with
  | false => rfl
  | true =>
      have letter := proper.isAlpha c member
      rw [isAlpha_eq_false_of_isBlank blank] at letter
      contradiction

namespace Declaration

/-- The name of the group of a declaration, if `default` is the one where no marker stands
above. -/
inductive GroupedUnder (markers : List Marker) (default : Text) (declaration : Declaration) :
    Text → Prop where
  | marked {marker : Marker} (governs : marker.Governs markers declaration.line) :
      GroupedUnder markers default declaration (Text.trim marker.groupName)
  | unmarked (below : ∀ marker ∈ markers, declaration.line < marker.line) :
      GroupedUnder markers default declaration default

def groupOr (default : ShaderGroup) (declaration : Declaration) (markers : List Marker)
    (documentId : String) : Except InvalidGroupName ShaderGroup :=
  match governing? markers declaration.line with
  | some marker => marker.group documentId
  | none => .ok default

section

variable {markers : List Marker} {declaration : Declaration} {documentId : String}

theorem groupedUnder_iff {default group : Text}
    (increasing : markers.Pairwise fun earlier later => earlier.line < later.line) :
    declaration.GroupedUnder markers default group ↔
      group = (governing? markers declaration.line).elim default
        fun marker => Text.trim marker.groupName := by
  constructor
  · rintro (governs | below)
    · rw [(Marker.governing?_eq_some_iff increasing).mpr governs]
      rfl
    · rw [governing?_eq_none_iff.mpr below]
      rfl
  · rintro rfl
    cases governs : governing? markers declaration.line with
    | none => exact .unmarked (governing?_eq_none_iff.mp governs)
    | some marker => exact .marked ((Marker.governing?_eq_some_iff increasing).mp governs)

theorem exists_groupedUnder (declaration : Declaration)
    (increasing : markers.Pairwise fun earlier later => earlier.line < later.line)
    (default : Text) : ∃ group, declaration.GroupedUnder markers default group :=
  ⟨_, (groupedUnder_iff increasing).mpr rfl⟩

theorem groupedUnder_iff_of_groupOr {default assigned : ShaderGroup} {group : Text}
    (increasing : markers.Pairwise fun earlier later => earlier.line < later.line)
    (found : declaration.groupOr default markers documentId = .ok assigned) :
    declaration.GroupedUnder markers default.name group ↔ assigned.name = group := by
  rw [groupedUnder_iff increasing, eq_comm]
  unfold groupOr at found
  cases governs : governing? markers declaration.line with
  | none =>
      rw [governs] at found
      cases found
      rfl
  | some marker =>
      rw [governs] at found
      obtain ⟨-, rfl⟩ := Marker.group_eq_ok_iff.mp found
      rfl

end

end Declaration

theorem Marker.group_down (marker : Marker) (documentId : String) :
    marker.down.group documentId = (marker.group documentId).mapError InvalidGroupName.down := by
  have name : marker.down.groupName = marker.groupName := rfl
  rw [Marker.group, Marker.group, name]
  cases ShaderGroup.ofName marker.groupName with
  | error fault => rfl
  | ok group => rfl

section

variable {first : Marker} {markers : List Marker}

theorem Marker.IsNearest.down {before after : List Marker} {marker : Marker} {line : Int}
    (nearest : marker.IsNearest before after line) (top : first.line ≤ marker.line + 1) :
    marker.down.IsNearest (first :: before.map Marker.down) (after.map Marker.down)
      (line + 1) where
  above := Int.add_le_add_right nearest.above 1
  before_le := by
    intro other member above
    rcases List.mem_cons.mp member with rfl | shifted
    · exact top
    · obtain ⟨original, earlier, rfl⟩ := List.mem_map.mp shifted
      have le := nearest.before_le original earlier (Int.le_of_add_le_add_right above)
      exact Int.add_le_add_right le 1
  after_lt := by
    intro other member above
    obtain ⟨original, later, rfl⟩ := List.mem_map.mp member
    have lt := nearest.after_lt original later (Int.le_of_add_le_add_right above)
    exact Int.add_lt_add_right lt 1

theorem governing?_cons_map_down {line : Int} (above : first.line ≤ line + 1)
    (top : ∀ marker ∈ markers, first.line ≤ marker.line + 1) :
    governing? (first :: markers.map Marker.down) (line + 1) =
      some ((governing? markers line).elim first Marker.down) := by
  rw [governing?_eq_some_iff_isNearest]
  cases governs : governing? markers line with
  | none =>
      have below := governing?_eq_none_iff.mp governs
      refine ⟨[], markers.map Marker.down, rfl, above, fun _ member => by simp at member, ?_⟩
      intro other member otherAbove
      obtain ⟨original, originalMember, rfl⟩ := List.mem_map.mp member
      have originalAbove : original.line ≤ line := Int.le_of_add_le_add_right otherAbove
      have originalBelow := below original originalMember
      omega
  | some marker =>
      obtain ⟨before, after, rfl, nearest⟩ := governing?_eq_some_iff_isNearest.mp governs
      refine ⟨first :: before.map Marker.down, after.map Marker.down, ?_, ?_⟩
      · rw [List.map_append, List.map_cons]
        rfl
      · exact nearest.down (top marker (by simp))

theorem Declaration.group_down {declaration : Declaration} {documentId : String}
    {group : ShaderGroup} (named : ∀ documentId, first.group documentId = .ok group)
    (above : first.line ≤ declaration.line + 1)
    (top : ∀ marker ∈ markers, first.line ≤ marker.line + 1) :
    declaration.down.group (first :: markers.map Marker.down) documentId =
      (declaration.groupOr group markers documentId).mapError InvalidGroupName.down := by
  have line : declaration.down.line = declaration.line + 1 := rfl
  rw [Declaration.group, line, governing?_cons_map_down above top, Declaration.groupOr]
  cases governing? markers declaration.line with
  | none => exact named documentId
  | some marker => exact marker.group_down documentId

end

theorem Declaration.groupOr_eq_error_iff {declaration : Declaration} {markers : List Marker}
    {documentId : String} {default : ShaderGroup} {error : InvalidGroupName} :
    declaration.groupOr default markers documentId = .error error ↔
      declaration.group markers documentId = .error error := by
  rw [groupOr, group]
  cases governing? markers declaration.line with
  | none => simp
  | some marker => exact Iff.rfl

namespace Document

variable {document : Document} {name : Text}

theorem declarations_withMarker (proper : IsGroupName name) (document : Document) :
    (document.withMarker name).declarations = document.declarations.map Declaration.down := by
  have visible := proper.isBlank_eq_false
  obtain ⟨rest, stripped, lines⟩ :=
    exists_stripComments_markerComment proper.ne_nil visible document.content
  rw [declarations, withMarker, stripped]
  exact declarations_markerComment visible lines

theorem markers_withMarker (proper : IsGroupName name) (document : Document) :
    (document.withMarker name).markers =
      ⟨0, ' ' :: name⟩ :: document.markers.map Marker.down := by
  have visible := proper.isBlank_eq_false
  obtain ⟨rest, stripped, lines⟩ :=
    exists_stripComments_markerComment proper.ne_nil visible document.content
  rw [markers, withMarker, stripped]
  exact markers_markerComment proper.ne_nil visible lines

theorem group_withMarker (proper : IsGroupName name) {declaration : Declaration}
    (member : declaration ∈ document.declarations) :
    declaration.down.group (document.withMarker name).markers document.origin =
      (declaration.groupOr ⟨.custom, some name⟩ document.markers document.origin).mapError
        InvalidGroupName.down := by
  have trimmed : Text.trim (' ' :: name) = name := by
    have dropped : Text.trim (' ' :: name) = Text.trim name := rfl
    rw [dropped, Text.trim_of_visible proper.isBlank_eq_false]
  rw [markers_withMarker proper]
  apply Declaration.group_down
  · intro documentId
    rw [Marker.group_eq_ok_iff, trimmed]
    exact ⟨proper, rfl⟩
  · have line := zero_le_line_of_mem_declarations member
    exact Int.le_add_one line
  · intro marker markerMember
    exact Int.le_add_one (zero_le_line_of_mem_markers markerMember)

theorem catalog_withMarker_eq_error_iff (proper : IsGroupName name) {error : InvalidGroupName} :
    (document.withMarker name).catalog = .error error ↔
      ∃ earlier, document.catalog = .error earlier ∧ error = earlier.down := by
  rw [catalog, declarations_withMarker proper, assignGroups_eq_error_iff, firstFault_map_iff]
  simp only [catalog, assignGroups_eq_error_iff, ← firstFault_image_iff]
  apply firstFault_congr
  intro declaration member error
  have group := group_withMarker proper member
  change declaration.name ≠ [] ∧
    declaration.down.group (document.withMarker name).markers document.origin = _ ↔ _
  rw [group, mapError_eq_error_iff]
  simp only [Declaration.groupOr_eq_error_iff, and_assoc, exists_and_left]

theorem exists_groupOr_iff_groupedUnder {catalog : Catalog}
    (succeeded : document.catalog = .ok catalog) (default : ShaderGroup)
    {declaration : Declaration} (member : declaration ∈ document.declarations) (group : Text) :
    (∃ assigned, declaration.groupOr default document.markers document.origin = .ok assigned ∧
      assigned.name = group) ↔
      declaration.GroupedUnder document.markers default.name group := by
  have named := (isIdentifier_name_of_mem_declarations member).ne_nil
  obtain ⟨given, givenFound⟩ :=
    exists_assignGroups_eq_ok_iff.mp ⟨catalog, succeeded⟩ declaration member named
  cases found : declaration.groupOr default document.markers document.origin with
  | error error =>
      rw [Declaration.groupOr_eq_error_iff, givenFound] at found
      cases found
  | ok assigned =>
      rw [Declaration.groupedUnder_iff_of_groupOr document.pairwise_markers found]
      simp

theorem lists_iff_groupedUnder {catalog : Catalog} (succeeded : document.catalog = .ok catalog)
    (group function : Text) :
    catalog.Lists group function ↔
      ∃ declaration ∈ document.declarations, declaration.name = function ∧
        declaration.GroupedUnder document.markers
          (ShaderGroup.ofQualifier declaration.qualifier).name group := by
  rw [lists_assignGroups succeeded]
  apply exists_congr
  intro declaration
  apply and_congr_right
  intro member
  have named := (isIdentifier_name_of_mem_declarations member).ne_nil
  rw [and_iff_right named]
  exact and_congr_right fun _ => exists_groupOr_iff_groupedUnder succeeded _ member group

theorem lists_withMarker_iff_groupedUnder (proper : IsGroupName name)
    {catalog regrouped : Catalog} (succeeded : document.catalog = .ok catalog)
    (regroupedTo : (document.withMarker name).catalog = .ok regrouped) (group function : Text) :
    regrouped.Lists group function ↔
      ∃ declaration ∈ document.declarations, declaration.name = function ∧
        declaration.GroupedUnder document.markers name group := by
  rw [lists_assignGroups regroupedTo, declarations_withMarker proper]
  simp only [List.mem_map, exists_exists_and_eq_and]
  apply exists_congr
  intro declaration
  apply and_congr_right
  intro member
  have named := (isIdentifier_name_of_mem_declarations member).ne_nil
  have sameName : declaration.down.name = declaration.name := rfl
  have origin : (document.withMarker name).origin = document.origin := rfl
  rw [sameName, and_iff_right named, origin, group_withMarker proper member]
  simp only [mapError_eq_ok_iff]
  exact and_congr_right fun _ =>
    exists_groupOr_iff_groupedUnder succeeded ⟨.custom, some name⟩ member group

theorem exists_groupedUnder_iff (default : Declaration → Text) (function : Text) :
    (∃ group, ∃ declaration ∈ document.declarations, declaration.name = function ∧
      declaration.GroupedUnder document.markers (default declaration) group) ↔
      ∃ declaration ∈ document.declarations, declaration.name = function := by
  constructor
  · rintro ⟨group, declaration, member, same, -⟩
    exact ⟨declaration, member, same⟩
  · rintro ⟨declaration, member, same⟩
    obtain ⟨group, grouped⟩ :=
      declaration.exists_groupedUnder document.pairwise_markers (default declaration)
    exact ⟨group, declaration, member, same, grouped⟩

end Document

/-- Behind a marker with a valid name, a document fails as it does without, one line further
down; else it lists the same functions. Those that no marker of the document governs are in the
group that the marker names, instead of the ones of their qualifiers. -/
theorem withMarker_regroups_unmarked {name : Text} (proper : IsGroupName name)
    (document : Document) :
    (∀ error, (document.withMarker name).catalog = .error error ↔
      ∃ earlier, document.catalog = .error earlier ∧ error = earlier.down) ∧
    ∀ catalog, document.catalog = .ok catalog →
      ∃ regrouped, (document.withMarker name).catalog = .ok regrouped ∧
        (∀ function, (∃ group, regrouped.Lists group function) ↔
          ∃ group, catalog.Lists group function) ∧
        ∀ group function,
          (regrouped.Lists group function ↔
            ∃ declaration ∈ document.declarations, declaration.name = function ∧
              declaration.GroupedUnder document.markers name group) ∧
          (catalog.Lists group function ↔
            ∃ declaration ∈ document.declarations, declaration.name = function ∧
              declaration.GroupedUnder document.markers
                (ShaderGroup.ofQualifier declaration.qualifier).name group) := by
  refine ⟨fun _ => Document.catalog_withMarker_eq_error_iff proper, fun catalog succeeded => ?_⟩
  cases found : (document.withMarker name).catalog with
  | error error =>
      obtain ⟨earlier, failed, -⟩ := (Document.catalog_withMarker_eq_error_iff proper).mp found
      rw [succeeded] at failed
      cases failed
  | ok regrouped =>
      have regroupedLists := Document.lists_withMarker_iff_groupedUnder proper succeeded found
      have lists := Document.lists_iff_groupedUnder succeeded
      refine ⟨regrouped, rfl, fun function => ?_, fun group function => ?_⟩
      · simp only [regroupedLists, lists]
        rw [Document.exists_groupedUnder_iff fun _ => name,
          Document.exists_groupedUnder_iff fun declaration =>
            (ShaderGroup.ofQualifier declaration.qualifier).name]
      · exact ⟨regroupedLists group function, lists group function⟩

theorem withMarker_regroups_unmarked_above_marker :
    let name := "Lit".toList
    let document : Document :=
      ⟨"a.metal", "kernel void k(\n//MTLShaderGroup: Dark\nvertex float4 v(".toList⟩
    IsGroupName name ∧
      ∃ regrouped, (document.withMarker name).catalog = .ok regrouped ∧
        regrouped.Lists name "k".toList ∧ regrouped.Lists "Dark".toList "v".toList := by
  intro name document
  have proper : IsGroupName name :=
    ⟨by decide, List.all_eq_true.mp (by decide), by decide⟩
  have declared : document.declarations =
      [⟨some .kernel, "k".toList, 0⟩, ⟨some .vertex, "v".toList, 2⟩] := by
    decide +kernel
  have marked : document.markers = [⟨1, " Dark".toList⟩] := by
    decide +kernel
  obtain ⟨catalog, succeeded⟩ : ∃ catalog, document.catalog = .ok catalog :=
    exists_eq_ok_of_isOk (by decide +kernel)
  obtain ⟨regrouped, found, -, lists⟩ :=
    (withMarker_regroups_unmarked proper document).2 catalog succeeded
  rw [declared, marked] at lists
  let marker : Marker := ⟨1, " Dark".toList⟩
  have governs : marker.Governs [marker] 2 := ⟨by decide, by decide, by decide⟩
  have grouped : Declaration.GroupedUnder [marker] name ⟨some .vertex, "v".toList, 2⟩
      (Text.trim marker.groupName) := .marked governs
  have trimmed : Text.trim marker.groupName = "Dark".toList := by decide
  refine ⟨proper, regrouped, found, (lists _ _).1.mpr ?_, (lists _ _).1.mpr ?_⟩
  · exact ⟨_, List.mem_cons_self, rfl, .unmarked (by decide)⟩
  · exact ⟨_, List.mem_cons_of_mem _ List.mem_cons_self, rfl, trimmed ▸ grouped⟩

end ShaderCatalog
