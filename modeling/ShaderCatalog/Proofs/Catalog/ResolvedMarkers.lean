import ShaderCatalog.Catalog.Assignment
import ShaderCatalog.Proofs.Except

namespace ShaderCatalog

/-! Groups are assigned in one pass over the declarations, in which the groups of markers
that were looked at before are known by the places of these markers. This only saves work:
every declaration gets the group that it gets by itself. -/

/-- The last of the markers at or above a line, after sorting them by their lines. -/
def governing? (markers : List Marker) (line : Int) : Option Marker :=
  ((Marker.sorted markers).takeWhile (·.line ≤ line)).getLast?

def Declaration.group (declaration : Declaration) (markers : List Marker)
    (documentId : String) : Except InvalidGroupName ShaderGroup :=
  match governing? markers declaration.line with
  | some marker => marker.group documentId
  | none => .ok (ShaderGroup.ofQualifier declaration.qualifier)

namespace Assignment

section

variable {markers : List Marker} {line : Int}

theorem map_fst_last? :
    (last? (Marker.sorted markers).zipIdx line).map Prod.fst = governing? markers line := by
  have taken :
      ((Marker.sorted markers).zipIdx.takeWhile (·.1.line ≤ line)).map Prod.fst =
        (Marker.sorted markers).takeWhile (·.line ≤ line) := by
    calc
      _ = ((Marker.sorted markers).zipIdx.map Prod.fst).takeWhile (·.line ≤ line) :=
        List.takeWhile_map.symm
      _ = _ := by rw [List.zipIdx_map_fst]
  rw [last?, governing?, ← List.getLast?_map, taken]

theorem getElem?_of_last? {marker : Marker} {place : Nat}
    (last : last? (Marker.sorted markers).zipIdx line = some (marker, place)) :
    (Marker.sorted markers)[place]? = some marker := by
  have member := List.takeWhile_subset _ (List.mem_of_getLast? last)
  exact List.mk_mem_zipIdx_iff_getElem?.mp member

end

/-- Whether the resolved groups are the ones that the markers at their places name. -/
def IsSound (ordered : List Marker) (documentId : String)
    (resolved : List (Nat × ShaderGroup)) : Prop :=
  ∀ place group, resolved.lookup place = some group →
    ∀ marker, ordered[place]? = some marker → marker.group documentId = .ok group

namespace IsSound

section

variable {ordered : List Marker} {documentId : String} {resolved : List (Nat × ShaderGroup)}

theorem nil : IsSound ordered documentId [] :=
  fun _ _ found => by simp at found

theorem cons {marker : Marker} {place : Nat} {group : ShaderGroup}
    (sound : IsSound ordered documentId resolved) (atPlace : ordered[place]? = some marker)
    (named : marker.group documentId = .ok group) :
    IsSound ordered documentId ((place, group) :: resolved) := by
  intro other found lookedUp candidate atOther
  rw [List.lookup_cons] at lookedUp
  split at lookedUp
  next same =>
    cases lookedUp
    rw [eq_of_beq same, atPlace] at atOther
    cases atOther
    exact named
  next => exact sound other found lookedUp candidate atOther

variable {marker : Marker} {place : Nat}

theorem map_fst_groupAt (sound : IsSound ordered documentId resolved)
    (atPlace : ordered[place]? = some marker) :
    (groupAt marker place documentId resolved).map Prod.fst = marker.group documentId := by
  unfold groupAt
  cases lookedUp : resolved.lookup place with
  | some group => exact (sound place group lookedUp marker atPlace).symm
  | none => cases marker.group documentId <;> rfl

theorem of_groupAt (sound : IsSound ordered documentId resolved)
    (atPlace : ordered[place]? = some marker)
    {result : ShaderGroup × List (Nat × ShaderGroup)}
    (found : groupAt marker place documentId resolved = .ok result) :
    IsSound ordered documentId result.2 := by
  unfold groupAt at found
  cases lookedUp : resolved.lookup place with
  | some group =>
      rw [lookedUp] at found
      cases found
      exact sound
  | none =>
      rw [lookedUp] at found
      obtain ⟨group, named, rfl⟩ := map_eq_ok_iff.mp found
      exact sound.cons atPlace named

end

variable {markers : List Marker} {documentId : String} {declaration : Declaration}

theorem map_fst_groupOf {resolved : List (Nat × ShaderGroup)}
    (sound : IsSound (Marker.sorted markers) documentId resolved) :
    (groupOf (Marker.sorted markers).zipIdx documentId declaration resolved).map Prod.fst =
      declaration.group markers documentId := by
  rw [groupOf, Declaration.group, ← map_fst_last?]
  cases last : last? (Marker.sorted markers).zipIdx declaration.line with
  | none => rfl
  | some found => exact sound.map_fst_groupAt (getElem?_of_last? last)

theorem of_groupOf {resolved : List (Nat × ShaderGroup)}
    (sound : IsSound (Marker.sorted markers) documentId resolved)
    {result : ShaderGroup × List (Nat × ShaderGroup)}
    (found : groupOf (Marker.sorted markers).zipIdx documentId declaration resolved =
      .ok result) :
    IsSound (Marker.sorted markers) documentId result.2 := by
  unfold groupOf at found
  cases last : last? (Marker.sorted markers).zipIdx declaration.line with
  | none =>
      rw [last] at found
      cases found
      exact sound
  | some placed =>
      rw [last] at found
      exact sound.of_groupAt (getElem?_of_last? last) found

variable {assignment : Assignment}

theorem map_catalog_add (sound : IsSound (Marker.sorted markers) documentId assignment.resolved) :
    (add (Marker.sorted markers).zipIdx documentId assignment declaration).map (·.catalog) =
      (declaration.group markers documentId).map fun group =>
        assignment.catalog.insert group declaration.name := by
  rw [← sound.map_fst_groupOf, add]
  cases groupOf (Marker.sorted markers).zipIdx documentId declaration assignment.resolved <;> rfl

theorem of_add (sound : IsSound (Marker.sorted markers) documentId assignment.resolved)
    {next : Assignment}
    (added : add (Marker.sorted markers).zipIdx documentId assignment declaration = .ok next) :
    IsSound (Marker.sorted markers) documentId next.resolved := by
  obtain ⟨found, assigned, rfl⟩ := map_eq_ok_iff.mp added
  exact sound.of_groupOf assigned

end IsSound

end Assignment

theorem assignGroups_eq_foldlM (declarations : List Declaration) (markers : List Marker)
    (documentId : String) :
    assignGroups declarations markers documentId =
      (declarations.filter fun declaration => !declaration.name.isEmpty).foldlM
        (fun catalog declaration =>
          (declaration.group markers documentId).map fun group =>
            catalog.insert group declaration.name)
        ∅ :=
  map_foldlM
    (fun assignment =>
      Assignment.IsSound (Marker.sorted markers) documentId assignment.resolved)
    (fun _ sound _ => sound.map_catalog_add) (fun _ sound _ _ => sound.of_add) .nil

end ShaderCatalog
