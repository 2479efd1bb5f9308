import ShaderCatalog.Catalog.Basic
import ShaderCatalog.Source.Marker

namespace ShaderCatalog

/-! The group of a declaration: the one that the nearest marker at or above it
names, or the one of its qualifier if no marker stands above it. -/

structure InvalidGroupName where
  documentId : String
  line : Int
  groupName : Text
  fault : NameFault
deriving DecidableEq

def InvalidGroupName.message (error : InvalidGroupName) : String :=
  "Invalid shader group name " ++ quoted (String.ofList error.groupName) ++ " in " ++
    error.documentId ++ " at line " ++ toString (error.line + 1) ++ ": " ++
    error.fault.reason

def unknownDocument : String :=
  "<unknown>"

namespace Marker

def group (marker : Marker) (documentId : String) : Except InvalidGroupName ShaderGroup :=
  (ShaderGroup.ofName marker.groupName).mapError fun fault =>
    ⟨documentId, marker.line, marker.groupName, fault⟩

def sorted (markers : List Marker) : List Marker :=
  markers.mergeSort fun first second => first.line ≤ second.line

end Marker

/-- The catalog of the declarations so far, and the groups that markers were found to name,
by the places of the markers. -/
structure Assignment where
  catalog : Catalog
  resolved : List (Nat × ShaderGroup)

namespace Assignment

def last? (ordered : List (Marker × Nat)) (line : Int) : Option (Marker × Nat) :=
  (ordered.takeWhile (·.1.line ≤ line)).getLast?

/-- The group of the marker at a place, and all that is resolved then. A name is looked at
when its group is first asked for. -/
def groupAt (marker : Marker) (place : Nat) (documentId : String)
    (resolved : List (Nat × ShaderGroup)) :
    Except InvalidGroupName (ShaderGroup × List (Nat × ShaderGroup)) :=
  match resolved.lookup place with
  | some group => .ok (group, resolved)
  | none => (marker.group documentId).map fun group => (group, (place, group) :: resolved)

def groupOf (ordered : List (Marker × Nat)) (documentId : String) (declaration : Declaration)
    (resolved : List (Nat × ShaderGroup)) :
    Except InvalidGroupName (ShaderGroup × List (Nat × ShaderGroup)) :=
  match last? ordered declaration.line with
  | some (marker, place) => groupAt marker place documentId resolved
  | none => .ok (ShaderGroup.ofQualifier declaration.qualifier, resolved)

def add (ordered : List (Marker × Nat)) (documentId : String) (assignment : Assignment)
    (declaration : Declaration) : Except InvalidGroupName Assignment :=
  (groupOf ordered documentId declaration assignment.resolved).map fun found =>
    ⟨assignment.catalog.insert found.1 declaration.name, found.2⟩

end Assignment

/-- The catalog of the declarations that have a name. It fails with the first
declaration whose marker names no valid group. -/
def assignGroups (declarations : List Declaration) (markers : List Marker)
    (documentId : String) : Except InvalidGroupName Catalog :=
  let ordered := (Marker.sorted markers).zipIdx
  let named := declarations.filter fun declaration => !declaration.name.isEmpty
  (named.foldlM (Assignment.add ordered documentId) ⟨∅, []⟩).map (·.catalog)

end ShaderCatalog
