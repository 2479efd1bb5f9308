import ShaderCatalog.Document
import ShaderCatalog.Log.Record

namespace ShaderCatalog

/-! What is reported while documents are read for their functions and code is
generated from them. -/

def Declaration.record (declaration : Declaration) : Record :=
  .debug ("Collected declaration: " ++ String.ofList declaration.name ++ ", qualifier: " ++
    (declaration.qualifier.map Qualifier.keyword).getD "" ++ ", line: " ++
    toString declaration.line)

def Marker.record (marker : Marker) : Record :=
  .debug ("Found group marker at line " ++ toString marker.line ++ ": " ++
    quoted (String.ofList marker.groupName))

def extractionRecords (declarations : List Declaration) (markers : List Marker) :
    List Record :=
  declarations.map Declaration.record ++ markers.map Marker.record

def assignmentRecords (documentId : String) :
    Except InvalidGroupName Catalog → List Record
  | .ok catalog =>
      [.debug ("Resolved groups for " ++ documentId ++ ": " ++ catalog.description)]
  | .error _ => []

def Document.records (document : Document) : List Record :=
  extractionRecords document.declarations document.markers ++
    [.debug (document.origin ++ ": " ++ toString document.declarations.length ++
      " declarations, " ++ toString document.markers.length ++ " group markers")] ++
    assignmentRecords document.origin document.catalog

namespace Delivery

def isFailure (delivery : Delivery) : Bool :=
  match delivery.catalog with
  | .ok _ => false
  | .error _ => true

def records : Delivery → List Record
  | loaded document => document.records
  | skipped error =>
      [.warning ("Skipping unreadable shader source " ++ error.path ++ ": " ++
        error.fault.reason)]
  | failed _ => []

/-- The deliveries up to and with the first that fails. -/
def processed : List Delivery → List Delivery
  | [] => []
  | delivery :: rest =>
      delivery :: if delivery.isFailure then [] else processed rest

end Delivery

def Catalog.record (catalog : Catalog) (documentCount : Nat) : Record :=
  if catalog.isEmpty then
    .warning ("No shader functions found in " ++ toString documentCount ++ " document(s)")
  else
    .info ("Found " ++ toString catalog.functionCount ++ " shader function(s) in " ++
      toString catalog.size ++ " group(s) across " ++ toString documentCount ++
      " document(s)")

def generationRecords (deliveries : List Delivery) : List Record :=
  (Delivery.processed deliveries).flatMap Delivery.records ++
    match Delivery.gather deliveries with
    | .ok catalog => [catalog.record (Delivery.documents deliveries).length]
    | .error _ => []

end ShaderCatalog
