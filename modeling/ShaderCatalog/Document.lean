import ShaderCatalog.Failure
import ShaderCatalog.Source.Stripped
import ShaderCatalog.Swift.Enums

namespace ShaderCatalog

/-! Source documents, and the code that is generated from a series of them. -/

structure Document where
  origin : String
  content : Text
deriving DecidableEq

namespace Document

def declarations (document : Document) : List Declaration :=
  ShaderCatalog.declarations (stripComments document.content)

def markers (document : Document) : List Marker :=
  ShaderCatalog.markers (stripComments document.content)

def catalog (document : Document) : Except InvalidGroupName Catalog :=
  assignGroups document.declarations document.markers document.origin

end Document

inductive Delivery where
  | loaded (document : Document)
  | skipped (error : UnreadableSource)
  | failed (failure : Failure)
deriving DecidableEq

namespace Delivery

/-- The catalog of one delivery; a skipped source adds nothing. -/
def catalog : Delivery → Except Failure Catalog
  | loaded document => document.catalog.mapError .invalidGroupName
  | skipped _ => .ok ∅
  | failed failure => .error failure

def documents : List Delivery → List Document
  | [] => []
  | loaded document :: rest => document :: documents rest
  | skipped _ :: rest => documents rest
  | failed _ :: _ => []

def failure? : List Delivery → Option Failure
  | [] => none
  | failed failure :: _ => some failure
  | _ :: rest => failure? rest

/-- The union of the catalogs of all deliveries, or the first failure. -/
def gather (deliveries : List Delivery) : Except Failure Catalog :=
  deliveries.foldlM (fun catalog delivery => delivery.catalog.map catalog.merge) ∅

end Delivery

def generateFrom (deliveries : List Delivery) (module : Text) : Except Failure Text :=
  (Delivery.gather deliveries).map fun catalog => generate catalog module

end ShaderCatalog
