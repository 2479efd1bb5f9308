import ShaderCatalog.Catalog.Basic
import ShaderCatalog.Swift.Identifier
import ShaderCatalog.Swift.Listing

namespace ShaderCatalog

/-! The Swift code of a catalog: a container enum with one nested enum per group,
and for each of these an extension of the shader library that makes the function
of a case. -/

def containerName (module : Text) : Text :=
  module ++ "Shaders".toList

def emptyCode : Text :=
  "// No shaders found.\n".toList

namespace Listing

def addCase (listing : Listing) (function : Text) : Listing :=
  listing.addLine
    ("case ".toList ++ swiftIdentifier function ++ " = \"".toList ++ function ++
      "\"".toList)

def addEnum (listing : Listing) (shown : Text × List Text) : Listing :=
  listing.block
    ("public enum ".toList ++ swiftIdentifier shown.1 ++
      ": String, CaseIterable".toList)
    fun listing => shown.2.foldl addCase listing

def addEnums (listing : Listing) : List (Text × List Text) → Listing
  | [] => listing
  | first :: others =>
      others.foldl (fun listing shown => listing.addBlank.addEnum shown)
        (listing.addEnum first)

def addAccessor (container : Text) (listing : Listing) (group : Text) : Listing :=
  listing.block "extension MTLLibrary".toList fun listing =>
    listing.block
      ("public func makeFunction(_ shader: ".toList ++ container ++ ".".toList ++
        swiftIdentifier group ++ ") -> MTLFunction?".toList)
      fun listing => listing.addLine "makeFunction(name: shader.rawValue)".toList

end Listing

def enumListing (module : Text) (sections : List (Text × List Text)) : Listing :=
  let container := containerName module
  let header :=
    ((Listing.empty.addLine "// Generated by ShaderEnumGenerator".toList).addBlank.addLine
      "import Metal".toList).addBlank
  let enums := header.block ("public enum ".toList ++ container) fun listing =>
    listing.addEnums sections
  sections.foldl
    (fun listing shown => Listing.addAccessor container listing.addBlank shown.1) enums

def generate (catalog : Catalog) (module : Text) : Text :=
  if catalog.isEmpty then
    emptyCode
  else
    (enumListing module catalog.sections).text

end ShaderCatalog
