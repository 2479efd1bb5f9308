import ShaderCatalog.Source.Piece

namespace ShaderCatalog

/-! Group markers: lines of comment-free source that hold nothing but a marker
comment. -/

structure Marker where
  line : Int
  /-- The name as written, everything that follows the marker's words. -/
  groupName : Text
deriving DecidableEq

namespace Marker

def groupName? (line : Text) : Option Text :=
  match Text.trim line with
  | '/' :: '/' :: body =>
      let words := Text.trimStart body
      if markerPrefix.isPrefixOf words then
        some (words.drop markerPrefix.length)
      else
        none
  | _ => none

def ofLine? (line : Text) (index : Nat) : Option Marker :=
  (groupName? line).map fun name => ⟨index, name⟩

end Marker

def markers (text : Text) : List Marker :=
  (Text.splitLines text).zipIdx.filterMap fun entry => Marker.ofLine? entry.1 entry.2

end ShaderCatalog
