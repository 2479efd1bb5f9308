import ShaderCatalog.Files.Tree
import ShaderCatalog.Order

namespace ShaderCatalog

/-! The differences between two trees. -/

structure Change where
  place : Location
  entry : Option Entry
deriving DecidableEq

/-- The places where `after` differs from `before`, without order. -/
def changes (before after : FileTree) : List Change :=
  let places := ((before.entries ++ after.entries).map (·.1)).eraseDups
  (places.filter fun place => before.lookup place ≠ after.lookup place).map fun place =>
    ⟨place, after.lookup place⟩

end ShaderCatalog
