import ShaderCatalog.Catalog.Basic

namespace ShaderCatalog

/-! Tables of functions that are changed in place. A table refers to the sets of its groups, and
the sets of all tables are kept together: what two tables referred to would change in both. -/

structure Store (Key : Type) where
  sets : List NameSet
  /-- The places of the sets, by table and group. -/
  tables : Key → Dict ShaderGroup Nat

namespace Store

section

variable {Key : Type}

def empty : Store Key :=
  ⟨[], fun _ => .empty⟩

def names (store : Store Key) (place : Nat) : NameSet :=
  store.sets.getD place .empty

def table (store : Store Key) (key : Key) : GroupedNames :=
  (store.tables key).mapEntries fun _ place => store.names place

def catalog? (store : Store Key) (key : Key) : Option Catalog :=
  if filled : (store.table key).IsFilled then some ⟨store.table key, filled⟩ else none

variable [DecidableEq Key]

/-- The place of a group's set, which is a new one if the table does not have the group. -/
def withGroup (store : Store Key) (key : Key) (group : ShaderGroup) : Store Key × Nat :=
  match (store.tables key).get? group with
  | some place => (store, place)
  | none =>
      ({ sets := store.sets ++ [.empty]
         tables := fun other =>
           if other = key then (store.tables key).setDefault group store.sets.length
           else store.tables other },
        store.sets.length)

def change (store : Store Key) (key : Key) (group : ShaderGroup) (f : NameSet → NameSet) :
    Store Key :=
  let found := store.withGroup key group
  { found.1 with sets := found.1.sets.modify found.2 f }

def insert (store : Store Key) (key : Key) (group : ShaderGroup) (name : Text) : Store Key :=
  store.change key group (·.insert name)

def mergeGroup (receiver : Key) (store : Store Key) (added : ShaderGroup × Nat) : Store Key :=
  store.change receiver added.1 (·.union (store.names added.2))

/-- Adds one table to another, group by group. The sets are read when their turn comes. -/
def merge (store : Store Key) (receiver added : Key) : Store Key :=
  (store.tables added).entries.foldl (mergeGroup receiver) store

end

end Store

inductive CatalogStep (Key : Type) where
  | insert (receiver : Key) (group : ShaderGroup) (function : Text)
  | merge (receiver added : Key)

namespace CatalogStep

section

variable {Key : Type}

def receiver : CatalogStep Key → Key
  | insert receiver _ _ => receiver
  | merge receiver _ => receiver

variable [DecidableEq Key]

def run (store : Store Key) : CatalogStep Key → Store Key
  | insert receiver group function => store.insert receiver group function
  | merge receiver added => store.merge receiver added

def storeAfter (steps : List (CatalogStep Key)) : Store Key :=
  steps.foldl run .empty

end

end CatalogStep

end ShaderCatalog
