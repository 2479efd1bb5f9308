import ShaderCatalog.Source.Declaration
import ShaderCatalog.Text.Quoted

namespace ShaderCatalog

/-! Shader groups. A group comes from a qualifier or is named by a marker; groups
of one name are one group. -/

inductive GroupKind where
  | vertex
  | fragment
  | compute
  | unknown
  | custom
deriving DecidableEq

structure ShaderGroup where
  kind : GroupKind
  customName : Option Text := none
deriving DecidableEq

inductive NameFault where
  | empty
  | unexpected (character : Text)
  | reserved (name : Text)
  /-- A fault in the words of the caller that found it. -/
  | stated (character : Option Text) (reason : String)
deriving DecidableEq

namespace NameFault

def character? : NameFault → Option Text
  | unexpected character => some character
  | stated character _ => character
  | _ => none

def reason : NameFault → String
  | empty => "group name must not be empty"
  | unexpected character =>
      "unexpected character " ++ quoted (String.ofList character)
  | reserved name => quoted (String.ofList name) ++ " cannot name a nested Swift type"
  | stated _ reason => reason

end NameFault

/-- Names that no type nested in another can have. -/
def reservedTypeNames : List Text :=
  ["Type".toList, "Protocol".toList]

def invalidCharacter? (name : Text) : Option Char :=
  name.find? (!·.isAlpha)

theorem invalidCharacter?_eq_none_iff {name : Text} :
    invalidCharacter? name = none ↔ ∀ c ∈ name, c.isAlpha = true := by
  simp [invalidCharacter?]

theorem invalidCharacter?_eq_some_iff {name : Text} {c : Char} :
    invalidCharacter? name = some c ↔
      c.isAlpha = false ∧ ∃ letters rest, name = letters ++ c :: rest ∧
        ∀ letter ∈ letters, letter.isAlpha = true := by
  simp [invalidCharacter?, List.find?_eq_some_iff_append]

namespace ShaderGroup

/-- The name that the group is known and compared by. -/
def name (group : ShaderGroup) : Text :=
  match group.kind with
  | .vertex => "MTLVertexShader".toList
  | .fragment => "MTLFragmentShader".toList
  | .compute => "MTLComputeShader".toList
  | .unknown => "MTLUnknownShader".toList
  | .custom => group.customName.getD []

/-- Groups are told apart by their names alone. -/
instance : BEq ShaderGroup :=
  ⟨fun first second => first.name == second.name⟩

instance : Hashable ShaderGroup :=
  ⟨fun group => hash (String.ofList group.name)⟩

@[simp] theorem beq_iff_name_eq {first second : ShaderGroup} :
    (first == second) = true ↔ first.name = second.name := by
  change (first.name == second.name) = true ↔ _
  exact beq_iff_eq

instance : EquivBEq ShaderGroup where
  rfl := beq_iff_name_eq.mpr rfl
  symm same := beq_iff_name_eq.mpr (beq_iff_name_eq.mp same).symm
  trans first second :=
    beq_iff_name_eq.mpr ((beq_iff_name_eq.mp first).trans (beq_iff_name_eq.mp second))

instance : LawfulHashable ShaderGroup where
  hash_eq _ _ same := congrArg (fun name => hash (String.ofList name)) (beq_iff_name_eq.mp same)

def ofQualifier : Option Qualifier → ShaderGroup
  | some .vertex => ⟨.vertex, none⟩
  | some .fragment => ⟨.fragment, none⟩
  | some .kernel => ⟨.compute, none⟩
  | some .compute => ⟨.compute, none⟩
  | none => ⟨.unknown, none⟩

/-- The group that a marker names, white space around the name aside. -/
def ofName (written : Text) : Except NameFault ShaderGroup :=
  let name := Text.trim written
  if name = [] then
    .error .empty
  else
    match invalidCharacter? name with
    | some c => .error (.unexpected [c])
    | none =>
        if name ∈ reservedTypeNames then
          .error (.reserved name)
        else
          .ok ⟨.custom, some name⟩

def sort (groups : List ShaderGroup) : List ShaderGroup :=
  groups.mergeSort fun first second => !decide (second.name < first.name)

end ShaderGroup

end ShaderCatalog
