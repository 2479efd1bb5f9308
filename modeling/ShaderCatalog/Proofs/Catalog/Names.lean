import ShaderCatalog.Proofs.Catalog.Gathering
import ShaderCatalog.Proofs.Source.DeclaredName

namespace ShaderCatalog

/-! The names that documents bring into a catalog, whatever the documents hold. -/

/-- Basic Latin letters that can name a nested type. -/
structure IsGroupName (name : Text) : Prop where
  ne_nil : name ≠ []
  isAlpha : ∀ c ∈ name, c.isAlpha = true
  not_reserved : name ∉ reservedTypeNames

namespace ShaderGroup

theorem ofName_eq_ok_iff {written : Text} {group : ShaderGroup} :
    ofName written = .ok group ↔
      IsGroupName (Text.trim written) ∧ group = ⟨.custom, some (Text.trim written)⟩ := by
  simp only [ofName]
  constructor
  · intro named
    split at named
    next => contradiction
    next nonempty =>
      split at named
      next => contradiction
      next lettersOnly =>
        split at named
        next => contradiction
        next free =>
          cases named
          exact ⟨⟨nonempty, invalidCharacter?_eq_none_iff.mp lettersOnly, free⟩, rfl⟩
  · rintro ⟨⟨nonempty, letters, free⟩, rfl⟩
    have lettersOnly := invalidCharacter?_eq_none_iff.mpr letters
    simp only [if_neg nonempty, lettersOnly, if_neg free]

theorem isGroupName_of_ofName {written : Text} {group : ShaderGroup}
    (named : ofName written = .ok group) : IsGroupName group.name := by
  obtain ⟨proper, rfl⟩ := ofName_eq_ok_iff.mp named
  exact proper

theorem isGroupName_ofQualifier (qualifier : Option Qualifier) :
    IsGroupName (ofQualifier qualifier).name := by
  have letters : (ofQualifier qualifier).name.all Char.isAlpha = true := by
    cases qualifier with
    | none => rfl
    | some qualifier => cases qualifier <;> rfl
  have free : reservedTypeNames.contains (ofQualifier qualifier).name = false := by
    cases qualifier with
    | none => rfl
    | some qualifier => cases qualifier <;> rfl
  constructor
  case ne_nil =>
    cases qualifier with
    | none => exact List.cons_ne_nil _ _
    | some qualifier => cases qualifier <;> exact List.cons_ne_nil _ _
  case isAlpha => exact List.all_eq_true.mp letters
  case not_reserved =>
    intro member
    rw [List.contains_iff_mem.mpr member] at free
    contradiction

end ShaderGroup

theorem Declaration.isGroupName_of_group {declaration : Declaration} {markers : List Marker}
    {documentId : String} {group : ShaderGroup}
    (assigned : declaration.group markers documentId = .ok group) :
    IsGroupName group.name := by
  unfold Declaration.group at assigned
  split at assigned
  next marker _ =>
    unfold Marker.group at assigned
    cases named : ShaderGroup.ofName marker.groupName with
    | error fault =>
        rw [named] at assigned
        cases assigned
    | ok found =>
        rw [named] at assigned
        cases assigned
        exact ShaderGroup.isGroupName_of_ofName named
  next =>
    cases assigned
    exact ShaderGroup.isGroupName_ofQualifier declaration.qualifier

namespace Document

theorem Resolves.isGroupName {document : Document} {group name : Text}
    (resolves : document.Resolves group name) : IsGroupName group := by
  obtain ⟨catalog, succeeded, listed⟩ := resolves
  obtain ⟨declaration, _, _, _, assigned, found, rfl⟩ :=
    (lists_assignGroups succeeded group name).mp listed
  exact Declaration.isGroupName_of_group found

theorem Resolves.isIdentifier {document : Document} {group name : Text}
    (resolves : document.Resolves group name) : IsIdentifier name := by
  obtain ⟨catalog, succeeded, listed⟩ := resolves
  obtain ⟨declaration, member, _, rfl, _⟩ :=
    (lists_assignGroups succeeded group name).mp listed
  exact isIdentifier_name_of_mem_declarations member

theorem exists_resolves_iff {document : Document} {catalog : Catalog}
    (succeeded : document.catalog = .ok catalog) :
    (∃ group name, document.Resolves group name) ↔ document.declarations ≠ [] := by
  constructor
  · rintro ⟨group, name, _, found, listed⟩
    obtain ⟨declaration, member, _⟩ := (lists_assignGroups found group name).mp listed
    exact List.ne_nil_of_mem member
  · intro declares
    obtain ⟨declaration, member⟩ := List.exists_mem_of_ne_nil _ declares
    have named := (isIdentifier_name_of_mem_declarations member).ne_nil
    obtain ⟨group, assigned⟩ :=
      exists_assignGroups_eq_ok_iff.mp ⟨catalog, succeeded⟩ declaration member named
    exact ⟨group.name, declaration.name, catalog, succeeded,
      (lists_assignGroups succeeded _ _).mpr
        ⟨declaration, member, named, rfl, group, assigned, rfl⟩⟩

end Document

end ShaderCatalog
