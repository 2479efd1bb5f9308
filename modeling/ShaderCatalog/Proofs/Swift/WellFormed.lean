import ShaderCatalog.Proofs.Catalog.Merging
import ShaderCatalog.Proofs.Catalog.Names
import ShaderCatalog.Proofs.Swift.CaseLines

namespace ShaderCatalog

/-! Code generated from documents is well-formed whatever the documents hold: names
that could close a string, end a line or open a block never get into a catalog. -/

/-- The form of the line of a case: the name, as it is or in backticks, and again as
the raw value. -/
def IsCaseOf (name line : Text) : Prop :=
  ∃ identifier, (identifier = name ∨ identifier = '\x60' :: name ++ ['\x60']) ∧
    line = "        case ".toList ++ identifier ++ " = \"".toList ++ name ++ "\"".toList

theorem isCaseOf_caseLine (name : Text) : IsCaseOf name (caseLine name) := by
  refine ⟨swiftIdentifier name, ?_, rfl⟩
  unfold swiftIdentifier
  split
  · exact Or.inr rfl
  · exact Or.inl rfl

theorem IsCaseOf.isCaseLine {name line : Text} (isCase : IsCaseOf name line) :
    isCaseLine line = true := by
  obtain ⟨identifier, _, rfl⟩ := isCase
  rw [ShaderCatalog.isCaseLine, List.isPrefixOf_iff_prefix]
  simp only [List.append_assoc]
  exact List.prefix_append _ _

namespace Catalog

theorem size_eq_length_sections (catalog : Catalog) :
    catalog.size = catalog.sections.length := by
  rw [← length_groups, sections, List.length_map]

theorem mem_flatMap_sections {catalog : Catalog} {name : Text} :
    name ∈ catalog.sections.flatMap (·.2) ↔ ∃ group, catalog.Lists group name := by
  simp only [List.mem_flatMap, Prod.exists]
  exact exists_congr fun group => exists_mem_sections_iff

theorem exists_lines_generate {catalog : Catalog} {module : Text}
    (moduleFree : '\n' ∉ module) (nonempty : catalog.sections ≠ [])
    (namesFree : ∀ group name, catalog.Lists group name → '\n' ∉ group ∧ '\n' ∉ name) :
    ∃ lines : List Text, generate catalog module = Text.unlines lines ∧
      (∀ line ∈ lines, '\n' ∉ line) ∧
      lines.length = 5 + 9 * catalog.size + catalog.functionCount ∧
      lines.countP isCaseLine = catalog.functionCount ∧
      ∀ line ∈ lines, isCaseLine line = true ↔
        ∃ group name, catalog.Lists group name ∧ IsCaseOf name line := by
  refine ⟨codeLines module catalog.sections, ?_, ?_, ?_, ?_, ?_⟩
  · rw [generate_eq, codeOf, if_neg nonempty]
  · apply isControl_not_mem_codeLines (by decide) moduleFree
    intro shown member
    obtain ⟨name, listed⟩ := mem_groupNames.mp (fst_mem_groupNames member)
    refine ⟨(namesFree _ name listed).1, fun function functionMember => ?_⟩
    exact (namesFree _ function ((mem_snd_iff_lists member).mp functionMember)).2
  · rw [length_codeLines module nonempty, size_eq_length_sections]
    rfl
  · rw [List.countP_eq_length_filter, filter_isCaseLine_codeLines, List.length_map,
      functionCount]
  · intro line member
    constructor
    · intro isCase
      have inCases : line ∈ (codeLines module catalog.sections).filter isCaseLine :=
        List.mem_filter.mpr ⟨member, isCase⟩
      rw [filter_isCaseLine_codeLines] at inCases
      obtain ⟨name, nameMember, rfl⟩ := List.mem_map.mp inCases
      obtain ⟨group, listed⟩ := mem_flatMap_sections.mp nameMember
      exact ⟨group, name, listed, isCaseOf_caseLine name⟩
    · rintro ⟨_, _, _, isCase⟩
      exact isCase.isCaseLine

end Catalog

theorem codeOf_eq_emptyCode_iff {module : Text} {sections : List (Text × List Text)} :
    codeOf module sections = emptyCode ↔ sections = [] := by
  unfold codeOf
  split
  next none => exact ⟨fun _ => none, fun _ => rfl⟩
  next shown =>
    refine ⟨fun same => ?_, fun none => absurd none shown⟩
    -- Both texts are comments; they part at the first letter of their words.
    have generated : (Text.unlines (codeLines module sections))[3]? = some 'G' := rfl
    have words : emptyCode[3]? = some 'N' := rfl
    rw [same, words] at generated
    contradiction

/-- Whatever the documents hold, only proper names get into their catalog, and the code
for them is the words for having no functions or is made of lines that are counted by
the groups and functions of the catalog. -/
theorem generateFrom_loaded_wellFormed {documents : List Document} {module code : Text}
    (moduleFree : '\n' ∉ module)
    (succeeded : generateFrom (documents.map .loaded) module = .ok code) :
    ∃ catalog, Delivery.gather (documents.map .loaded) = .ok catalog ∧
      (∀ group ∈ catalog.groups, IsGroupName group.name ∧
        catalog.functions group ≠ [] ∧
        ∀ name ∈ catalog.functions group, IsIdentifier name) ∧
      (code = emptyCode ↔ ∀ document ∈ documents, document.declarations = []) ∧
      (code ≠ emptyCode → ∃ lines : List Text, code = Text.unlines lines ∧
        (∀ line ∈ lines, '\n' ∉ line) ∧
        lines.length = 5 + 9 * catalog.groups.length + catalog.functionCount ∧
        lines.countP isCaseLine = catalog.functionCount ∧
        ∀ line ∈ lines, isCaseLine line = true ↔
          ∃ group name, catalog.Lists group name ∧ IsCaseOf name line) := by
  cases gathered : Delivery.gather (documents.map .loaded) with
  | error failure =>
      rw [generateFrom, gathered] at succeeded
      cases succeeded
  | ok catalog =>
      rw [generateFrom, gathered] at succeeded
      cases succeeded
      have lists := Delivery.lists_gather_loaded gathered
      have succeeds := (Delivery.exists_gather_loaded_eq_ok_iff documents).mp ⟨catalog, gathered⟩
      have proper (group name : Text) (listed : catalog.Lists group name) :
          IsGroupName group ∧ IsIdentifier name := by
        obtain ⟨document, _, resolves⟩ := (lists group name).mp listed
        exact ⟨resolves.isGroupName, resolves.isIdentifier⟩
      have empty_iff : generate catalog module = emptyCode ↔ catalog.sections = [] := by
        rw [generate_eq, codeOf_eq_emptyCode_iff]
      refine ⟨catalog, rfl, ?_, ?_, fun nonempty => ?_⟩
      · intro group member
        have named : group.name ∈ catalog.groupNames := List.mem_map_of_mem member
        obtain ⟨function, listed⟩ := Catalog.mem_groupNames.mp named
        exact ⟨(proper _ _ listed).1, Catalog.functions_ne_nil_iff.mpr named,
          fun name nameMember => (proper _ name (Catalog.mem_functions.mp nameMember)).2⟩
      · rw [empty_iff, ← Catalog.isEmpty_iff_sections_eq_nil, Catalog.isEmpty_iff]
        simp only [lists]
        constructor
        · intro noPairs document member
          obtain ⟨found, foundEq⟩ := succeeds document member
          by_contra declares
          obtain ⟨group, name, resolves⟩ :=
            (Document.exists_resolves_iff foundEq).mpr declares
          exact noPairs group name ⟨document, member, resolves⟩
        · rintro noDeclarations group name ⟨document, member, resolves⟩
          obtain ⟨found, foundEq⟩ := succeeds document member
          exact (Document.exists_resolves_iff foundEq).mp ⟨group, name, resolves⟩
            (noDeclarations document member)
      · rw [catalog.length_groups]
        apply Catalog.exists_lines_generate moduleFree (mt empty_iff.mpr nonempty)
        intro group name listed
        obtain ⟨groupName, identifier⟩ := proper group name listed
        refine ⟨fun newline => ?_, identifier.not_mem (by decide)⟩
        have letter := groupName.isAlpha _ newline
        contradiction

theorem generateFrom_loaded_wellFormed_repeat :
    ∃ code, '\n' ∉ "App".toList ∧
      generateFrom
          ([(⟨"a.metal", "// \"\n//MTLShaderGroup: Light\nvertex float4 repeat(int i)".toList⟩ :
            Document)].map .loaded)
          "App".toList = .ok code ∧
      ∃ lines : List Text, code = Text.unlines lines ∧ lines.length = 15 ∧
        lines.countP isCaseLine = 1 := by
  let documents : List Document :=
    [⟨"a.metal", "// \"\n//MTLShaderGroup: Light\nvertex float4 repeat(int i)".toList⟩]
  obtain ⟨catalog, gathered, counted⟩ : ∃ catalog,
      Delivery.gather (documents.map .loaded) = .ok catalog ∧
        (catalog.isEmpty, catalog.groups.length, catalog.functionCount) = (false, 1, 1) :=
    exists_eq_ok_of_toOption (by decide +kernel)
  obtain ⟨someGroup, oneGroup, oneFunction⟩ := by simpa only [Prod.mk.injEq] using counted
  have moduleFree : '\n' ∉ "App".toList := by decide
  have succeeded := generateFrom_of_gather gathered "App".toList
  obtain ⟨found, sameGathered, _, _, shown⟩ :=
    generateFrom_loaded_wellFormed moduleFree succeeded
  rw [gathered] at sameGathered
  cases sameGathered
  have nonempty : generate catalog "App".toList ≠ emptyCode := by
    rw [generate_eq, Ne, codeOf_eq_emptyCode_iff, ← Catalog.isEmpty_iff_sections_eq_nil,
      someGroup]
    exact Bool.false_ne_true
  obtain ⟨lines, codeEq, _, count, cases, _⟩ := shown nonempty
  rw [oneGroup, oneFunction] at count
  rw [oneFunction] at cases
  exact ⟨_, moduleFree, succeeded, lines, codeEq, count, cases⟩

end ShaderCatalog
