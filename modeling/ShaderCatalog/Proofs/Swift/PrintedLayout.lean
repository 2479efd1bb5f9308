import ShaderCatalog.Proofs.Swift.ReadBack

namespace ShaderCatalog

/-! The layout of generated code, from the catalog alone: which lines there are, in which
order, and how the names in them are spelled. Every enum has its accessor, which takes the
enum by the name that it is declared with. -/

theorem enumsLines_eq_intercalate (sections : List (Text × List Text)) :
    enumsLines sections = [[]].intercalate (sections.map enumLines) := by
  cases sections with
  | nil => rfl
  | cons first others =>
      induction others generalizing first with
      | nil => simp [enumsLines]
      | cons second others induction =>
          have rest := induction second
          rw [enumsLines, List.map_cons] at rest
          rw [enumsLines, List.flatMap_cons, List.cons_append, rest, List.map_cons,
            List.map_cons, List.intercalate_cons_cons]
          simp

section

variable {name : Text}

theorem isReserved_iff : isReserved name = true ↔ String.ofList name ∈ reservedWords := by
  rw [isReserved, List.any_eq_true]
  constructor
  · rintro ⟨word, member, same⟩
    rw [← beq_iff_eq.mp same, String.ofList_toList]
    exact member
  · intro member
    exact ⟨_, member, by rw [String.toList_ofList, beq_self_eq_true]⟩

theorem swiftIdentifier_eq_iff :
    (swiftIdentifier name = '\x60' :: name ++ ['\x60'] ↔ String.ofList name ∈ reservedWords) ∧
      (swiftIdentifier name = name ↔ String.ofList name ∉ reservedWords) := by
  have longer : '\x60' :: name ++ ['\x60'] ≠ name := by
    intro same
    have lengths := congrArg List.length same
    rw [List.length_append, List.length_cons, List.length_singleton] at lengths
    omega
  rw [← isReserved_iff]
  by_cases reserved : isReserved name = true
  · rw [swiftIdentifier, if_pos reserved]
    exact ⟨iff_of_true rfl reserved, iff_of_false longer (not_not_intro reserved)⟩
  · rw [swiftIdentifier, if_neg reserved]
    exact ⟨iff_of_false longer.symm reserved, iff_of_true rfl reserved⟩

end

def functionStart : Text :=
  "    public func makeFunction(_ shader: ".toList

def isFunctionLine (line : Text) : Bool :=
  functionStart.isPrefixOf line

def functionLine (path : Text) : Text :=
  functionStart ++ path ++ ") -> MTLFunction? \x7b".toList

theorem isFunctionLine_functionLine (path : Text) : isFunctionLine (functionLine path) = true := by
  rw [isFunctionLine, functionLine, List.isPrefixOf_iff_prefix, List.append_assoc]
  exact List.prefix_append _ _

theorem accessorLines_eq (container group : Text) :
    accessorLines container group =
      [[], "extension MTLLibrary \x7b".toList,
        functionLine (container ++ ".".toList ++ swiftIdentifier group),
        "        makeFunction(name: shader.rawValue)".toList,
        "    \x7d".toList,
        "\x7d".toList] := by
  simp only [functionLine, ← List.append_assoc]
  rfl

section

variable (module : Text) (sections : List (Text × List Text))

theorem filter_isEnumLine_codeLines :
    (codeLines module sections).filter isEnumLine =
      sections.map fun shown => enumHeader shown.1 := by
  have inEnum (shown : Text × List Text) :
      (enumLines shown).filter isEnumLine = [enumHeader shown.1] := by
    have noCase : (shown.2.map caseLine).filter isEnumLine = [] := by
      apply List.filter_eq_nil_iff.mpr
      intro line member
      obtain ⟨function, -, rfl⟩ := List.mem_map.mp member
      exact Bool.false_ne_true
    have enum := enumLines_append shown []
    rw [List.append_nil] at enum
    rw [enum, List.filter_cons_of_pos (isEnumLine_enumHeader shown.1), List.filter_append, noCase]
    rfl
  have inAccessor (container group : Text) :
      (accessorLines container group).filter isEnumLine = [] := rfl
  have start : ∀ line ∈ headerLines module, isEnumLine line = false := by
    simp only [headerLines, List.forall_mem_cons, List.not_mem_nil, false_implies, implies_true,
      and_true]
    exact ⟨rfl, rfl, rfl, rfl, rfl⟩
  rw [filter_codeLines start (by decide)]
  simp only [inEnum, inAccessor, List.map_eq_flatMap]
  simp

theorem filter_isFunctionLine_codeLines :
    (codeLines module sections).filter isFunctionLine =
      sections.map fun shown =>
        functionLine (containerName module ++ ".".toList ++ swiftIdentifier shown.1) := by
  have inEnum (shown : Text × List Text) : (enumLines shown).filter isFunctionLine = [] := by
    apply List.filter_eq_nil_iff.mpr
    intro line member
    simp only [enumLines, List.cons_append, List.mem_cons, List.mem_append,
      List.not_mem_nil, or_false] at member
    rcases member with rfl | inCases | rfl
    · exact Bool.false_ne_true
    · obtain ⟨function, -, rfl⟩ := List.mem_map.mp inCases
      exact Bool.false_ne_true
    · exact Bool.false_ne_true
  have inAccessor (container group : Text) :
      (accessorLines container group).filter isFunctionLine =
        [functionLine (container ++ ".".toList ++ swiftIdentifier group)] := by
    rw [accessorLines_eq]
    exact List.filter_cons_of_pos (isFunctionLine_functionLine _)
  have start : ∀ line ∈ headerLines module, isFunctionLine line = false := by
    simp only [headerLines, List.forall_mem_cons, List.not_mem_nil, false_implies, implies_true,
      and_true]
    exact ⟨rfl, rfl, rfl, rfl, rfl⟩
  rw [filter_codeLines start (by decide)]
  simp only [inEnum, inAccessor, List.map_eq_flatMap]
  simp

end

/-- The code of a catalog with functions is its groups in the order of their names, each with
its functions in the order of theirs: first the enums, with a blank line between each two, then
the accessors. The groups are spelled alike in both. -/
theorem generate_eq_unlines {catalog : Catalog} (nonempty : catalog.isEmpty = false)
    (module : Text) :
    let sections := catalog.groups.map fun group => (group.name, catalog.functions group)
    let spellings := sections.map fun shown => swiftIdentifier shown.1
    let lines := headerLines module ++ [[]].intercalate (sections.map enumLines) ++
      ["\x7d".toList] ++ sections.flatMap fun shown => accessorLines (containerName module) shown.1
    generate catalog module = Text.unlines lines ∧
      sections ≠ [] ∧
      (sections.map (·.1)).Pairwise (· < ·) ∧
      (∀ shown ∈ sections, shown.2 ≠ [] ∧ shown.2.Pairwise (· < ·)) ∧
      (∀ group name, (∃ names, (group, names) ∈ sections ∧ name ∈ names) ↔
        catalog.Lists group name) ∧
      (∀ name, (swiftIdentifier name = '\x60' :: name ++ ['\x60'] ↔
          String.ofList name ∈ reservedWords) ∧
        (swiftIdentifier name = name ↔ String.ofList name ∉ reservedWords)) ∧
      lines.filter isEnumLine =
        (spellings.map fun spelling =>
          enumStart ++ spelling ++ ": String, CaseIterable \x7b".toList) ∧
      lines.filter isFunctionLine =
        spellings.map fun spelling =>
          functionLine (containerName module ++ ".".toList ++ spelling) := by
  intro sections spellings lines
  have sectionsEq : sections = catalog.sections := rfl
  have linesEq : lines = codeLines module catalog.sections := by
    rw [codeLines_eq, enumsLines_eq_intercalate, ← sectionsEq]
  have shown : catalog.sections ≠ [] := by
    rw [Ne, ← Catalog.isEmpty_iff_sections_eq_nil, nonempty]
    exact Bool.false_ne_true
  refine ⟨?_, ?_, ?_, ?_, ?_, ?_, ?_, ?_⟩
  · rw [generate_eq, codeOf, if_neg shown, linesEq]
  · rw [sectionsEq]
    exact shown
  · rw [sectionsEq, Catalog.map_fst_sections]
    exact catalog.pairwise_groupNames
  · rw [sectionsEq]
    exact fun _ member => Catalog.functions_of_mem_sections member
  · intro group name
    rw [sectionsEq]
    exact Catalog.exists_mem_sections_iff
  · exact fun name => swiftIdentifier_eq_iff
  · rw [linesEq, filter_isEnumLine_codeLines, List.map_map, ← sectionsEq]
    rfl
  · rw [linesEq, filter_isFunctionLine_codeLines, List.map_map, ← sectionsEq]
    rfl

theorem generate_eq_unlines_reserved :
    let named : ShaderGroup := ⟨.custom, some "enum".toList⟩
    let catalog : Catalog := ((Catalog.empty.insert named "fog".toList).insert
      ⟨.vertex, none⟩ "sky".toList).insert named "class".toList
    catalog.isEmpty = false ∧
      generate catalog "App".toList = Text.unlines (List.map String.toList
        ["// Generated by ShaderEnumGenerator", "", "import Metal", "",
          "public enum AppShaders \x7b",
          "    public enum MTLVertexShader: String, CaseIterable \x7b",
          "        case sky = \"sky\"",
          "    \x7d",
          "",
          "    public enum \x60enum\x60: String, CaseIterable \x7b",
          "        case \x60class\x60 = \"class\"",
          "        case fog = \"fog\"",
          "    \x7d",
          "\x7d",
          "",
          "extension MTLLibrary \x7b",
          "    public func makeFunction(_ shader: AppShaders.MTLVertexShader) -> MTLFunction? \x7b",
          "        makeFunction(name: shader.rawValue)",
          "    \x7d",
          "\x7d",
          "",
          "extension MTLLibrary \x7b",
          "    public func makeFunction(_ shader: AppShaders.\x60enum\x60) -> MTLFunction? \x7b",
          "        makeFunction(name: shader.rawValue)",
          "    \x7d",
          "\x7d"]) := by
  intro named catalog
  have nonempty : catalog.isEmpty = false := rfl
  obtain ⟨text, -⟩ := generate_eq_unlines nonempty "App".toList
  have sections : catalog.groups.map (fun group => (group.name, catalog.functions group)) =
      [("MTLVertexShader".toList, ["sky".toList]),
        ("enum".toList, ["class".toList, "fog".toList])] := by
    refine catalog.sections_eq_map.trans ?_
    rw [Catalog.groupNames_eq_sortedSet]
    decide +kernel
  refine ⟨nonempty, ?_⟩
  rw [text, sections]
  decide +kernel

end ShaderCatalog
