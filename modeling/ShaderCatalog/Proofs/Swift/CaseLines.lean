import ShaderCatalog.Proofs.Swift.Layout

namespace ShaderCatalog

/-! The lines of generated code, counted: how many there are, which of them are
cases, and that no line holds a control character unless a name does. -/

def isCaseLine (line : Text) : Bool :=
  "        case ".toList.isPrefixOf line

@[simp] theorem isCaseLine_caseLine (function : Text) :
    isCaseLine (caseLine function) = true := by
  rw [isCaseLine, List.isPrefixOf_iff_prefix]
  unfold caseLine
  simp only [List.append_assoc]
  exact List.prefix_append _ _

private theorem filter_isCaseLine_enumLines (shown : Text × List Text) :
    (enumLines shown).filter isCaseLine = shown.2.map caseLine := by
  have cases : (shown.2.map caseLine).filter isCaseLine = shown.2.map caseLine := by
    apply List.filter_eq_self.mpr
    intro line member
    obtain ⟨function, _, rfl⟩ := List.mem_map.mp member
    exact isCaseLine_caseLine function
  rw [enumLines, List.filter_append, List.filter_cons, cases]
  simp [isCaseLine, List.isPrefixOf]

private theorem filter_isCaseLine_accessorLines (container group : Text) :
    (accessorLines container group).filter isCaseLine = [] := by
  simp [accessorLines, makeFunctionLines, isCaseLine, List.isPrefixOf]

def headerLines (module : Text) : List Text :=
  ["// Generated by ShaderEnumGenerator".toList,
    [],
    "import Metal".toList,
    [],
    "public enum ".toList ++ containerName module ++ " \x7b".toList]

theorem codeLines_eq (module : Text) (sections : List (Text × List Text)) :
    codeLines module sections =
      headerLines module ++ enumsLines sections ++ ["\x7d".toList] ++
        sections.flatMap fun shown => accessorLines (containerName module) shown.1 := rfl

section

variable {select : Text → Bool}

private theorem filter_enumsLines (blank : select [] = false)
    (sections : List (Text × List Text)) :
    (enumsLines sections).filter select =
      sections.flatMap fun shown => (enumLines shown).filter select := by
  have separated (shown : Text × List Text) :
      ([] :: enumLines shown).filter select = (enumLines shown).filter select :=
    List.filter_cons_of_neg (Bool.eq_false_iff.mp blank)
  cases sections with
  | nil => rfl
  | cons first others =>
      simp only [enumsLines, List.filter_append, List.filter_flatMap, separated,
        List.flatMap_cons]

theorem filter_codeLines {module : Text} {sections : List (Text × List Text)}
    (start : ∀ line ∈ headerLines module, select line = false)
    (closing : select "\x7d".toList = false) :
    (codeLines module sections).filter select =
      (sections.flatMap fun shown => (enumLines shown).filter select) ++
        sections.flatMap fun shown =>
          (accessorLines (containerName module) shown.1).filter select := by
  have blank : select [] = false := start [] (by simp [headerLines])
  have noStart := List.filter_eq_nil_iff.mpr fun line member =>
    Bool.eq_false_iff.mp (start line member)
  have noClosing : ["\x7d".toList].filter select = [] :=
    List.filter_cons_of_neg (Bool.eq_false_iff.mp closing)
  rw [codeLines_eq, List.filter_append, List.filter_append, List.filter_append, noStart, noClosing,
    filter_enumsLines blank, List.filter_flatMap, List.nil_append, List.append_nil]

end

/-- The lines of code that begin as a case does are the cases of the functions shown,
in their order. -/
theorem filter_isCaseLine_codeLines (module : Text) (sections : List (Text × List Text)) :
    (codeLines module sections).filter isCaseLine =
      (sections.flatMap (·.2)).map caseLine := by
  rw [filter_codeLines (by simp [headerLines, isCaseLine, List.isPrefixOf]) (by decide)]
  simp only [filter_isCaseLine_enumLines, filter_isCaseLine_accessorLines, List.map_flatMap]
  simp

private theorem length_enumLines (shown : Text × List Text) :
    (enumLines shown).length = shown.2.length + 2 := by
  simp [enumLines]

private theorem length_enumsLines {sections : List (Text × List Text)}
    (nonempty : sections ≠ []) :
    (enumsLines sections).length + 1 =
      3 * sections.length + (sections.flatMap (·.2)).length := by
  obtain ⟨first, others, rfl⟩ := List.exists_cons_of_ne_nil nonempty
  have separated : (others.flatMap fun shown => [] :: enumLines shown).length =
      3 * others.length + (others.flatMap (·.2)).length := by
    induction others with
    | nil => rfl
    | cons shown others induction =>
        have shorter := induction (by simp)
        simp only [List.flatMap_cons, List.length_append, List.length_cons, length_enumLines,
          shorter]
        omega
  simp only [enumsLines, List.length_append, length_enumLines, separated, List.length_cons,
    List.flatMap_cons]
  omega

private theorem length_flatMap_accessorLines (container : Text)
    (sections : List (Text × List Text)) :
    (sections.flatMap fun shown => accessorLines container shown.1).length =
      6 * sections.length := by
  induction sections with
  | nil => rfl
  | cons shown sections induction =>
      simp only [List.flatMap_cons, List.length_append, induction, List.length_cons]
      simp only [accessorLines, makeFunctionLines, List.length_append, List.length_cons,
        List.length_nil]
      omega

theorem length_codeLines (module : Text) {sections : List (Text × List Text)}
    (nonempty : sections ≠ []) :
    (codeLines module sections).length =
      5 + 9 * sections.length + (sections.flatMap (·.2)).length := by
  have enums := length_enumsLines nonempty
  simp only [codeLines, List.length_append, List.length_cons, List.length_nil,
    length_flatMap_accessorLines]
  omega

theorem not_mem_swiftIdentifier {name : Text} {c : Char} (outside : c ∉ name)
    (noBacktick : c ≠ '\x60') : c ∉ swiftIdentifier name := by
  unfold swiftIdentifier
  split
  · simp [outside, noBacktick]
  · exact outside

theorem not_mem_of_isControl {words : Text} (visible : words.all (32 ≤ ·.toNat) = true)
    {c : Char} (isControl : c.toNat < 32) : c ∉ words := by
  intro member
  have shown := of_decide_eq_true (List.all_eq_true.mp visible c member)
  omega

section

variable {c : Char} (isControl : c.toNat < 32)

include isControl

private theorem isControl_not_mem_swiftIdentifier {name : Text} (free : c ∉ name) :
    c ∉ swiftIdentifier name := by
  apply not_mem_swiftIdentifier free
  rintro rfl
  contradiction

theorem isControl_not_mem_enumLines {shown : Text × List Text} (groupFree : c ∉ shown.1)
    (namesFree : ∀ name ∈ shown.2, c ∉ name) : ∀ line ∈ enumLines shown, c ∉ line := by
  intro line member
  simp only [enumLines, List.cons_append, List.mem_cons, List.mem_append,
    List.not_mem_nil, or_false] at member
  rcases member with rfl | inCases | rfl
  · simp only [List.mem_append, not_or]
    exact ⟨⟨not_mem_of_isControl (by decide) isControl,
      isControl_not_mem_swiftIdentifier isControl groupFree⟩,
      not_mem_of_isControl (by decide) isControl⟩
  · obtain ⟨name, nameMember, rfl⟩ := List.mem_map.mp inCases
    have free := namesFree name nameMember
    unfold caseLine
    simp only [List.mem_append, not_or]
    exact ⟨⟨⟨⟨not_mem_of_isControl (by decide) isControl,
      isControl_not_mem_swiftIdentifier isControl free⟩,
      not_mem_of_isControl (by decide) isControl⟩, free⟩,
      not_mem_of_isControl (by decide) isControl⟩
  · exact not_mem_of_isControl (by decide) isControl

private theorem isControl_not_mem_accessorLines {container group : Text}
    (containerFree : c ∉ container) (groupFree : c ∉ group) :
    ∀ line ∈ accessorLines container group, c ∉ line := by
  intro line member
  simp only [accessorLines, makeFunctionLines, List.cons_append, List.nil_append,
    List.mem_cons, List.not_mem_nil, or_false] at member
  rcases member with rfl | rfl | rfl | rfl | rfl | rfl
  case inr.inr.inl =>
    simp only [List.mem_append, not_or]
    exact ⟨⟨⟨⟨not_mem_of_isControl (by decide) isControl, containerFree⟩,
      not_mem_of_isControl (by decide) isControl⟩,
      isControl_not_mem_swiftIdentifier isControl groupFree⟩,
      not_mem_of_isControl (by decide) isControl⟩
  all_goals exact not_mem_of_isControl (by decide) isControl

end

theorem exists_mem_of_mem_enumsLines {sections : List (Text × List Text)} {line : Text}
    (member : line ∈ enumsLines sections) :
    line = [] ∨ ∃ shown ∈ sections, line ∈ enumLines shown := by
  cases sections with
  | nil => contradiction
  | cons first others =>
      simp only [enumsLines, List.mem_append, List.mem_flatMap, List.mem_cons] at member
      rcases member with inFirst | ⟨shown, shownMember, isBlank | inShown⟩
      · exact Or.inr ⟨first, List.mem_cons_self, inFirst⟩
      · exact Or.inl isBlank
      · exact Or.inr ⟨shown, List.mem_cons_of_mem _ shownMember, inShown⟩

theorem isControl_not_mem_codeLines {c : Char} (isControl : c.toNat < 32) {module : Text}
    {sections : List (Text × List Text)} (moduleFree : c ∉ module)
    (sectionsFree : ∀ shown ∈ sections, c ∉ shown.1 ∧ ∀ name ∈ shown.2, c ∉ name) :
    ∀ line ∈ codeLines module sections, c ∉ line := by
  have containerFree : c ∉ containerName module := by
    rw [containerName, List.mem_append, not_or]
    exact ⟨moduleFree, not_mem_of_isControl (by decide) isControl⟩
  intro line member
  simp only [codeLines, List.mem_append, List.mem_cons, List.not_mem_nil, or_false] at member
  rcases member with ((inHeader | inEnums) | rfl) | inAccessors
  · rcases inHeader with rfl | rfl | rfl | rfl | rfl
    case inr.inr.inr.inr =>
      simp only [List.mem_append, not_or]
      exact ⟨⟨not_mem_of_isControl (by decide) isControl, containerFree⟩,
        not_mem_of_isControl (by decide) isControl⟩
    all_goals exact not_mem_of_isControl (by decide) isControl
  · rcases exists_mem_of_mem_enumsLines inEnums with rfl | ⟨shown, shownMember, inShown⟩
    · exact List.not_mem_nil
    · obtain ⟨groupFree, namesFree⟩ := sectionsFree shown shownMember
      exact isControl_not_mem_enumLines isControl groupFree namesFree line inShown
  · exact not_mem_of_isControl (by decide) isControl
  · obtain ⟨shown, shownMember, inShown⟩ := List.mem_flatMap.mp inAccessors
    exact isControl_not_mem_accessorLines isControl containerFree (sectionsFree shown shownMember).1
      line inShown

end ShaderCatalog
