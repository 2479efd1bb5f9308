import ShaderCatalog.Proofs.Catalog.Histories
import ShaderCatalog.Proofs.Source.DeclaredName
import ShaderCatalog.Proofs.Swift.WellFormed
import ShaderCatalog.Proofs.Text.Lines

namespace ShaderCatalog

/-! Generated code, read back: its lines tell the module, the groups and the functions
of each group. So the code of a catalog belongs to no other catalog and no other
module. -/

namespace Text

theorem splitLines_unlines {lines : List Text} (free : ∀ line ∈ lines, '\n' ∉ line) :
    splitLines (unlines lines) = lines ++ [[]] := by
  induction lines with
  | nil => rfl
  | cons line lines induction =>
      obtain ⟨lineFree, linesFree⟩ := List.forall_mem_cons.mp free
      have unfolded : unlines (line :: lines) = line ++ '\n' :: unlines lines := by
        simp [unlines]
      rw [unfolded, splitLines_append_newline lineFree, induction linesFree, List.cons_append]

end Text

def rawValue (line : Text) : Text :=
  ((line.dropWhile (· != '"')).drop 1).takeWhile (· != '"')

def enumStart : Text :=
  "    public enum ".toList

def isEnumLine (line : Text) : Bool :=
  enumStart.isPrefixOf line

def enumName (line : Text) : Text :=
  ((line.drop enumStart.length).takeWhile (· != ':')).filter (· != '\x60')

/-- The sections that lines of code show, after the functions of the cases that stand
before the first of them. -/
def readSections : List Text → List Text × List (Text × List Text)
  | [] => ([], [])
  | line :: rest =>
      let read := readSections rest
      if isCaseLine line then
        (rawValue line :: read.1, read.2)
      else if isEnumLine line then
        ([], (enumName line, read.1) :: read.2)
      else
        read

def readModule (lines : List Text) : Text :=
  let container := (lines.getD 4 []).drop "public enum ".toList.length
  container.take (container.length - "Shaders \x7b".toList.length)

/-- The module and the sections that code was generated for. -/
def readCode (code : Text) : Text × List (Text × List Text) :=
  let lines := Text.splitLines code
  (readModule lines, (readSections lines).2)

structure IsSection (shown : Text × List Text) : Prop where
  isAlpha : ∀ c ∈ shown.1, c.isAlpha = true
  isIdentifier : ∀ name ∈ shown.2, IsIdentifier name

theorem IsSection.not_mem {shown : Text × List Text} (proper : IsSection shown) {c : Char}
    (other : c.isAlpha = false) : c ∉ shown.1 := by
  intro member
  have letter := proper.isAlpha c member
  rw [other] at letter
  contradiction

theorem filter_swiftIdentifier {name : Text} (free : '\x60' ∉ name) :
    (swiftIdentifier name).filter (· != '\x60') = name := by
  have plain : name.filter (· != '\x60') = name := by
    rw [List.filter_eq_self]
    intro c member
    simpa using ne_of_mem_of_not_mem member free
  unfold swiftIdentifier
  split
  · simp [plain]
  · exact plain

theorem takeWhile_append_of_not_mem {before : Text} {stop : Char} (outside : stop ∉ before)
    (after : Text) : (before ++ stop :: after).takeWhile (· != stop) = before := by
  rw [List.takeWhile_append_of_pos]
  · simp
  · intro c member
    simpa using ne_of_mem_of_not_mem member outside

theorem dropWhile_append_of_not_mem {before : Text} {stop : Char} (outside : stop ∉ before)
    (after : Text) : (before ++ stop :: after).dropWhile (· != stop) = stop :: after := by
  rw [List.dropWhile_append_of_pos]
  · simp
  · intro c member
    simpa using ne_of_mem_of_not_mem member outside

theorem rawValue_caseLine {name : Text} (identifier : IsIdentifier name) :
    rawValue (caseLine name) = name := by
  have quoteFree : '"' ∉ name := identifier.not_mem (by decide)
  have startFree : '"' ∉ "        case ".toList ++ swiftIdentifier name ++ " = ".toList := by
    have identifierFree := not_mem_swiftIdentifier quoteFree (by decide)
    simp [identifierFree]
  have split : caseLine name =
      ("        case ".toList ++ swiftIdentifier name ++ " = ".toList) ++
        '"' :: (name ++ '"' :: []) := by
    unfold caseLine
    simp
  rw [rawValue, split, dropWhile_append_of_not_mem startFree]
  exact takeWhile_append_of_not_mem quoteFree []

theorem readSections_cons_of_case {line : Text} (isCase : isCaseLine line = true)
    (rest : List Text) :
    readSections (line :: rest) =
      (rawValue line :: (readSections rest).1, (readSections rest).2) := by
  simp only [readSections, isCase, if_true]

theorem readSections_cons_of_enum {line : Text} (noCase : isCaseLine line = false)
    (isEnum : isEnumLine line = true) (rest : List Text) :
    readSections (line :: rest) =
      ([], (enumName line, (readSections rest).1) :: (readSections rest).2) := by
  simp only [readSections, noCase, isEnum, if_true, Bool.false_eq_true, if_false]

theorem readSections_cons_of_plain {line : Text} (noCase : isCaseLine line = false)
    (noEnum : isEnumLine line = false) (rest : List Text) :
    readSections (line :: rest) = readSections rest := by
  simp only [readSections, noCase, noEnum, Bool.false_eq_true, if_false]

theorem readSections_append_of_plain {plain : List Text}
    (noSection : ∀ line ∈ plain, isCaseLine line = false ∧ isEnumLine line = false)
    (rest : List Text) : readSections (plain ++ rest) = readSections rest := by
  induction plain with
  | nil => rfl
  | cons line plain induction =>
      obtain ⟨⟨noCase, noEnum⟩, others⟩ := List.forall_mem_cons.mp noSection
      rw [List.cons_append, readSections_cons_of_plain noCase noEnum, induction others]

theorem readSections_cases_append {functions : List Text}
    (identifiers : ∀ name ∈ functions, IsIdentifier name) (rest : List Text) :
    readSections (functions.map caseLine ++ rest) =
      (functions ++ (readSections rest).1, (readSections rest).2) := by
  induction functions with
  | nil => rfl
  | cons name functions induction =>
      obtain ⟨identifier, others⟩ := List.forall_mem_cons.mp identifiers
      rw [List.map_cons, List.cons_append, readSections_cons_of_case (isCaseLine_caseLine name),
        induction others, rawValue_caseLine identifier]
      rfl

def enumHeader (group : Text) : Text :=
  enumStart ++ swiftIdentifier group ++ ": String, CaseIterable \x7b".toList

theorem enumLines_append (shown : Text × List Text) (rest : List Text) :
    enumLines shown ++ rest =
      enumHeader shown.1 :: (shown.2.map caseLine ++ ("    \x7d".toList :: rest)) := by
  rw [enumLines, List.append_assoc]
  rfl

theorem isCaseLine_enumHeader (group : Text) : isCaseLine (enumHeader group) = false := rfl

theorem isEnumLine_enumHeader (group : Text) : isEnumLine (enumHeader group) = true := by
  rw [isEnumLine, enumHeader, List.isPrefixOf_iff_prefix, List.append_assoc]
  exact List.prefix_append _ _

theorem enumName_enumHeader {group : Text} (colonFree : ':' ∉ group)
    (backtickFree : '\x60' ∉ group) : enumName (enumHeader group) = group := by
  have dropped : (enumHeader group).drop enumStart.length =
      swiftIdentifier group ++ ':' :: " String, CaseIterable \x7b".toList := by
    rw [enumHeader, List.append_assoc, List.drop_left]
    rfl
  rw [enumName, dropped,
    takeWhile_append_of_not_mem (not_mem_swiftIdentifier colonFree (by decide)),
    filter_swiftIdentifier backtickFree]

theorem readSections_enumLines_append {shown : Text × List Text} (proper : IsSection shown)
    {rest : List Text} {sections : List (Text × List Text)}
    (follows : readSections rest = ([], sections)) :
    readSections (enumLines shown ++ rest) = ([], shown :: sections) := by
  have closing : readSections ("    \x7d".toList :: rest) = ([], sections) :=
    (readSections_cons_of_plain (by decide) (by decide) rest).trans follows
  have named : enumName (enumHeader shown.1) = shown.1 :=
    enumName_enumHeader (proper.not_mem (by decide)) (proper.not_mem (by decide))
  rw [enumLines_append, readSections_cons_of_enum (isCaseLine_enumHeader shown.1)
    (isEnumLine_enumHeader shown.1), readSections_cases_append proper.isIdentifier, closing,
    named, List.append_nil]

theorem readSections_enumsLines_append {sections : List (Text × List Text)}
    (proper : ∀ shown ∈ sections, IsSection shown) {rest : List Text}
    (follows : readSections rest = ([], [])) :
    readSections (enumsLines sections ++ rest) = ([], sections) := by
  have separated {others : List (Text × List Text)}
      (proper : ∀ shown ∈ others, IsSection shown) :
      readSections ((others.flatMap fun shown => [] :: enumLines shown) ++ rest) =
        ([], others) := by
    induction others with
    | nil => exact follows
    | cons shown others induction =>
        obtain ⟨shownProper, othersProper⟩ := List.forall_mem_cons.mp proper
        have enum := readSections_enumLines_append shownProper (induction othersProper)
        rw [List.flatMap_cons, List.append_assoc]
        exact (readSections_cons_of_plain (by decide) (by decide) _).trans enum
  cases sections with
  | nil => exact follows
  | cons first others =>
      obtain ⟨firstProper, othersProper⟩ := List.forall_mem_cons.mp proper
      rw [enumsLines, List.append_assoc]
      exact readSections_enumLines_append firstProper (separated othersProper)

theorem readSections_codeLines_append (module : Text) {sections : List (Text × List Text)}
    (proper : ∀ shown ∈ sections, IsSection shown) :
    readSections (codeLines module sections ++ [[]]) = ([], sections) := by
  have header : ∀ line ∈ headerLines module,
      isCaseLine line = false ∧ isEnumLine line = false := by
    intro line member
    simp only [headerLines, List.mem_cons, List.not_mem_nil, or_false] at member
    rcases member with rfl | rfl | rfl | rfl | rfl
    all_goals exact ⟨rfl, rfl⟩
  have rest : ∀ line ∈ "\x7d".toList ::
      (sections.flatMap fun shown => accessorLines (containerName module) shown.1) ++ [[]],
      isCaseLine line = false ∧ isEnumLine line = false := by
    intro line member
    simp only [List.cons_append, List.mem_cons, List.mem_append, List.mem_flatMap,
      List.not_mem_nil, or_false] at member
    rcases member with rfl | ⟨shown, _, inAccessor⟩ | rfl
    · decide
    · simp only [accessorLines, makeFunctionLines, List.cons_append, List.nil_append,
        List.mem_cons, List.not_mem_nil, or_false] at inAccessor
      rcases inAccessor with rfl | rfl | rfl | rfl | rfl | rfl
      all_goals exact ⟨rfl, rfl⟩
    · decide
  have nothing : readSections ("\x7d".toList ::
      (sections.flatMap fun shown => accessorLines (containerName module) shown.1) ++ [[]]) =
      ([], []) := by
    have read := readSections_append_of_plain rest []
    rwa [List.append_nil] at read
  rw [codeLines_eq, List.append_assoc, List.append_assoc, List.append_assoc,
    readSections_append_of_plain header]
  exact readSections_enumsLines_append proper nothing

theorem readModule_codeLines_append (module : Text) (sections : List (Text × List Text))
    (rest : List Text) : readModule (codeLines module sections ++ rest) = module := by
  have line : (codeLines module sections ++ rest).getD 4 [] =
      "public enum ".toList ++ (module ++ "Shaders \x7b".toList) := by
    simp [codeLines, containerName]
  rw [readModule, line, List.drop_left, List.length_append, Nat.add_sub_cancel, List.take_left]

theorem readCode_codeOf {module : Text} {sections : List (Text × List Text)}
    (moduleFree : '\n' ∉ module) (nonempty : sections ≠ [])
    (proper : ∀ shown ∈ sections, IsSection shown) :
    readCode (codeOf module sections) = (module, sections) := by
  have linesFree : ∀ line ∈ codeLines module sections, '\n' ∉ line := by
    apply isControl_not_mem_codeLines (by decide) moduleFree
    intro shown member
    exact ⟨(proper shown member).not_mem (by decide),
      fun name nameMember => ((proper shown member).isIdentifier name nameMember).not_mem
        (by decide)⟩
  rw [readCode, codeOf, if_neg nonempty, Text.splitLines_unlines linesFree,
    readModule_codeLines_append, readSections_codeLines_append module proper]

namespace Catalog

/-- Groups are named by basic Latin letters and functions by identifiers. -/
structure IsProper (catalog : Catalog) : Prop where
  isAlpha : ∀ group name, catalog.Lists group name → ∀ c ∈ group, c.isAlpha = true
  isIdentifier : ∀ group name, catalog.Lists group name → IsIdentifier name

theorem IsProper.isSection {catalog : Catalog} (proper : catalog.IsProper) :
    ∀ shown ∈ catalog.sections, IsSection shown := by
  intro shown member
  obtain ⟨function, listed⟩ := mem_groupNames.mp (fst_mem_groupNames member)
  refine ⟨proper.isAlpha shown.1 function listed, fun name nameMember => ?_⟩
  exact proper.isIdentifier shown.1 name ((mem_snd_iff_lists member).mp nameMember)

theorem readCode_generate {catalog : Catalog} {module : Text} (moduleFree : '\n' ∉ module)
    (nonempty : catalog.isEmpty = false) (proper : catalog.IsProper) :
    readCode (generate catalog module) = (module, catalog.sections) := by
  rw [generate_eq]
  apply readCode_codeOf moduleFree _ proper.isSection
  rw [Ne, ← isEmpty_iff_sections_eq_nil, nonempty]
  exact Bool.false_ne_true

end Catalog

/-- Non-empty catalogs of proper names have the same code if and only if the modules are
the same and the catalogs are equal, that is, list the same functions in each group. -/
theorem generate_eq_generate_iff {first second : Catalog} {module other : Text}
    (moduleFree : '\n' ∉ module) (otherFree : '\n' ∉ other) (firstProper : first.IsProper)
    (secondProper : second.IsProper) (nonempty : first.isEmpty = false) :
    (generate first module = generate second other ↔
      module = other ∧ (first == second) = true) ∧
    ((first == second) = true ↔ ∀ group, first.functions group = second.functions group) ∧
    ∀ anyModule, generate first module ≠ generate ∅ anyModule := by
  have shown : first.sections ≠ [] := by
    rw [Ne, ← Catalog.isEmpty_iff_sections_eq_nil, nonempty]
    exact Bool.false_ne_true
  have notEmptyCode : generate first module ≠ emptyCode := by
    rw [generate_eq, Ne, codeOf_eq_emptyCode_iff]
    exact shown
  refine ⟨⟨fun same => ?_, ?_⟩, ⟨fun equal group => ?_, fun equal => ?_⟩,
    fun anyModule => notEmptyCode⟩
  · have firstRead := Catalog.readCode_generate moduleFree nonempty firstProper
    cases empty : second.isEmpty with
    | true =>
        rw [same, generate, if_pos empty] at notEmptyCode
        contradiction
    | false =>
        have secondRead := Catalog.readCode_generate otherFree empty secondProper
        rw [same, secondRead, Prod.mk.injEq] at firstRead
        exact ⟨firstRead.1.symm, Catalog.beq_iff_sections_eq.mpr firstRead.2.symm⟩
  · rintro ⟨rfl, equal⟩
    exact Catalog.generate_congr (Catalog.beq_iff.mp equal) module
  · exact Catalog.functions_congr (Catalog.beq_iff.mp equal) rfl
  · apply Catalog.beq_iff.mpr
    intro group name
    change first.Lists (ShaderGroup.name ⟨.custom, some group⟩) name ↔ _
    rw [← Catalog.mem_functions, equal, Catalog.mem_functions]
    rfl

theorem Catalog.IsProper.empty : IsProper ∅ :=
  ⟨fun _ _ listed => absurd listed (not_lists_emptyCollection _ _),
    fun _ _ listed => absurd listed (not_lists_emptyCollection _ _)⟩

theorem Catalog.IsProper.insert {catalog : Catalog} {group : ShaderGroup} {name : Text}
    (proper : catalog.IsProper) (letters : ∀ c ∈ group.name, c.isAlpha = true)
    (identifier : IsIdentifier name) : (catalog.insert group name).IsProper where
  isAlpha := by
    intro other function listed
    rcases lists_insert.mp listed with before | ⟨-, rfl⟩
    · exact proper.isAlpha other function before
    · exact letters
  isIdentifier := by
    intro other function listed
    rcases lists_insert.mp listed with before | ⟨rfl, -⟩
    · exact proper.isIdentifier other function before
    · exact identifier

/-- Two catalogs that were filled in another order and under groups of other kinds. -/
theorem generate_eq_generate_iff_kinds :
    let first : Catalog := (Catalog.empty.insert ⟨.vertex, none⟩ "repeat".toList).insert
      ⟨.custom, some "Type".toList⟩ "b".toList
    let second : Catalog := (Catalog.empty.insert ⟨.custom, some "Type".toList⟩ "b".toList).insert
      ⟨.custom, some "MTLVertexShader".toList⟩ "repeat".toList
    '\n' ∉ "App".toList ∧ '\n' ∉ "Apps".toList ∧ first.IsProper ∧ second.IsProper ∧
    first.isEmpty = false ∧
    generate first "App".toList = generate second "App".toList ∧
    generate first "App".toList ≠ generate second "Apps".toList ∧
    generate first "App".toList ≠ generate ∅ "App".toList := by
  intro first second
  have appFree : '\n' ∉ "App".toList := by decide
  have appsFree : '\n' ∉ "Apps".toList := by decide
  have repeatNamed : IsIdentifier "repeat".toList :=
    ⟨'r', "epeat".toList, rfl, by decide, List.all_eq_true.mp (by decide)⟩
  have bNamed : IsIdentifier "b".toList := ⟨'b', [], rfl, by decide, by simp⟩
  have firstProper : first.IsProper :=
    (Catalog.IsProper.empty.insert (List.all_eq_true.mp (by decide)) repeatNamed).insert
      (List.all_eq_true.mp (by decide)) bNamed
  have secondProper : second.IsProper :=
    (Catalog.IsProper.empty.insert (List.all_eq_true.mp (by decide)) bNamed).insert
      (List.all_eq_true.mp (by decide)) repeatNamed
  have nonempty : first.isEmpty = false := rfl
  obtain ⟨sameCode, -, notEmptyCode⟩ :=
    generate_eq_generate_iff appFree appFree firstProper secondProper nonempty
  obtain ⟨otherCode, -, -⟩ :=
    generate_eq_generate_iff appFree appsFree firstProper secondProper nonempty
  refine ⟨appFree, appsFree, firstProper, secondProper, nonempty, ?_, ?_, notEmptyCode _⟩
  · exact sameCode.mpr ⟨rfl, by decide⟩
  · intro same
    exact absurd (otherCode.mp same).1 (by decide)

end ShaderCatalog
