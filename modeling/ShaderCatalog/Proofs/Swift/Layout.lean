import ShaderCatalog.Proofs.Catalog.Pairs

namespace ShaderCatalog

/-! The lines of generated code, written out. A listing that code is printed to is
only ever extended, and what extends it depends on its level and not on its lines. -/

namespace Listing

def extend (listing : Listing) (added : List Text) : Listing :=
  { listing with lines := listing.lines ++ added }

@[simp] theorem level_extend (listing : Listing) (added : List Text) :
    (listing.extend added).level = listing.level := rfl

@[simp] theorem lines_extend (listing : Listing) (added : List Text) :
    (listing.extend added).lines = listing.lines ++ added := rfl

@[simp] theorem extend_nil (listing : Listing) : listing.extend [] = listing := by
  simp [extend]

theorem extend_extend (listing : Listing) (first second : List Text) :
    (listing.extend first).extend second = listing.extend (first ++ second) := by
  simp [extend]

theorem acceptsBlank_extend_concat (listing : Listing) (added : List Text) {last : Text}
    (visible : last ≠ []) : (listing.extend (added ++ [last])).acceptsBlank = true := by
  simp [acceptsBlank, ← List.append_assoc, visible]

theorem addBlank_of_acceptsBlank {listing : Listing}
    (accepts : listing.acceptsBlank = true) : listing.addBlank = listing.extend [[]] := by
  simp [addBlank, accepts, extend]

theorem addLine_of_ne_nil (listing : Listing) {line : Text} (visible : line ≠ []) :
    listing.addLine line = listing.extend [indentation listing.level ++ line] := by
  simp [addLine, visible, extend]

theorem openBlock_eq (listing : Listing) (header : Text) :
    listing.openBlock header =
      { listing.extend [indentation listing.level ++ (header ++ " \x7b".toList)] with
        level := listing.level + 1 } := by
  rw [openBlock, addLine_of_ne_nil listing (by simp)]
  rfl

/-- A block adds its header, what its body adds one level deeper, and its closing
brace, and leaves the listing at the level it was at. -/
theorem block_of_extend {listing : Listing} {header : Text} {body : Listing → Listing}
    {added : List Text}
    (bodyExtends : ∀ inner : Listing, inner.level = listing.level + 1 →
      body inner = inner.extend added) :
    listing.block header body =
      listing.extend
        ((indentation listing.level ++ (header ++ " \x7b".toList)) :: added ++
          [indentation listing.level ++ "\x7d".toList]) := by
  have opened := openBlock_eq listing header
  rw [block, bodyExtends _ (by rw [opened]), closeBlock, addLine_of_ne_nil _ (by simp)]
  simp [opened, extend]

end Listing

def caseLine (function : Text) : Text :=
  "        case ".toList ++ swiftIdentifier function ++ " = \"".toList ++ function ++
    "\"".toList

def enumLines (shown : Text × List Text) : List Text :=
  ("    public enum ".toList ++ swiftIdentifier shown.1 ++
      ": String, CaseIterable \x7b".toList) ::
    shown.2.map caseLine ++ ["    \x7d".toList]

def enumsLines : List (Text × List Text) → List Text
  | [] => []
  | first :: others => enumLines first ++ others.flatMap fun shown => [] :: enumLines shown

def makeFunctionLines (container group : Text) : List Text :=
  ["    public func makeFunction(_ shader: ".toList ++ container ++ ".".toList ++
      swiftIdentifier group ++ ") -> MTLFunction? \x7b".toList,
    "        makeFunction(name: shader.rawValue)".toList,
    "    \x7d".toList]

def accessorLines (container group : Text) : List Text :=
  [[], "extension MTLLibrary \x7b".toList] ++ makeFunctionLines container group ++
    ["\x7d".toList]

def codeLines (module : Text) (sections : List (Text × List Text)) : List Text :=
  ["// Generated by ShaderEnumGenerator".toList,
    [],
    "import Metal".toList,
    [],
    "public enum ".toList ++ containerName module ++ " \x7b".toList] ++
  enumsLines sections ++ ["\x7d".toList] ++
  sections.flatMap fun shown => accessorLines (containerName module) shown.1

namespace Listing

private theorem addCase_eq (listing : Listing) (level : listing.level = 2)
    (function : Text) : listing.addCase function = listing.extend [caseLine function] := by
  rw [addCase, addLine_of_ne_nil listing (by simp), level]
  rfl

private theorem foldl_addCase (listing : Listing) (level : listing.level = 2)
    (functions : List Text) :
    functions.foldl addCase listing = listing.extend (functions.map caseLine) := by
  induction functions generalizing listing with
  | nil => simp
  | cons function functions induction =>
      rw [List.foldl_cons, addCase_eq listing level,
        induction (listing.extend [caseLine function]) level, extend_extend]
      rfl

private theorem addEnum_eq (listing : Listing) (level : listing.level = 1)
    (shown : Text × List Text) :
    listing.addEnum shown = listing.extend (enumLines shown) := by
  have bodyExtends (inner : Listing) (deeper : inner.level = listing.level + 1) :
      shown.2.foldl addCase inner = inner.extend (shown.2.map caseLine) :=
    foldl_addCase inner (by omega) shown.2
  rw [addEnum, block_of_extend bodyExtends, level]
  simp [indentation, enumLines]

private theorem addEnum_addBlank_eq (listing : Listing) (level : listing.level = 1)
    (before shown : Text × List Text) :
    ((listing.extend (enumLines before)).addBlank).addEnum shown =
      (listing.extend (enumLines before ++ [[]])).extend (enumLines shown) := by
  have accepts : (listing.extend (enumLines before)).acceptsBlank = true :=
    acceptsBlank_extend_concat listing (_ :: before.2.map caseLine) (by simp)
  rw [addBlank_of_acceptsBlank accepts, extend_extend]
  exact addEnum_eq (listing.extend (enumLines before ++ [[]])) level shown

private theorem foldl_addEnum (listing : Listing) (level : listing.level = 1)
    (first : Text × List Text) (others : List (Text × List Text)) :
    others.foldl (fun listing shown => listing.addBlank.addEnum shown)
        (listing.extend (enumLines first)) =
      listing.extend (enumsLines (first :: others)) := by
  induction others generalizing listing first with
  | nil => simp [enumsLines]
  | cons second others induction =>
      rw [List.foldl_cons, addEnum_addBlank_eq listing level,
        induction (listing.extend (enumLines first ++ [[]])) level, extend_extend]
      simp [enumsLines]

private theorem addEnums_eq (listing : Listing) (level : listing.level = 1)
    (sections : List (Text × List Text)) :
    listing.addEnums sections = listing.extend (enumsLines sections) := by
  cases sections with
  | nil => simp [addEnums, enumsLines]
  | cons first others => rw [addEnums, addEnum_eq listing level, foldl_addEnum listing level]

private theorem addMakeFunction_eq (container group : Text) (listing : Listing)
    (level : listing.level = 1) :
    listing.block
        ("public func makeFunction(_ shader: ".toList ++ container ++ ".".toList ++
          swiftIdentifier group ++ ") -> MTLFunction?".toList)
        (fun inner => inner.addLine "makeFunction(name: shader.rawValue)".toList) =
      listing.extend (makeFunctionLines container group) := by
  have bodyExtends (inner : Listing) (deeper : inner.level = listing.level + 1) :
      inner.addLine "makeFunction(name: shader.rawValue)".toList =
        inner.extend ["        makeFunction(name: shader.rawValue)".toList] := by
    rw [addLine_of_ne_nil inner (by simp), deeper, level]
    rfl
  rw [block_of_extend bodyExtends, level]
  simp [indentation, makeFunctionLines]

private theorem addAccessor_eq (container group : Text) (listing : Listing)
    (level : listing.level = 0) (accepts : listing.acceptsBlank = true) :
    addAccessor container listing.addBlank group =
      listing.extend (accessorLines container group) := by
  have bodyExtends (inner : Listing)
      (deeper : inner.level = (listing.extend [[]]).level + 1) :=
    addMakeFunction_eq container group inner (by rw [deeper, level_extend, level]; rfl)
  rw [addBlank_of_acceptsBlank accepts, addAccessor, block_of_extend bodyExtends]
  simp [extend_extend, accessorLines, indentation, level]

private theorem foldl_addAccessor (container : Text) (listing : Listing)
    (level : listing.level = 0) (accepts : listing.acceptsBlank = true)
    (sections : List (Text × List Text)) :
    sections.foldl (fun listing shown => addAccessor container listing.addBlank shown.1)
        listing =
      listing.extend (sections.flatMap fun shown => accessorLines container shown.1) := by
  induction sections generalizing listing with
  | nil => simp
  | cons shown sections induction =>
      have stillAccepts :
          (listing.extend (accessorLines container shown.1)).acceptsBlank = true :=
        acceptsBlank_extend_concat listing
          ([[], _] ++ makeFunctionLines container shown.1) (by simp)
      rw [List.foldl_cons, addAccessor_eq container shown.1 listing level accepts,
        induction (listing.extend (accessorLines container shown.1)) level stillAccepts,
        extend_extend]
      rfl

end Listing

theorem lines_enumListing (module : Text) (sections : List (Text × List Text)) :
    (enumListing module sections).lines = codeLines module sections := by
  have headerEq :
      ((Listing.empty.addLine
          "// Generated by ShaderEnumGenerator".toList).addBlank.addLine
        "import Metal".toList).addBlank =
      ⟨0, ["// Generated by ShaderEnumGenerator".toList, [], "import Metal".toList, []]⟩ :=
    rfl
  have enumsExtend (inner : Listing) (deeper : inner.level = (0 : Int) + 1) :=
    Listing.addEnums_eq inner deeper sections
  simp only [enumListing, headerEq]
  rw [Listing.block_of_extend enumsExtend, Listing.foldl_addAccessor _ _ rfl]
  · simp [codeLines, Listing.indentation]
  · exact Listing.acceptsBlank_extend_concat _ (_ :: enumsLines sections) (by simp)

def Text.unlines (lines : List Text) : Text :=
  lines.flatMap (· ++ ['\n'])

theorem joinLines_append_newline {lines : List Text} (nonempty : lines ≠ []) :
    Text.joinLines lines ++ ['\n'] = Text.unlines lines := by
  induction lines with
  | nil => contradiction
  | cons first others induction =>
      cases others with
      | nil => simp [Text.joinLines, Text.join, Text.unlines]
      | cons second more =>
          have rest := induction (by simp)
          simp only [Text.joinLines, Text.join, Text.unlines, List.flatMap_cons,
            List.append_assoc, List.cons_append, List.nil_append] at rest ⊢
          rw [rest]

def codeOf (module : Text) (sections : List (Text × List Text)) : Text :=
  if sections = [] then emptyCode else Text.unlines (codeLines module sections)

theorem Catalog.isEmpty_iff_sections_eq_nil {catalog : Catalog} :
    catalog.isEmpty = true ↔ catalog.sections = [] := by
  rw [isEmpty_iff, List.eq_nil_iff_forall_not_mem]
  constructor
  · intro noPairs shown member
    obtain ⟨name, listed⟩ := List.exists_mem_of_ne_nil _ (functions_of_mem_sections member).1
    exact noPairs shown.1 name ((mem_snd_iff_lists member).mp listed)
  · intro noSections group name listed
    obtain ⟨names, member, _⟩ := exists_mem_sections_iff.mpr listed
    exact noSections _ member

theorem generate_eq (catalog : Catalog) (module : Text) :
    generate catalog module = codeOf module catalog.sections := by
  rw [generate, codeOf]
  split
  next noPairs => rw [if_pos (Catalog.isEmpty_iff_sections_eq_nil.mp noPairs)]
  next somePair =>
    rw [if_neg (mt Catalog.isEmpty_iff_sections_eq_nil.mpr somePair), Listing.text,
      lines_enumListing, joinLines_append_newline (by simp [codeLines])]

end ShaderCatalog
