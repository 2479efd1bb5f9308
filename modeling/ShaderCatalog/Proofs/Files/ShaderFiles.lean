import ShaderCatalog.Files.Search
import ShaderCatalog.Proofs.Files.Locating
import ShaderCatalog.Proofs.Files.PathText

namespace ShaderCatalog

/-! What the search for shader files finds: the inputs that lead to files, and below those
that lead to directories the files with a shader's name. -/

namespace FileTree

/-- Whether the working directory and the entries have names that a file system accepts. -/
structure IsProper (tree : FileTree) : Prop where
  workingDirectory : ∀ name ∈ tree.workingDirectory, IsPathName name ∧ name ≠ parentName
  entries : ∀ entry ∈ tree.entries, ∀ name ∈ entry.1, IsPathName name

instance (tree : FileTree) : Decidable tree.IsProper :=
  decidable_of_iff
    ((∀ name ∈ tree.workingDirectory, IsPathName name ∧ name ≠ parentName) ∧
      ∀ entry ∈ tree.entries, ∀ name ∈ entry.1, IsPathName name)
    ⟨fun ⟨around, below⟩ => ⟨around, below⟩, fun proper => ⟨proper.workingDirectory, proper.entries⟩⟩

theorem foldl_step_of_not_mem {names : List Text} (straight : parentName ∉ names)
    (start : Location) : names.foldl step start = names.reverse ++ start := by
  induction names generalizing start with
  | nil => rfl
  | cons name names induction =>
      rw [List.mem_cons, not_or] at straight
      rw [List.foldl_cons, induction straight.2, step, if_neg (Ne.symm straight.1)]
      simp

theorem mem_of_mem_foldl_step {names : List Text} {start : Location} {name : Text}
    (member : name ∈ names.foldl step start) :
    name ∈ start ∨ name ∈ names ∧ name ≠ parentName := by
  induction names generalizing start with
  | nil => exact Or.inl member
  | cons first names induction =>
      rcases induction member with inNext | ⟨inNames, straight⟩
      · unfold step at inNext
        split at inNext
        · exact Or.inl (List.mem_of_mem_tail inNext)
        next straight =>
          rcases List.mem_cons.mp inNext with rfl | inStart
          · exact Or.inr ⟨List.mem_cons_self, straight⟩
          · exact Or.inl inStart
      · exact Or.inr ⟨List.mem_cons_of_mem first inNames, straight⟩

section

variable {tree : FileTree} (treeProper : tree.IsProper) {path : Path} (proper : path.IsProper)

include treeProper proper

theorem isPathName_of_mem_absolute {name : Text} (member : name ∈ tree.absolute path) :
    IsPathName name ∧ name ≠ parentName := by
  rcases mem_of_mem_foldl_step member with inOrigin | ⟨inNames, straight⟩
  · unfold origin at inOrigin
    split at inOrigin
    · cases inOrigin
    · exact treeProper.workingDirectory name inOrigin
  · exact ⟨Path.isPathName_of_mem_names proper name inNames, straight⟩

theorem isPathName_of_mem_locate {place : Location} (located : tree.locate path = .ok place)
    {name : Text} (member : name ∈ place) : IsPathName name ∧ name ≠ parentName := by
  rw [← absolute_of_locate located] at member
  exact isPathName_of_mem_absolute treeProper proper member

end

theorem IsProper.isPathName {tree : FileTree} (treeProper : tree.IsProper) {place : Location}
    (present : (tree.lookup place).isSome = true) {name : Text} (member : name ∈ place) :
    IsPathName name := by
  rcases isSome_lookup_iff.mp present with inside | ⟨entry, isEntry, rfl⟩
  · exact (treeProper.workingDirectory name (inside.subset member)).1
  · exact treeProper.entries entry isEntry name member

theorem isPathName_of_walk {tree : FileTree} (treeProper : tree.IsProper) {names : List Text}
    {start place : Location} (walked : tree.walk start names = .ok place) :
    ∀ name ∈ names, IsPathName name := by
  induction names generalizing start with
  | nil => exact fun _ none => (List.not_mem_nil none).elim
  | cons name names induction =>
      obtain ⟨next, entered, onwards⟩ := walk_cons_eq_ok_iff.mp walked
      refine List.forall_mem_cons.mpr ⟨?_, induction onwards⟩
      obtain ⟨-, -, stepped, rfl | present⟩ := enter_eq_ok_iff.mp entered
      · decide
      · by_cases up : name = parentName
        · rw [up]
          decide
        · rw [step, if_neg up] at stepped
          rw [← stepped] at present
          exact treeProper.isPathName present List.mem_cons_self

theorem isProper_of_locate {tree : FileTree} (treeProper : tree.IsProper) {path : Path}
    (isRead : path.IsRead) {place : Location} (located : tree.locate path = .ok place) :
    path.IsProper :=
  isRead.isProper fun name member =>
    (isPathName_of_walk treeProper (locate_eq_ok_iff.mp located).2 name member).nulFree

theorem mem_of_mem_namesBelow? {directory location : Location} {names : List Text}
    (below : namesBelow? directory location = some names) {name : Text} (member : name ∈ names) :
    name ∈ location := by
  unfold namesBelow? at below
  split at below
  · cases below
    exact List.mem_of_mem_take (List.mem_reverse.mp member)
  · contradiction

theorem eq_append_of_walk {tree : FileTree} {start place : Location} {names : List Text}
    (straight : parentName ∉ names) (walked : tree.walk start names = .ok place) :
    place = names.reverse ++ start := by
  rw [← foldl_step_of_walk walked, foldl_step_of_not_mem straight]

theorem leadsToShader_iff {tree : FileTree} {directory : Location} {names : List Text} :
    tree.leadsToShader directory names = true ↔
      names.getLast?.any shaderSuffix.isSuffixOf = true ∧ parentName ∉ names ∧
        ∃ bytes, tree.walk directory names = .ok (names.reverse ++ directory) ∧
          tree.lookup (names.reverse ++ directory) = some (.file bytes) := by
  have noParent : (!names.contains parentName) = true ↔ parentName ∉ names := by simp
  unfold leadsToShader
  rw [Bool.and_eq_true, Bool.and_eq_true, and_assoc, noParent]
  refine and_congr_right fun _ => and_congr_right fun straight => ?_
  cases walked : tree.walk directory names with
  | error error => simp
  | ok place =>
      obtain rfl := eq_append_of_walk straight walked
      cases found : tree.lookup (names.reverse ++ directory) with
      | none => simp [found]
      | some entry =>
          cases entry with
          | directory => simp [found]
          | file bytes => simp [found]

theorem isFound_iff {tree : FileTree} {path : Path} {directory : Location} {names : List Text} :
    tree.isFound path directory names = true ↔
      tree.isListed path directory names = true ∧
        tree.refusals.path (path.append names) = none ∧
          tree.leadsToShader directory names = true := by
  rw [isFound, Bool.and_eq_true, Bool.and_eq_true, Option.isNone_iff_eq_none, and_assoc]

theorem isSome_lookup_of_locate {tree : FileTree} {path : Path} {place : Location}
    (located : tree.locate path = .ok place) : (tree.lookup place).isSome = true := by
  obtain ⟨-, walked⟩ := locate_eq_ok_iff.mp located
  cases last : path.names.getLast? with
  | none =>
      rw [List.getLast?_eq_none_iff.mp last] at walked
      cases walked
      refine isSome_lookup_iff.mpr (.inl ?_)
      unfold origin
      split
      · exact List.nil_suffix
      · exact List.suffix_rfl
  | some name =>
      obtain ⟨around, locatedAround, entered⟩ := exists_locateAround last walked
      obtain ⟨-, -, stepped, up | present⟩ := enter_eq_ok_iff.mp entered
      · rw [step, if_pos up] at stepped
        have isDirectory := (isSurrounded_origin tree path).walk locatedAround _ List.suffix_rfl
        rw [← stepped, isDirectory, Option.isSome_some]
      · exact present

theorem shaderFilesOf_eq_ok_iff {tree : FileTree} {input : Path} {files : List Path} :
    tree.shaderFilesOf input = .ok files ↔ ∃ place, tree.locate input = .ok place ∧
      ((∃ bytes, tree.lookup place = some (.file bytes)) ∧ files = [input] ∨
        tree.lookup place = some .directory ∧ tree.searchStop? input place = none ∧
          files = (tree.shadersBelow input place).map input.append) := by
  unfold shaderFilesOf
  cases tree.locate input with
  | error error =>
      simp only
      split <;> simp
  | ok place =>
      cases found : tree.lookup place with
      | none => simp [found]
      | some entry =>
          cases entry with
          | file bytes => simp [found, eq_comm]
          | directory =>
              cases stop : tree.searchStop? input place with
              | none => simp [found, stop, eq_comm]
              | some stop => simp [found, stop]

theorem shaderFiles_of_stop {tree : FileTree} {path stopped : Path} {place : Location}
    {error : SystemError} (located : tree.locate path = .ok place)
    (isDirectory : tree.lookup place = some .directory)
    (stop : tree.searchStop? path place = some (error, stopped)) (paths : List Path) :
    tree.shaderFiles (path :: paths) = .error (.refused error stopped.toString) := by
  have fails : tree.shaderFilesOf path = .error (.refused error stopped.toString) := by
    simp only [shaderFilesOf, located, isDirectory, stop]
  rw [shaderFiles, List.mapM_cons, fails]
  rfl

theorem subset_of_shaderFiles {tree : FileTree} {inputs files here : List Path} {input : Path}
    (found : tree.shaderFiles inputs = .ok files) (member : input ∈ inputs)
    (foundHere : tree.shaderFilesOf input = .ok here) : here ⊆ files := by
  obtain ⟨lists, collected, rfl⟩ := map_eq_ok_iff.mp found
  intro file inHere
  have isList := (mem_of_mapM_eq_ok collected).mpr ⟨input, member, foundHere⟩
  exact mem_sortedSet.mpr (List.mem_flatten.mpr ⟨here, isList, inHere⟩)

theorem locate_append {tree : FileTree} {path : Path} (proper : path.IsProper) {names : List Text}
    (named : ∀ name ∈ names, IsPathName name) {directory place : Location}
    (located : tree.locate path = .ok directory)
    (spelled : tree.refusals.path (path.append names) = none) (walked : tree.walk directory names = .ok place) :
    tree.locate (path.append names) = .ok place := by
  have sameOrigin : tree.origin (path.append names) = tree.origin path := by
    rw [origin, origin, Path.isAbsolute_append proper named]
  have start := (locate_eq_ok_iff.mp located).2
  rw [locate_eq_ok_iff, sameOrigin, Path.names_append proper named, walk_append, start]
  exact ⟨spelled, walked⟩

/-- How an input stands for a file at a place: it leads there, or the file has a shader's
name and is somewhere below the directory that the input leads to. -/
inductive Collects (tree : FileTree) (input : Path) : Location → Path → Prop where
  | given {place : Location} (located : tree.locate input = .ok place) :
      Collects tree input place input
  | below {directory around : Location} {names : List Text} {name : Text}
      (located : tree.locate input = .ok directory)
      (isDirectory : tree.lookup directory = some .directory)
      (named : ∀ name ∈ names, IsPathName name)
      (spelled : tree.refusals.path (input.append names) = none)
      (walked : tree.walk directory names = .ok (name :: around)) (inside : directory <:+ around)
      (shader : shaderSuffix <:+ name) : Collects tree input (name :: around) (input.append names)

theorem exists_cons_of_leadsToShader {tree : FileTree} {directory : Location} {names : List Text}
    (leads : tree.leadsToShader directory names = true) :
    ∃ name around bytes, tree.walk directory names = .ok (name :: around) ∧
      tree.lookup (name :: around) = some (.file bytes) ∧ directory <:+ around ∧
      shaderSuffix <:+ name := by
  obtain ⟨shader, -, bytes, walked, present⟩ := leadsToShader_iff.mp leads
  obtain ⟨name, last, hasSuffix⟩ := (Option.any_eq_true _ _).mp shader
  obtain ⟨before, rfl⟩ := List.getLast?_eq_some_iff.mp last
  rw [List.reverse_concat, List.cons_append] at walked present
  exact ⟨name, _, bytes, walked, present, List.suffix_append _ _,
    List.isSuffixOf_iff_suffix.mp hasSuffix⟩

theorem collects_of_mem_shaderFilesOf {tree : FileTree} (proper : tree.IsProper) {input : Path}
    {files : List Path} (found : tree.shaderFilesOf input = .ok files) {file : Path}
    (member : file ∈ files) :
    ∃ place bytes, tree.lookup place = some (.file bytes) ∧ Collects tree input place file := by
  obtain ⟨place, located, ⟨⟨bytes, present⟩, rfl⟩ | ⟨isDirectory, -, rfl⟩⟩ :=
    shaderFilesOf_eq_ok_iff.mp found
  · cases List.mem_singleton.mp member
    exact ⟨place, bytes, present, .given located⟩
  · obtain ⟨names, isBelow, rfl⟩ := List.mem_map.mp member
    obtain ⟨inWays, found⟩ := List.mem_filter.mp isBelow
    obtain ⟨entry, inEntries, below⟩ := List.mem_filterMap.mp (mem_sortedSet.mp inWays)
    obtain ⟨-, spelled, leads⟩ := isFound_iff.mp found
    obtain ⟨name, around, bytes, walked, present, inside, shader⟩ :=
      exists_cons_of_leadsToShader leads
    refine ⟨_, bytes, present, .below located isDirectory ?_ spelled walked inside shader⟩
    intro other inNames
    exact proper.entries entry inEntries other (mem_of_mem_namesBelow? below inNames)

theorem collects_of_mem_shaderFiles {tree : FileTree} (proper : tree.IsProper)
    {inputs files : List Path} (found : tree.shaderFiles inputs = .ok files) {file : Path}
    (member : file ∈ files) :
    ∃ input ∈ inputs, ∃ place bytes, tree.lookup place = some (.file bytes) ∧
      Collects tree input place file := by
  obtain ⟨lists, collected, rfl⟩ := map_eq_ok_iff.mp found
  obtain ⟨here, isList, inList⟩ := List.mem_flatten.mp (mem_sortedSet.mp member)
  obtain ⟨input, isInput, foundHere⟩ := (mem_of_mapM_eq_ok collected).mp isList
  exact ⟨input, isInput, collects_of_mem_shaderFilesOf proper foundHere inList⟩

namespace Collects

variable {tree : FileTree} {input file : Path} {place : Location}

theorem isProper (collects : Collects tree input place file) (proper : input.IsProper) :
    file.IsProper := by
  cases collects with
  | given => exact proper
  | below _ _ named _ _ _ => exact proper.append named

theorem locate (collects : Collects tree input place file) (proper : input.IsProper) :
    tree.locate file = .ok place := by
  cases collects with
  | given located => exact located
  | below located _ named spelled walked =>
      exact locate_append proper named located spelled walked

end Collects

end FileTree

end ShaderCatalog
