import Mathlib.Data.List.Sort
import ShaderCatalog.Proofs.Catalog.FirstFailure
import ShaderCatalog.Proofs.Files.Closed
import ShaderCatalog.Proofs.SortedSet

namespace ShaderCatalog

/-! The files that are found are those that the inputs stand for. So they depend neither on
the order of the inputs nor on their repetition, nor on inputs that others stand for. -/

namespace Path

theorem eq_of_parts_eq {first second : Path} (same : first.parts = second.parts) :
    first = second :=
  congrArg Path.mk same

instance : Std.Trichotomous (· < · : Path → Path → Prop) :=
  ⟨fun first second notBelow notAbove =>
    eq_of_parts_eq (Std.Trichotomous.trichotomous (r := (· < ·)) first.parts second.parts
      notBelow notAbove)⟩

instance : Std.Irrefl (· < · : Path → Path → Prop) :=
  ⟨fun path => Std.Irrefl.irrefl (r := (· < ·)) path.parts⟩

instance : Trans (· < · : Path → Path → Prop) (· < · : Path → Path → Prop)
    (· < · : Path → Path → Prop) :=
  ⟨fun below above => List.lt_trans below above⟩

end Path

namespace FileTree

/-- Which files an input stands for: itself, if it leads to a file, or those with a shader's
name that names lead to from the directory that it leads to, where the directories on the way
can be listed. -/
inductive StandsFor (tree : FileTree) (input : Path) : Path → Prop where
  | given {bytes : Bytes} (present : tree.entry? input = some (.file bytes)) :
      StandsFor tree input input
  | below {directory place : Location} {names : List Text} {name : Text} {bytes : Bytes}
      (located : tree.locate input = .ok directory)
      (isDirectory : tree.lookup directory = some .directory)
      (listed : tree.isListed input directory names = true)
      (spelled : tree.refusals.path (input.append names) = none)
      (straight : parentName ∉ names) (last : names.getLast? = some name)
      (shader : shaderSuffix <:+ name) (walked : tree.walk directory names = .ok place)
      (present : tree.lookup place = some (.file bytes)) :
      StandsFor tree input (input.append names)

/-- Why an input cannot be searched: it leads nowhere, or the system refuses to look it up or
to go through what is below it. -/
inductive SearchFails (tree : FileTree) (path : Path) : Failure → Prop where
  | missing {error : SystemError} (unlocated : tree.locate path = .error error)
      (absent : error.isAbsence = true ∨ ∃ name ∈ path.names, nul ∈ name) :
      SearchFails tree path (.unreadable ⟨path.toString, .missing⟩)
  | refused {error : SystemError} (unlocated : tree.locate path = .error error)
      (notAbsent : error.isAbsence = false) (nulFree : ∀ name ∈ path.names, nul ∉ name) :
      SearchFails tree path (.refused error path.toString)
  | stopped {directory : Location} {error : SystemError} {stop : Path}
      (located : tree.locate path = .ok directory)
      (isDirectory : tree.lookup directory = some .directory)
      (stops : tree.searchStop? path directory = some (error, stop)) :
      SearchFails tree path (.refused error stop.toString)

theorem leadsToShader_iff_exists {tree : FileTree} {directory : Location} {names : List Text} :
    tree.leadsToShader directory names = true ↔
      parentName ∉ names ∧ (∃ name, names.getLast? = some name ∧ shaderSuffix <:+ name) ∧
        ∃ place bytes, tree.walk directory names = .ok place ∧
          tree.lookup place = some (.file bytes) := by
  rw [leadsToShader_iff, Option.any_eq_true, and_left_comm]
  simp only [List.isSuffixOf_iff_suffix]
  refine and_congr_right fun straight => and_congr_right fun _ => ?_
  constructor
  · rintro ⟨bytes, walked, present⟩
    exact ⟨_, bytes, walked, present⟩
  · rintro ⟨place, bytes, walked, present⟩
    obtain rfl := eq_append_of_walk straight walked
    exact ⟨bytes, walked, present⟩

section

variable {tree : FileTree} {input file : Path} {failure : Failure}

theorem shaderFilesOf_eq_error_iff :
    tree.shaderFilesOf input = .error failure ↔ tree.SearchFails input failure := by
  constructor
  · intro failed
    unfold shaderFilesOf at failed
    split at failed
    next error unlocated =>
      split at failed
      next absent =>
        cases failed
        exact .missing unlocated (by simpa using absent)
      next present =>
        cases failed
        obtain ⟨notAbsent, nulFree⟩ :
            error.isAbsence = false ∧ ∀ name ∈ input.names, nul ∉ name := by
          simpa using present
        exact .refused unlocated notAbsent nulFree
    next place located =>
      split at failed
      next isDirectory =>
        split at failed
        next error stop stops =>
          cases failed
          exact .stopped located isDirectory stops
        next => cases failed
      next => cases failed
      next nothing =>
        have present := isSome_lookup_of_locate located
        rw [nothing] at present
        cases present
  · intro fails
    cases fails with
    | @missing error unlocated absent =>
        have absent : (error.isAbsence || input.names.any (·.contains nul)) = true := by
          simpa using absent
        simp only [shaderFilesOf, unlocated, if_pos absent]
    | @refused error unlocated notAbsent nulFree =>
        have present : ¬(error.isAbsence || input.names.any (·.contains nul)) = true := by
          simpa [notAbsent] using nulFree
        simp only [shaderFilesOf, unlocated, if_neg present]
    | stopped located isDirectory stops => simp only [shaderFilesOf, located, isDirectory, stops]

theorem exists_shaderFilesOf_eq_ok_iff :
    (∃ files, tree.shaderFilesOf input = .ok files) ↔
      ∀ failure, ¬tree.SearchFails input failure := by
  simp only [← shaderFilesOf_eq_error_iff]
  cases tree.shaderFilesOf input with
  | error error => simp
  | ok files => simp

theorem mem_iff_standsFor {files : List Path} (found : tree.shaderFilesOf input = .ok files) :
    file ∈ files ↔ tree.StandsFor input file := by
  obtain ⟨place, located, ⟨⟨bytes, isFile⟩, rfl⟩ | ⟨isDirectory, -, rfl⟩⟩ :=
    shaderFilesOf_eq_ok_iff.mp found
  · rw [List.mem_singleton]
    constructor
    · rintro rfl
      exact .given (entry?_eq_some_iff.mpr ⟨place, located, isFile⟩)
    · intro stands
      cases stands with
      | given => rfl
      | below locatedToo isDirectory =>
          cases located.symm.trans locatedToo
          cases isFile.symm.trans isDirectory
  · simp only [List.mem_map, mem_shadersBelow_iff, isFound_iff, leadsToShader_iff_exists]
    constructor
    · rintro ⟨names, ⟨listed, spelled, straight, ⟨name, last, shader⟩, target, bytes, walked,
        present⟩, rfl⟩
      exact .below located isDirectory listed spelled straight last shader walked present
    · intro stands
      cases stands with
      | given present =>
          obtain ⟨other, locatedToo, isFile⟩ := entry?_eq_some_iff.mp present
          cases located.symm.trans locatedToo
          cases isFile.symm.trans isDirectory
      | below locatedToo _ listed spelled straight last shader walked present =>
          cases located.symm.trans locatedToo
          exact ⟨_, ⟨listed, spelled, straight, ⟨_, last, shader⟩, _, _, walked, present⟩, rfl⟩

end

section

variable {tree : FileTree} {paths : List Path}

theorem shaderFiles_eq_error_iff {failure : Failure} :
    tree.shaderFiles paths = .error failure ↔ FirstFault tree.SearchFails paths failure := by
  rw [shaderFiles, map_eq_error_iff, mapM_eq_error_iff]
  exact firstFault_congr fun _ _ _ => shaderFilesOf_eq_error_iff

theorem exists_shaderFiles_eq_ok_iff :
    (∃ files, tree.shaderFiles paths = .ok files) ↔
      ∀ path ∈ paths, ∀ failure, ¬tree.SearchFails path failure := by
  simp only [← exists_shaderFilesOf_eq_ok_iff, ← exists_mapM_eq_ok_iff, shaderFiles]
  exact exists_map_eq_ok_iff

theorem mem_iff_exists_standsFor {files : List Path} (found : tree.shaderFiles paths = .ok files)
    {file : Path} : file ∈ files ↔ ∃ path ∈ paths, tree.StandsFor path file := by
  have existing := exists_shaderFiles_eq_ok_iff.mp ⟨files, found⟩
  obtain ⟨lists, collected, rfl⟩ := map_eq_ok_iff.mp found
  simp only [mem_sortedSet, List.mem_flatten, mem_of_mapM_eq_ok collected]
  constructor
  · rintro ⟨here, ⟨path, member, foundHere⟩, inHere⟩
    exact ⟨path, member, (mem_iff_standsFor foundHere).mp inHere⟩
  · rintro ⟨path, member, stands⟩
    obtain ⟨here, foundHere⟩ := exists_shaderFilesOf_eq_ok_iff.mpr (existing path member)
    exact ⟨here, ⟨path, member, foundHere⟩, (mem_iff_standsFor foundHere).mpr stands⟩

theorem pairwise_of_shaderFiles {files : List Path} (found : tree.shaderFiles paths = .ok files) :
    files.Pairwise (· < ·) := by
  obtain ⟨lists, -, rfl⟩ := map_eq_ok_iff.mp found
  exact pairwise_sortedSet _

theorem shaderFiles_eq_ok_iff {files : List Path} :
    tree.shaderFiles paths = .ok files ↔
      (∀ path ∈ paths, ∀ failure, ¬tree.SearchFails path failure) ∧
        files.Pairwise (· < ·) ∧ ∀ file, file ∈ files ↔ ∃ path ∈ paths, tree.StandsFor path file := by
  constructor
  · intro found
    exact ⟨exists_shaderFiles_eq_ok_iff.mp ⟨files, found⟩, pairwise_of_shaderFiles found,
      fun file => mem_iff_exists_standsFor found⟩
  · rintro ⟨existing, increasing, members⟩
    obtain ⟨others, found⟩ := exists_shaderFiles_eq_ok_iff.mpr existing
    rw [found]
    refine congrArg Except.ok ((pairwise_of_shaderFiles found).eq_of_mem_iff increasing ?_)
    intro file
    rw [mem_iff_exists_standsFor found, members]

theorem shaderFiles_eq_ok_congr {others files : List Path}
    (same : ∀ path, path ∈ paths ↔ path ∈ others) :
    tree.shaderFiles paths = .ok files ↔ tree.shaderFiles others = .ok files := by
  simp only [shaderFiles_eq_ok_iff, same]

theorem eq_of_standsFor {listed file : Path} {bytes : Bytes}
    (isFile : tree.entry? listed = some (.file bytes)) (stands : tree.StandsFor listed file) :
    file = listed := by
  cases stands with
  | given => rfl
  | below located isDirectory =>
      have entry := entry?_eq_some_iff.mpr ⟨_, located, isDirectory⟩
      cases isFile.symm.trans entry

theorem not_searchFails_of_file {listed : Path} {bytes : Bytes}
    (isFile : tree.entry? listed = some (.file bytes)) (failure : Failure) :
    ¬tree.SearchFails listed failure := by
  obtain ⟨place, located, present⟩ := entry?_eq_some_iff.mp isFile
  exact exists_shaderFilesOf_eq_ok_iff.mp
    ⟨_, shaderFilesOf_eq_ok_iff.mpr ⟨place, located, .inl ⟨⟨bytes, present⟩, rfl⟩⟩⟩ failure

theorem shaderFiles_insert {before after : List Path} {listed input : Path} {bytes : Bytes}
    (isFile : tree.entry? listed = some (.file bytes)) (member : input ∈ before ++ after)
    (stands : tree.StandsFor input listed) :
    tree.shaderFiles (before ++ listed :: after) = tree.shaderFiles (before ++ after) := by
  have inserted (path : Path) :
      path ∈ before ++ listed :: after ↔ path = listed ∨ path ∈ before ++ after :=
    List.perm_middle.mem_iff.trans List.mem_cons
  cases outcome : tree.shaderFiles (before ++ after) with
  | error error =>
      rw [shaderFiles_eq_error_iff] at outcome ⊢
      exact (firstFault_insert_iff (not_searchFails_of_file isFile)).mpr outcome
  | ok files =>
      obtain ⟨existing, increasing, members⟩ := shaderFiles_eq_ok_iff.mp outcome
      refine shaderFiles_eq_ok_iff.mpr ⟨fun path isInput => ?_, increasing, fun file => ?_⟩
      · rcases (inserted path).mp isInput with rfl | isOther
        · exact not_searchFails_of_file isFile
        · exact existing path isOther
      · rw [members]
        constructor
        · rintro ⟨path, isOther, standsToo⟩
          exact ⟨path, (inserted path).mpr (.inr isOther), standsToo⟩
        · rintro ⟨path, isInput, standsToo⟩
          rcases (inserted path).mp isInput with rfl | isOther
          · -- What the listed file stands for is itself, which the other input stands for.
            exact ⟨input, member, eq_of_standsFor isFile standsToo ▸ stands⟩
          · exact ⟨path, isOther, standsToo⟩

end

/-- Either it is told of the first input that leads nowhere, or that the system refuses to search,
or just the files that the inputs stand for are found, each once and in order. -/
theorem shaderFiles_finds (tree : FileTree) (inputs : List Text) :
    (∀ failure, tree.shaderFiles (inputs.map Path.ofText) = .error failure ↔
      FirstFault tree.SearchFails (inputs.map Path.ofText) failure) ∧
    (∀ files, tree.shaderFiles (inputs.map Path.ofText) = .ok files ↔
      (∀ input ∈ inputs, ∀ failure, ¬tree.SearchFails (Path.ofText input) failure) ∧
      files.Pairwise (· < ·) ∧
      ∀ file, file ∈ files ↔ ∃ input ∈ inputs, tree.StandsFor (Path.ofText input) file) ∧
    (∀ others : List Text, (∀ input, input ∈ inputs ↔ input ∈ others) → ∀ files,
      tree.shaderFiles (inputs.map Path.ofText) = .ok files ↔
        tree.shaderFiles (others.map Path.ofText) = .ok files) ∧
    ∀ before after listed bytes, inputs = before ++ after →
      tree.entry? (Path.ofText listed) = some (.file bytes) →
      (∃ input ∈ inputs, tree.StandsFor (Path.ofText input) (Path.ofText listed)) →
      tree.shaderFiles ((before ++ listed :: after).map Path.ofText) =
        tree.shaderFiles (inputs.map Path.ofText) := by
  refine ⟨fun failure => shaderFiles_eq_error_iff, fun files => ?_, ?_, ?_⟩
  · rw [shaderFiles_eq_ok_iff]
    simp only [List.mem_map, exists_exists_and_eq_and, forall_exists_index, and_imp,
      forall_apply_eq_imp_iff₂]
  · intro others same files
    apply shaderFiles_eq_ok_congr
    intro path
    simp only [List.mem_map, same]
  · rintro before after listed bytes rfl isFile ⟨input, member, stands⟩
    rw [List.map_append, List.map_append, List.map_cons]
    refine shaderFiles_insert isFile ?_ stands
    rw [← List.map_append]
    exact List.mem_map_of_mem member

/-- Directories named like shaders, a file beside the directory that it is in, and inputs that
are spelled in other ways. -/
theorem shaderFiles_finds_each_once :
    let tree : FileTree := ⟨[], [
      (["b.metal", "a", "Shaders"].map String.toList, .file []),
      (["a", "Shaders"].map String.toList, .directory),
      (["a.metal", "Shaders"].map String.toList, .file []),
      (["x.metal", "Shaders"].map String.toList, .directory),
      (["notes", "Shaders"].map String.toList, .file []),
      (["Shaders"].map String.toList, .directory)], .usual⟩
    let found := ["Shaders/a/b.metal", "Shaders/a.metal", "Shaders/notes"].map Path.ofString
    let inputs := ["Shaders/", "./Shaders/notes"].map String.toList
    let listed := "Shaders//a.metal".toList
    tree.shaderFiles (inputs.map Path.ofText) = .ok found ∧
      tree.shaderFiles ((inputs.reverse ++ inputs).map Path.ofText) = .ok found ∧
      tree.shaderFiles ((inputs ++ [listed]).map Path.ofText) = .ok found := by
  intro tree found inputs listed
  have straight : tree.shaderFiles (inputs.map Path.ofText) = .ok found := by
    decide +kernel
  have isFile : tree.entry? (Path.ofText listed) = some (.file []) := by decide
  have below : tree.StandsFor (Path.ofString "Shaders/") (Path.ofText listed) := by
    have spelled : Path.ofText listed =
        (Path.ofString "Shaders/").append ["a.metal".toList] := by decide
    have located : tree.locate (Path.ofString "Shaders/") = .ok ["Shaders".toList] := by decide
    have walked : tree.walk ["Shaders".toList] ["a.metal".toList] =
        .ok ["a.metal".toList, "Shaders".toList] := by decide
    have present : tree.lookup ["a.metal".toList, "Shaders".toList] = some (.file []) := by decide
    rw [spelled]
    exact .below located (by decide) (by decide +kernel) (by decide +kernel) (by decide) rfl
      ⟨['a'], by decide⟩ walked present
  obtain ⟨-, -, reorder, insert⟩ := shaderFiles_finds tree inputs
  refine ⟨straight, (reorder _ (fun input => ?_) found).mp straight, ?_⟩
  · rw [List.mem_append, List.mem_reverse, or_self]
  · rw [insert inputs [] listed [] (List.append_nil inputs).symm isFile
      ⟨"Shaders/".toList, List.mem_cons_self, below⟩]
    exact straight

/-- A file with another suffix is found only if it is listed itself, and so is one that is
listed beside its directory by way of another one. -/
theorem shaderFiles_beside_directory :
    let tree : FileTree := ⟨[], [
      (["Basic.metal", "Shaders"].map String.toList, .file []),
      (["README.md", "Shaders"].map String.toList, .file []),
      (["Post", "Shaders"].map String.toList, .directory),
      (["Shaders"].map String.toList, .directory)], .usual⟩
    tree.shaderFiles (["Shaders"].map Path.ofString) =
        .ok (["Shaders/Basic.metal"].map Path.ofString) ∧
      tree.shaderFiles (["Shaders", "Shaders/README.md"].map Path.ofString) =
        .ok (["Shaders/Basic.metal", "Shaders/README.md"].map Path.ofString) ∧
      tree.shaderFiles (["Shaders", "Shaders/Post/../Basic.metal"].map Path.ofString) =
        .ok (["Shaders/Basic.metal", "Shaders/Post/../Basic.metal"].map Path.ofString) := by
  decide +kernel

end FileTree

end ShaderCatalog
