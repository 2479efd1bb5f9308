import ShaderCatalog.Program.Pipe
import ShaderCatalog.Proofs.Command.Regeneration
import ShaderCatalog.Proofs.Files.FoundFiles
import ShaderCatalog.Proofs.Files.Loading
import ShaderCatalog.Proofs.Swift.ReadBack

namespace ShaderCatalog

/-! The generating command does all that it is asked or leaves every file as it is, and
its exit code tells which. -/

theorem Delivery.isProper_of_gather {deliveries : List Delivery} {catalog : Catalog}
    (gathered : gather deliveries = .ok catalog) : catalog.IsProper := by
  have resolved (group name : Text) (listed : catalog.Lists group name) :
      ∃ document : Document, document.Resolves group name := by
    obtain ⟨delivery, _, delivered, found, lists⟩ := (lists_gather gathered group name).mp listed
    cases delivery with
    | loaded document => exact ⟨document, delivered, catalog_loaded_eq_ok_iff.mp found, lists⟩
    | skipped error =>
        cases found
        exact absurd lists (Catalog.lists_empty group name)
    | failed failure => cases found
  constructor
  case isAlpha =>
    intro group name listed
    obtain ⟨document, resolves⟩ := resolved group name listed
    exact resolves.isGroupName.isAlpha
  case isIdentifier =>
    intro group name listed
    obtain ⟨document, resolves⟩ := resolved group name listed
    exact resolves.isIdentifier

theorem Catalog.IsProper.escape_not_mem_generate {catalog : Catalog} (proper : catalog.IsProper)
    {module : Text} (plain : Console.escape ∉ module) :
    Console.escape ∉ generate catalog module := by
  rw [generate_eq, codeOf]
  split
  next => decide
  next =>
    intro member
    obtain ⟨line, isLine, inLine⟩ := List.mem_flatMap.mp member
    have free := isControl_not_mem_codeLines (by decide) plain fun shown isShown =>
      have isSection := proper.isSection shown isShown
      ⟨isSection.not_mem (by decide),
        fun name isName => (isSection.isIdentifier name isName).not_mem (by decide)⟩
    rcases List.mem_append.mp inLine with inWords | isEnd
    · exact free line isLine inWords
    · exact absurd (List.mem_singleton.mp isEnd) (by decide)

namespace Request

/-- Why a request fails before anything is written: the inputs cannot be searched, or one of
the files that they stand for cannot be used. -/
inductive InputFault (request : Request) (tree : FileTree) : Prop where
  | unsearched {failure : Failure} (failed : request.files tree = .error failure)
  | source {files : List Path} {file : Path} (found : request.files tree = .ok files)
      (member : file ∈ files) (fault : tree.SourceFault request.skipUnreadable file)

/-- How writing the code of a request to a path fails. -/
def FailsToWrite (request : Request) (tree : FileTree) (path : Path) (failure : Failure) : Prop :=
  ∃ code, request.code tree = .ok code ∧ (tree.write path code).2 = .error failure

theorem code_of_files {request : Request} {tree : FileTree} {files : List Path}
    (found : request.files tree = .ok files) :
    request.code tree = generateFrom (request.deliveries tree files) request.module := by
  rw [code, found]
  rfl

theorem exists_catalog_of_code {request : Request} {tree : FileTree} {code : Text}
    (coded : request.code tree = .ok code) :
    ∃ catalog : Catalog, catalog.IsProper ∧ code = generate catalog request.module := by
  obtain ⟨files, -, generated⟩ := bind_eq_ok_iff.mp coded
  obtain ⟨catalog, gathered, same⟩ := map_eq_ok_iff.mp generated
  exact ⟨catalog, Delivery.isProper_of_gather gathered, same.symm⟩

theorem exitCode_of_files {request : Request} {tree : FileTree} {failure : Failure}
    (failed : request.files tree = .error failure) :
    (failureEnding failure).2.exitCode = 1 := by
  obtain ⟨_, path, _, _, _, fails⟩ := FileTree.shaderFiles_eq_error_iff.mp failed
  cases fails <;> rfl

section

variable {request : Request} {tree : FileTree}
  (inputsProper : ∀ input ∈ request.inputs, input.IsProper) (treeProper : tree.IsProper)

include inputsProper treeProper

theorem isProper_of_mem_files {files : List Path} (found : request.files tree = .ok files)
    {file : Path} (member : file ∈ files) : file.IsProper := by
  obtain ⟨input, isInput, place, bytes, _, collects⟩ :=
    FileTree.collects_of_mem_shaderFiles treeProper found member
  exact collects.isProper (inputsProper input isInput)

theorem exists_code_eq_ok_iff :
    (∃ code, request.code tree = .ok code) ↔ ¬request.InputFault tree := by
  cases found : request.files tree with
  | error failure =>
      refine iff_of_false ?_ fun sound => sound (.unsearched found)
      rintro ⟨code, coded⟩
      rw [Request.code, found] at coded
      cases coded
  | ok files =>
      rw [code_of_files found, exists_generateFrom_eq_ok_iff, deliveries, FileTree.load,
        List.map_map, List.forall_mem_map]
      have usable (file : Path) (member : file ∈ files) :=
        tree.exists_catalog_deliver_iff
          (isProper_of_mem_files inputsProper treeProper found member) request.skipUnreadable
      constructor
      · rintro delivered (failed | ⟨foundToo, member, fault⟩)
        · rw [found] at failed
          cases failed
        · rw [found] at foundToo
          cases foundToo
          exact (usable _ member).mp (delivered _ member) fault
      · intro sound file member
        exact (usable file member).mpr fun fault => sound (.source found member fault)

theorem exitCode_of_code {failure : Failure} (failed : request.code tree = .error failure) :
    (failureEnding failure).2.exitCode = 1 := by
  cases found : request.files tree with
  | error other =>
      rw [Request.code, found] at failed
      cases failed
      exact exitCode_of_files found
  | ok files =>
      rw [code_of_files found, generateFrom_eq_error_iff] at failed
      obtain ⟨before, delivery, after, split, -, fails⟩ := failed
      have isDelivery : delivery ∈ request.deliveries tree files := by
        rw [split]
        exact List.mem_append_right before List.mem_cons_self
      rw [deliveries, FileTree.load, List.map_map] at isDelivery
      obtain ⟨file, member, delivered⟩ := List.mem_map.mp isDelivery
      rcases tree.deliver_toString
          (isProper_of_mem_files inputsProper treeProper found member) request.skipUnreadable with
        ⟨content, _, loaded⟩ | ⟨_, error, refused⟩
      · rw [Function.comp, loaded] at delivered
        cases delivered
        cases fails
        rfl
      · rw [Function.comp, refused] at delivered
        split at delivered
        · cases delivered
          cases fails
        · cases delivered
          cases fails
          rfl

end

end Request

/-- The courses that a run of the generating command can take. -/
inductive Course (console : Console) (tree : FileTree) (request : Request)
    (output : Option Path) (result : CommandResult) : Prop where
  | faulty (fault : request.InputFault tree) (ending : result.ending.exitCode = 1)
      (silent : result.output = []) (unchanged : result.tree = tree)
  | printed {code : Text} (sound : ¬request.InputFault tree) (coded : request.code tree = .ok code)
      (given : output = none) (ending : result.ending = .exit 0)
      (shown : result.output = console.shown code) (unchanged : result.tree = tree)
  | written {path : Path} {code : Text} (sound : ¬request.InputFault tree)
      (coded : request.code tree = .ok code) (given : output = some path)
      (succeeded : (tree.write path code).2 = .ok ()) (ending : result.ending = .exit 0)
      (silent : result.output = []) (left : result.tree = (tree.write path code).1)
  | unwritten {path : Path} {code : Text} {failure : Failure} (sound : ¬request.InputFault tree)
      (coded : request.code tree = .ok code) (given : output = some path)
      (failed : (tree.write path code).2 = .error failure)
      (fails : FileTree.WriteFails path failure) (ending : result.ending = (failureEnding failure).2)
      (silent : result.output = []) (left : result.tree = (tree.write path code).1)

theorem course_generateCommand (console : Console) {tree : FileTree} {request : Request}
    {output : Option Path} (treeProper : tree.IsProper)
    (inputsProper : ∀ input ∈ request.inputs, input.IsProper)
    (outputProper : ∀ path ∈ output, path.IsProper) (verbose : Bool) :
    Course console tree request output (generateCommand console tree request output verbose) := by
  have sound_iff := Request.exists_code_eq_ok_iff inputsProper treeProper
  cases coded : request.code tree with
  | error failure =>
      have fault : request.InputFault tree := by
        by_contra sound
        obtain ⟨code, succeeded⟩ := sound_iff.mpr sound
        rw [coded] at succeeded
        cases succeeded
      have ending := Request.exitCode_of_code inputsProper treeProper coded
      apply Course.faulty fault
      all_goals simp only [generateCommand, coded, ending]
  | ok code =>
      have sound : ¬request.InputFault tree := sound_iff.mp ⟨code, coded⟩
      cases output with
      | none =>
          apply Course.printed sound coded rfl
          all_goals simp only [generateCommand, coded]
      | some path =>
          cases outcome : tree.write path code with
          | mk made written =>
              cases written with
              | ok _ =>
                  apply Course.written sound coded rfl
                  all_goals simp only [generateCommand, coded, outcome]
              | error failure =>
                  have failed : (tree.write path code).2 = .error failure := by rw [outcome]
                  have clean := Path.names_clean (outputProper path rfl)
                  apply Course.unwritten sound coded rfl failed
                    (FileTree.writeFails_of_write clean failed)
                  all_goals simp only [generateCommand, coded, outcome]

namespace Course

variable {console : Console} {tree : FileTree} {request : Request} {output : Option Path}
  {result : CommandResult} (course : Course console tree request output result)

include course

theorem exitCode_cases :
    result.ending.exitCode = 0 ∨ result.ending.exitCode = 1 ∨ result.ending.exitCode = 2 := by
  cases course with
  | faulty _ ending => exact Or.inr (Or.inl ending)
  | printed _ _ _ ending => exact Or.inl (by rw [ending]; rfl)
  | written _ _ _ _ ending => exact Or.inl (by rw [ending]; rfl)
  | unwritten _ _ _ _ fails ending =>
      cases fails with
      | unwritable fault => exact Or.inr (Or.inr (by rw [ending]; rfl))
      | unencodable reason => exact Or.inr (Or.inl (by rw [ending]; rfl))

theorem exitCode_eq_one_iff :
    result.ending.exitCode = 1 ↔ request.InputFault tree ∨
      ∃ path reason, output = some path ∧ request.FailsToWrite tree path (.unencodable reason) := by
  cases course with
  | faulty fault ending => exact iff_of_true ending (Or.inl fault)
  | printed sound _ given ending =>
      exact iff_of_false (by simp [ending, Ending.exitCode]) (by simp [sound, given])
  | written sound coded given succeeded ending =>
      refine iff_of_false (by simp [ending, Ending.exitCode]) ?_
      simp [sound, given, Request.FailsToWrite, coded, succeeded]
  | @unwritten path code failure sound coded given failed fails ending =>
      simp only [sound, given, ending, Request.FailsToWrite, coded, false_or, Option.some.injEq,
        Except.ok.injEq, exists_eq_left', exists_and_left, failed, Except.error.injEq]
      cases fails <;> simp [failureEnding, Ending.exitCode, writeErrorCode]

theorem exitCode_eq_two_iff :
    result.ending.exitCode = 2 ↔ ¬request.InputFault tree ∧
      ∃ path error, output = some path ∧ request.FailsToWrite tree path (.unwritable error) := by
  cases course with
  | faulty fault ending => exact iff_of_false (by simp [ending]) fun refused => refused.1 fault
  | printed _ _ given ending =>
      exact iff_of_false (by simp [ending, Ending.exitCode]) (by simp [given])
  | written _ coded given succeeded ending =>
      refine iff_of_false (by simp [ending, Ending.exitCode]) ?_
      simp [given, Request.FailsToWrite, coded, succeeded]
  | @unwritten path code failure sound coded given failed fails ending =>
      simp only [sound, given, ending, Request.FailsToWrite, coded, not_false_eq_true, true_and,
        Option.some.injEq, Except.ok.injEq, exists_eq_left', exists_and_left, failed,
        Except.error.injEq]
      cases fails <;> simp [failureEnding, Ending.exitCode, writeErrorCode]

theorem unchanged_of_inputFault (fault : request.InputFault tree) : result.tree = tree := by
  cases course with
  | faulty _ _ _ unchanged => exact unchanged
  | printed sound => exact absurd fault sound
  | written sound => exact absurd fault sound
  | unwritten sound => exact absurd fault sound

theorem files_of_failure (failed : result.ending.exitCode ≠ 0) :
    result.output = [] ∧ ∀ place bytes, result.tree.lookup place = some (.file bytes) ↔
      tree.lookup place = some (.file bytes) := by
  cases course with
  | faulty _ _ silent unchanged =>
      rw [unchanged]
      exact ⟨silent, fun _ _ => Iff.rfl⟩
  | printed _ _ _ ending => exact absurd (by rw [ending]; rfl) failed
  | written _ _ _ _ ending => exact absurd (by rw [ending]; rfl) failed
  | unwritten _ _ _ failedToo _ _ silent left =>
      rw [left]
      exact ⟨silent, (FileTree.addsDirectories_write_of_error failedToo).lookup_eq_file_iff⟩

theorem unchanged_of_zero (exited : result.ending.exitCode = 0) (given : output = none) :
    result.tree = tree ∧ ∃ code, request.code tree = .ok code ∧
      result.output = console.shown code := by
  cases course with
  | faulty _ ending => simp [ending] at exited
  | printed _ coded _ _ shown unchanged => exact ⟨unchanged, _, coded, shown⟩
  | written _ _ givenPath => simp [given] at givenPath
  | unwritten _ _ givenPath => simp [given] at givenPath

theorem writes_of_zero (exited : result.ending.exitCode = 0) {path : Path}
    (given : output = some path) :
    result.output = [] ∧ ∃ code, request.code tree = .ok code ∧
      ∃ place, FileTree.WritesFile path (Utf8.encode code) tree result.tree place := by
  cases course with
  | faulty _ ending => simp [ending] at exited
  | printed _ _ givenNone => simp [given] at givenNone
  | written _ coded givenPath succeeded _ silent left =>
      rw [given] at givenPath
      cases givenPath
      rw [left]
      exact ⟨silent, _, coded, FileTree.writesFile_write_of_ok succeeded⟩
  | unwritten _ _ _ _ fails ending =>
      rw [ending] at exited
      cases fails with
      | unwritable => cases exited
      | unencodable => cases exited

end Course

theorem generateCommand_none_of_code (console : Console) {tree : FileTree} {request : Request}
    {code : Text} (coded : request.code tree = .ok code) (verbose : Bool) :
    let printed := generateCommand console tree request none verbose
    printed.ending = .exit 0 ∧ printed.tree = tree ∧ printed.output = console.shown code := by
  simp only [generateCommand, coded, and_self]

theorem shown_code {console : Console} (plain : console.KeepsPlainText) {tree : FileTree}
    {request : Request} {code : Text} (coded : request.code tree = .ok code)
    (kept : code = emptyCode ∨ Console.escape ∉ request.module) : console.shown code = code := by
  rcases kept with rfl | free
  · exact plain _ (by decide)
  · obtain ⟨catalog, proper, rfl⟩ := Request.exists_catalog_of_code coded
    exact plain _ (proper.escape_not_mem_generate free)

def oneShader : FileTree :=
  ⟨[], [(["a.metal".toList], .file (Utf8.encode "kernel void k(int i)".toList))], .usual⟩

end ShaderCatalog
