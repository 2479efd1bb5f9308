import ShaderCatalog.Proofs.Command.Generation
import ShaderCatalog.Proofs.Files.RepeatedWrites
import ShaderCatalog.Proofs.Files.UnseenChanges

namespace ShaderCatalog

/-! Code generated again right after it was generated. As long as the output is none of the
sources, the search and the sources are not disturbed by what the first generation has left,
and the second one changes nothing. -/

theorem Regeneration.answer?_eq {first again : Regeneration} {failure other : Failure}
    (failed : first.outcome = .error failure) (failedToo : again.outcome = .error other)
    (alike : other.isExpected = failure.isExpected) : again.answer? = first.answer? := by
  rw [answer?, answer?, failed, failedToo]
  simp only [alike]

namespace Request

section

variable {request : Request} {tree : FileTree} {code : Text} {output : Path}

theorem regenerate_of_code (coded : request.code tree = .ok code) :
    (request.regenerate tree output).tree = (tree.write output code).1 ∧
      (request.regenerate tree output).outcome = (tree.write output code).2 := by
  unfold regenerate
  rw [coded]
  simp only
  cases tree.write output code with
  | mk written outcome =>
      cases outcome with
      | ok _ => exact ⟨rfl, rfl⟩
      | error failure => exact ⟨rfl, rfl⟩

theorem exists_files_of_code (coded : request.code tree = .ok code) :
    ∃ files, request.files tree = .ok files := by
  obtain ⟨files, found, -⟩ := bind_eq_ok_iff.mp coded
  exact ⟨files, found⟩

end

theorem exists_files_of_keeps {request : Request} {before after : FileTree}
    (keeps : FileTree.Keeps before after) {files : List Path}
    (found : request.files before = .ok files)
    (searched : ∀ error path, request.files after ≠ .error (.refused error path)) :
    ∃ others, request.files after = .ok others := by
  cases foundAfter : request.files after with
  | ok others => exact ⟨others, rfl⟩
  | error failure =>
      obtain ⟨_, path, _, split, -, fails⟩ := FileTree.shaderFiles_eq_error_iff.mp foundAfter
      have member : path ∈ request.inputs := by
        rw [split]
        exact List.mem_append_right _ List.mem_cons_self
      cases fails with
      | missing unlocated =>
          obtain ⟨here, foundHere⟩ := FileTree.exists_shaderFilesOf_eq_ok_iff.mpr
            (FileTree.exists_shaderFiles_eq_ok_iff.mp ⟨files, found⟩ path member)
          obtain ⟨place, located, -⟩ := FileTree.shaderFilesOf_eq_ok_iff.mp foundHere
          cases unlocated.symm.trans (keeps.locate located)
      | refused => exact absurd foundAfter (searched _ _)
      | stopped => exact absurd foundAfter (searched _ _)

theorem code_eq_of_agreesBut {request : Request} {changed : Location → Prop}
    {before after : FileTree} (agrees : FileTree.AgreesBut changed before after)
    (treeProper : before.IsProper) (inputsProper : ∀ input ∈ request.inputs, input.IsProper)
    {files others : List Path} (found : request.files before = .ok files)
    (avoids : before.Avoids files changed) (foundAfter : request.files after = .ok others)
    (avoidsAfter : after.Avoids others changed) :
    request.code after = request.code before := by
  obtain rfl : others = files :=
    agrees.shaderFiles_eq inputsProper found avoids foundAfter avoidsAfter
  have delivered : request.deliveries after others = request.deliveries before others := by
    unfold deliveries FileTree.load
    rw [List.map_map, List.map_map]
    apply List.map_congr_left
    intro file member
    obtain ⟨input, isInput, place, bytes, present, collects⟩ :=
      FileTree.collects_of_mem_shaderFiles treeProper found member
    have inputProper := inputsProper input isInput
    have located := collects.locate inputProper
    exact agrees.deliver_eq (collects.isProper inputProper) located present
      (avoids file member place located) request.skipUnreadable
  rw [code_of_files foundAfter, code_of_files found, delivered]

section

variable {request : Request} {tree : FileTree} {output : Path} {code : Text}
  (closed : tree.IsClosed) (treeProper : tree.IsProper)
  (inputsRead : ∀ input ∈ request.inputs, input.IsRead)
  (coded : request.code tree = .ok code)

include treeProper inputsRead coded in
theorem isProper_of_code : ∀ input ∈ request.inputs, input.IsProper := by
  obtain ⟨files, found⟩ := exists_files_of_code coded
  intro input member
  obtain ⟨here, foundHere⟩ := FileTree.exists_shaderFilesOf_eq_ok_iff.mpr
    (FileTree.exists_shaderFiles_eq_ok_iff.mp ⟨files, found⟩ input member)
  obtain ⟨place, located, -⟩ := FileTree.shaderFilesOf_eq_ok_iff.mp foundHere
  exact FileTree.isProper_of_locate treeProper (inputsRead input member) located

variable (searched : ∀ error path,
  request.files (tree.write output code).1 ≠ .error (.refused error path))

include closed treeProper inputsRead coded searched

theorem code_write_of_error {failure : Failure}
    (failed : (tree.write output code).2 = .error failure) :
    request.code (tree.write output code).1 = .ok code := by
  obtain ⟨files, found⟩ := exists_files_of_code coded
  have adds := FileTree.addsDirectories_write_of_error failed
  obtain ⟨others, foundAfter⟩ := exists_files_of_keeps adds.keeps found searched
  rw [code_eq_of_agreesBut (adds.agreesBut closed) treeProper
    (isProper_of_code treeProper inputsRead coded) found (tree.avoids_nothing files) foundAfter
    (FileTree.avoids_nothing _ others), coded]

theorem code_write_of_ok (outputRead : output.IsRead)
    (succeeded : (tree.write output code).2 = .ok ())
    (apart : ∀ files, request.files tree = .ok files ∨
        request.files (tree.write output code).1 = .ok files →
      ∀ file ∈ files, (tree.write output code).1.locate file ≠
        (tree.write output code).1.locate output) :
    request.code (tree.write output code).1 = .ok code := by
  obtain ⟨files, found⟩ := exists_files_of_code coded
  obtain ⟨place, writes⟩ := FileTree.writesFile_write_of_ok succeeded
  obtain ⟨others, foundAfter⟩ := exists_files_of_keeps writes.keeps found searched
  have outputProper := outputRead.isProper (FileTree.nul_not_mem_of_write succeeded)
  have named : ∀ name ∈ place, IsPathName name := by
    intro name member
    rw [← FileTree.absolute_of_locate writes.located, writes.keeps.absolute] at member
    exact (FileTree.isPathName_of_mem_absolute treeProper outputProper member).1
  rw [code_eq_of_agreesBut (writes.agreesBut closed named) treeProper
    (isProper_of_code treeProper inputsRead coded) found ?_ foundAfter ?_, coded]
  · rintro file member _ located rfl
    exact apart files (.inl found) file member
      ((writes.keeps.locate located).trans writes.located.symm)
  · rintro file member _ located rfl
    exact apart others (.inr foundAfter) file member (located.trans writes.located.symm)

end

end Request

end ShaderCatalog
