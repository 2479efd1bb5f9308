import ShaderCatalog.Command.Watch
import ShaderCatalog.Proofs.Files.Writing

namespace ShaderCatalog

/-! Code that a watching command generates is the code that the generating command
writes to a file. -/

namespace Request

theorem tree_regenerate (request : Request) (tree : FileTree) (output : Path)
    (console : Console) (verbose : Bool) :
    (request.regenerate tree output).tree =
      (generateCommand console tree request (some output) verbose).tree := by
  unfold regenerate generateCommand
  cases request.code tree with
  | error failure => rfl
  | ok code =>
      simp only
      cases tree.write output code with
      | mk written outcome =>
          cases outcome with
          | ok _ => rfl
          | error failure => rfl

theorem code_of_files_error {request : Request} {tree : FileTree} {failure : Failure}
    (failed : request.files tree = .error failure) : request.code tree = .error failure := by
  rw [code, failed]
  rfl

theorem regenerate_of_error {request : Request} {tree : FileTree} {output : Path}
    {failure : Failure} (failed : request.code tree = .error failure) :
    (request.regenerate tree output).tree = tree ∧
      (request.regenerate tree output).outcome = .error failure := by
  simp only [regenerate, failed, and_self]

theorem log_regenerate_of_exit {request : Request} {tree : FileTree} {output : Path}
    {console : Console} {verbose : Bool}
    (succeeded : (generateCommand console tree request (some output) verbose).ending = .exit 0) :
    Record.atLeast (logLevel verbose) (request.regenerate tree output).log =
      (generateCommand console tree request (some output) verbose).log := by
  have fails (failure : Failure) : (failureEnding failure).2 ≠ .exit 0 := by
    cases failure <;> simp [failureEnding, inputErrorCode, writeErrorCode]
  unfold regenerate
  unfold generateCommand at succeeded ⊢
  cases coded : request.code tree with
  | error failure =>
      rw [coded] at succeeded
      exact absurd succeeded (fails failure)
  | ok code =>
      rw [coded] at succeeded
      simp only at succeeded ⊢
      cases written : tree.write output code with
      | mk made outcome =>
          rw [written] at succeeded
          cases outcome with
          | ok _ => rfl
          | error failure => exact absurd succeeded (fails failure)

end Request

theorem addsDirectories_generateCommand {console : Console} {tree : FileTree}
    {request : Request} {path : Path} {verbose : Bool}
    (failed : (generateCommand console tree request (some path) verbose).ending ≠ .exit 0) :
    FileTree.AddsDirectories path.parent tree
      (generateCommand console tree request (some path) verbose).tree := by
  unfold generateCommand at failed ⊢
  cases coded : request.code tree with
  | error failure => exact .refl path.parent tree
  | ok code =>
      rw [coded] at failed
      simp only at failed ⊢
      cases written : tree.write path code with
      | mk made outcome =>
          rw [written] at failed
          cases outcome with
          | ok _ => exact absurd rfl failed
          | error failure =>
              have refused : (tree.write path code).2 = .error failure := by rw [written]
              have adds := FileTree.addsDirectories_write_of_error refused
              rw [written] at adds
              exact adds

end ShaderCatalog
