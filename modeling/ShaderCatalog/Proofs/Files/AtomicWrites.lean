import Mathlib.Data.List.Induction
import ShaderCatalog.Proofs.Files.Writing

namespace ShaderCatalog.FileTree

/-! Series of writes. Each of them puts its whole text at its target or changes no file,
so that what stands anywhere in the end was there before, is a directory on the way to a
target, or is the text of a write that succeeded. -/

def afterWrites (tree : FileTree) (writes : List (Path × Text)) : FileTree :=
  writes.foldl (fun tree write => (tree.write write.1 write.2).1) tree

theorem afterWrites_concat (tree : FileTree) (writes : List (Path × Text)) (path : Path)
    (text : Text) :
    tree.afterWrites (writes ++ [(path, text)]) =
      ((tree.afterWrites writes).write path text).1 := by
  simp [afterWrites]

/-- How a place has come to look as it does after a series of writes. -/
inductive PlaceHistory (tree : FileTree) (writes : List (Path × Text)) (place : Location) :
    Prop where
  | kept (same : (tree.afterWrites writes).lookup place = tree.lookup place)
  | made {path directory : Path} {text : Text} (absent : tree.lookup place = none)
      (added : (tree.afterWrites writes).lookup place = some .directory)
      (member : (path, text) ∈ writes) (isPrefix : directory.parts <+: path.parent.parts)
      (located : (tree.afterWrites writes).locate directory = .ok place)
  | written {earlier later : List (Path × Text)} {path : Path} {text : Text}
      (split : writes = earlier ++ (path, text) :: later)
      (succeeded : ((tree.afterWrites earlier).write path text).2 = .ok ())
      (located : (tree.afterWrites writes).locate path = .ok place)
      (holds : (tree.afterWrites writes).lookup place = some (.file (Utf8.encode text)))

theorem PlaceHistory.concat {tree : FileTree} {writes : List (Path × Text)} {path : Path}
    {text : Text} {place : Location} (history : PlaceHistory tree writes place)
    (keeps : Keeps (tree.afterWrites writes) (tree.afterWrites (writes ++ [(path, text)])))
    (keptOrMade : KeptOrMade path.parent (tree.afterWrites writes)
      (tree.afterWrites (writes ++ [(path, text)])) place) :
    PlaceHistory tree (writes ++ [(path, text)]) place := by
  rcases keptOrMade with unchanged | ⟨absent, added, directory, isPrefix, located⟩
  · cases history with
    | kept same => exact .kept (unchanged.trans same)
    | made absent added member isPrefix located =>
        exact .made absent (unchanged.trans added) (List.mem_append_left _ member) isPrefix
          (keeps.locate located)
    | @written earlier later other words split succeeded located holds =>
        have longer : writes ++ [(path, text)] =
            earlier ++ (other, words) :: (later ++ [(path, text)]) := by
          rw [split, List.append_assoc, List.cons_append]
        exact .written longer succeeded (keeps.locate located) (unchanged.trans holds)
  · cases history with
    | kept same =>
        exact .made (same.symm.trans absent) added
          (List.mem_append_right _ (List.mem_singleton_self _)) isPrefix located
    | made _ stood =>
        rw [absent] at stood
        contradiction
    | written _ _ _ stood =>
        rw [absent] at stood
        contradiction

theorem placeHistory_afterWrites (tree : FileTree) (writes : List (Path × Text))
    (place : Location) : PlaceHistory tree writes place := by
  -- From the end of the series: the history before the last write, then what that one did.
  induction writes using List.reverseRecOn with
  | nil => exact .kept rfl
  | append_singleton writes write induction =>
      obtain ⟨path, text⟩ := write
      have step := afterWrites_concat tree writes path text
      cases outcome : ((tree.afterWrites writes).write path text).2 with
      | error failure =>
          have adds := addsDirectories_write_of_error outcome
          rw [← step] at adds
          exact induction.concat adds.keeps (adds.keptOrMade place)
      | ok _ =>
          obtain ⟨target, wrote⟩ := writesFile_write_of_ok outcome
          rw [← step] at wrote
          by_cases same : place = target
          · subst same
            exact .written rfl outcome wrote.located wrote.written
          · exact induction.concat wrote.keeps (wrote.keptOrMade place same)

/-- Every write of a series is atomic, wherever it is stopped, and nothing else is ever left
behind. -/
theorem afterWrites_atomic (tree : FileTree) (writes : List (Path × Text)) :
    (∀ earlier path text later, writes = earlier ++ (path, text) :: later →
      let before := tree.afterWrites earlier
      let after := tree.afterWrites (earlier ++ [(path, text)])
      let outcome := (before.write path text).2
      (outcome = .ok () → ∃ place, WritesFile path (Utf8.encode text) before after place) ∧
      (∀ failure, outcome = .error failure →
        AddsDirectories path.parent before after ∧
        ∀ place bytes, after.lookup place = some (.file bytes) ↔
          before.lookup place = some (.file bytes)) ∧
      (before.isDirectory path.parent = true → path.names.any (·.contains nul) = false →
        (outcome = .ok () ↔ before.Admits path text))) ∧
    ∀ place, PlaceHistory tree writes place := by
  refine ⟨?_, placeHistory_afterWrites tree writes⟩
  intro earlier path text later _ before after outcome
  have step : after = (before.write path text).1 := afterWrites_concat tree earlier path text
  rw [step]
  refine ⟨writesFile_write_of_ok, fun failure failed => ?_, fun present clean => ?_⟩
  · have adds := addsDirectories_write_of_error failed
    exact ⟨adds, adds.lookup_eq_file_iff⟩
  · exact write_eq_ok_iff clean present

end ShaderCatalog.FileTree
