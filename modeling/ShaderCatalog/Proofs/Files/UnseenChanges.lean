import ShaderCatalog.Proofs.Files.Closed
import ShaderCatalog.Proofs.Files.Loading

namespace ShaderCatalog

/-! Changes to a tree that a search for shader files does not see: new directories, and
whatever happens at places that no file of the search stands at. The files found are the
same, and they are loaded the same. -/

namespace FileTree

/-- Whether a tree shows the same as before but for new directories and what stands at the
changed places. -/
structure AgreesBut (changed : Location → Prop) (before after : FileTree) : Prop where
  closed : before.IsClosed
  keeps : Keeps before after
  kept : ∀ place, ¬changed place → after.lookup place = before.lookup place ∨
    before.lookup place = none ∧ after.lookup place = some .directory
  named : ∀ place, changed place → ∀ name ∈ place, IsPathName name

/-- Whether none of the paths leads to one of the places. -/
def Avoids (tree : FileTree) (paths : List Path) (changed : Location → Prop) : Prop :=
  ∀ path ∈ paths, ∀ place, tree.locate path = .ok place → ¬changed place

theorem AddsDirectories.agreesBut {path : Path} {before after : FileTree}
    (adds : AddsDirectories path before after) (closed : before.IsClosed) :
    AgreesBut (fun _ => False) before after where
  closed := closed
  keeps := adds.keeps
  kept := fun place _ => (adds.keptOrMade place).imp_right fun ⟨absent, added, _⟩ => ⟨absent, added⟩
  named := fun _ impossible => impossible.elim

theorem WritesFile.agreesBut {path : Path} {bytes : Bytes} {before after : FileTree}
    {place : Location} (writes : WritesFile path bytes before after place)
    (closed : before.IsClosed) (named : ∀ name ∈ place, IsPathName name) :
    AgreesBut (· = place) before after where
  closed := closed
  keeps := writes.keeps
  kept := fun other different =>
    (writes.keptOrMade other different).imp_right fun ⟨absent, added, _⟩ => ⟨absent, added⟩
  named := by
    rintro _ rfl
    exact named

theorem avoids_nothing (tree : FileTree) (paths : List Path) :
    tree.Avoids paths fun _ => False :=
  fun _ _ _ _ => id

theorem Avoids.mono {tree : FileTree} {paths fewer : List Path} {changed : Location → Prop}
    (avoids : tree.Avoids paths changed) (subset : fewer ⊆ paths) : tree.Avoids fewer changed :=
  fun path member => avoids path (subset member)

theorem pairwise_shadersBelow (tree : FileTree) (path : Path) (directory : Location) :
    (tree.shadersBelow path directory).Pairwise (· < ·) :=
  (pairwise_sortedSet _).filter _

namespace AgreesBut

variable {changed : Location → Prop} {before after : FileTree}
  (agrees : AgreesBut changed before after)

include agrees

theorem lookup_eq_file_iff {place : Location} (unchanged : ¬changed place) (bytes : Bytes) :
    after.lookup place = some (.file bytes) ↔ before.lookup place = some (.file bytes) := by
  rcases agrees.kept place unchanged with same | ⟨absent, added⟩
  · rw [same]
  · rw [absent, added]
    simp

section

variable {input : Path} (proper : input.IsProper)

include proper

theorem not_changed_of_isFound {tree : FileTree} {directory : Location} {names : List Text}
    (located : tree.locate input = .ok directory)
    (avoids : tree.Avoids ((tree.shadersBelow input directory).map input.append) changed)
    (found : tree.isFound input directory names = true) :
    ¬changed (names.reverse ++ directory) := by
  intro isChanged
  obtain ⟨-, spelled, leads⟩ := isFound_iff.mp found
  obtain ⟨-, -, bytes, walked, -⟩ := leadsToShader_iff.mp leads
  have namesNamed : ∀ name ∈ names, IsPathName name := fun name member =>
    agrees.named _ isChanged name (List.mem_append_left _ (List.mem_reverse.mpr member))
  have isFile : input.append names ∈ (tree.shadersBelow input directory).map input.append :=
    List.mem_map_of_mem (mem_shadersBelow_iff.mpr found)
  exact avoids _ isFile _ (locate_append proper namesNamed located spelled walked) isChanged

omit proper in
theorem leadsToShader_iff {directory : Location} {names : List Text}
    (unchanged : ¬changed (names.reverse ++ directory)) :
    after.leadsToShader directory names = true ↔ before.leadsToShader directory names = true := by
  rw [FileTree.leadsToShader_iff, FileTree.leadsToShader_iff]
  refine and_congr_right fun _ => and_congr_right fun straight => ?_
  constructor
  · rintro ⟨bytes, walked, present⟩
    have stood := (agrees.lookup_eq_file_iff unchanged bytes).mp present
    have stands : (before.lookup (names.reverse ++ directory)).isSome = true := by
      rw [stood, Option.isSome_some]
    exact ⟨bytes, walk_of_isSurrounded agrees.keeps.refusals.symm straight walked
      (agrees.closed _ stands) stands, stood⟩
  · rintro ⟨bytes, walked, stood⟩
    exact ⟨bytes, agrees.keeps.walk walked, (agrees.lookup_eq_file_iff unchanged bytes).mpr stood⟩

theorem shadersBelow_eq {directory : Location} (located : before.locate input = .ok directory)
    (avoids : before.Avoids ((before.shadersBelow input directory).map input.append) changed)
    (avoidsAfter : after.Avoids ((after.shadersBelow input directory).map input.append)
      changed) :
    after.shadersBelow input directory = before.shadersBelow input directory := by
  have locatedAfter := agrees.keeps.locate located
  apply (pairwise_shadersBelow after input directory).eq_of_mem_iff
    (pairwise_shadersBelow before input directory)
  intro names
  rw [mem_shadersBelow_iff, mem_shadersBelow_iff]
  by_cases isChanged : changed (names.reverse ++ directory)
  · refine iff_of_false (fun found => ?_) (fun found => ?_)
    · exact agrees.not_changed_of_isFound proper locatedAfter avoidsAfter found isChanged
    · exact agrees.not_changed_of_isFound proper located avoids found isChanged
  · rw [isFound_iff, isFound_iff, agrees.leadsToShader_iff isChanged, isListed, isListed,
      agrees.keeps.refusals]

theorem shaderFilesOf_eq {files others : List Path}
    (found : before.shaderFilesOf input = .ok files) (avoids : before.Avoids files changed)
    (foundAfter : after.shaderFilesOf input = .ok others)
    (avoidsAfter : after.Avoids others changed) : others = files := by
  obtain ⟨place, located, shown⟩ := shaderFilesOf_eq_ok_iff.mp found
  obtain ⟨same, locatedAfter, shownAfter⟩ := shaderFilesOf_eq_ok_iff.mp foundAfter
  rw [agrees.keeps.locate located] at locatedAfter
  cases locatedAfter
  rcases shown with ⟨⟨bytes, present⟩, rfl⟩ | ⟨isDirectory, -, rfl⟩
  · have unchanged := avoids input (List.mem_singleton_self input) place located
    have presentAfter := (agrees.lookup_eq_file_iff unchanged bytes).mpr present
    rcases shownAfter with ⟨-, rfl⟩ | ⟨isDirectory, -⟩
    · rfl
    · rw [presentAfter] at isDirectory
      cases isDirectory
  · have isDirectoryAfter := agrees.keeps.directory place isDirectory
    rcases shownAfter with ⟨⟨bytes, present⟩, -⟩ | ⟨-, -, rfl⟩
    · rw [isDirectoryAfter] at present
      cases present
    · rw [agrees.shadersBelow_eq proper located avoids avoidsAfter]

end

/-- A search that is not refused finds the same files again, if none of those that it finds,
the first time or again, stands at a changed place. -/
theorem shaderFiles_eq {inputs files others : List Path}
    (proper : ∀ input ∈ inputs, input.IsProper) (found : before.shaderFiles inputs = .ok files)
    (avoids : before.Avoids files changed) (foundAfter : after.shaderFiles inputs = .ok others)
    (avoidsAfter : after.Avoids others changed) : others = files := by
  obtain ⟨lists, collected, -⟩ := map_eq_ok_iff.mp found
  obtain ⟨otherLists, collectedAfter, -⟩ := map_eq_ok_iff.mp foundAfter
  have same : inputs.mapM after.shaderFilesOf = inputs.mapM before.shaderFilesOf := by
    apply mapM_congr
    intro input member
    obtain ⟨here, foundHere⟩ := exists_mapM_eq_ok_iff.mp ⟨lists, collected⟩ input member
    obtain ⟨there, foundThere⟩ := exists_mapM_eq_ok_iff.mp ⟨otherLists, collectedAfter⟩ input member
    rw [foundHere, foundThere,
      agrees.shaderFilesOf_eq (proper input member) foundHere
        (avoids.mono (subset_of_shaderFiles found member foundHere)) foundThere
        (avoidsAfter.mono (subset_of_shaderFiles foundAfter member foundThere))]
  rw [shaderFiles, same] at foundAfter
  exact Except.ok.inj (foundAfter.symm.trans found)

theorem deliver_eq {file : Path} (proper : file.IsProper) {place : Location} {bytes : Bytes}
    (located : before.locate file = .ok place) (present : before.lookup place = some (.file bytes))
    (unchanged : ¬changed place) (skipUnreadable : Bool) :
    after.deliver skipUnreadable file.toString = before.deliver skipUnreadable file.toString := by
  have presentAfter := (agrees.lookup_eq_file_iff unchanged bytes).mpr present
  simp only [deliver, readDocument, Path.ofString_toString proper, read_of_file located present,
    read_of_file (agrees.keeps.locate located) presentAfter]

end AgreesBut

end FileTree

end ShaderCatalog
