import ShaderCatalog.Proofs.Files.Writing

namespace ShaderCatalog

/-! A write made again. It finds the directories that the first one made and the file that
it wrote, or is refused like the first, and so has nothing left to change. -/

theorem Path.size_parent_le (path : Path) : path.parent.size ≤ path.size := by
  obtain ⟨last, split⟩ := path.parts_parent_prefix
  have parts := congrArg (fun parts => byteLength parts.flatten) split
  simp only [byteLength, Utf8.encode, List.flatten_append, List.flatMap_append,
    List.length_append] at parts
  have names : path.parent.names.length ≤ path.names.length := by
    rw [names_parent, List.length_dropLast]
    exact Nat.sub_le _ _
  rw [size, size, byteLength, byteLength, Utf8.encode, Utf8.encode, ← parts]
  omega

theorem Refusals.path_parent_eq_none {refusals : Refusals} {path : Path}
    (spelled : refusals.path path = none) : refusals.path path.parent = none := by
  unfold Refusals.path at spelled ⊢
  cases limit : refusals.pathLimit with
  | none => rfl
  | some limit =>
      have size := path.size_parent_le
      simp_all
      omega

namespace FileTree

section

variable {tree made : FileTree} {path : Path}

theorem isDirectory_parent_of_locate {name : Text} {place : Location}
    (last : path.names.getLast? = some name) (located : tree.locate path = .ok place) :
    tree.isDirectory path.parent = true := by
  obtain ⟨spelled, walked⟩ := locate_eq_ok_iff.mp located
  obtain ⟨around, locatedAround, entered⟩ := exists_locateAround last walked
  refine isDirectory_iff.mpr ⟨around, ?_, (enter_eq_ok_iff.mp entered).1⟩
  rw [locate_eq_ok_iff, origin_parent]
  exact ⟨Refusals.path_parent_eq_none spelled, locatedAround⟩

theorem isDirectory_parent (present : tree.isDirectory path = true) :
    tree.isDirectory path.parent = true := by
  obtain ⟨place, located, isDirectory⟩ := isDirectory_iff.mp present
  cases last : path.names.getLast? with
  | none =>
      obtain ⟨spelled, walked⟩ := locate_eq_ok_iff.mp located
      rw [walk_of_unnamed last, locateAround, ← origin_parent] at walked
      exact isDirectory_iff.mpr
        ⟨place, locate_eq_ok_iff.mpr ⟨Refusals.path_parent_eq_none spelled, walked⟩, isDirectory⟩
  | some name => exact isDirectory_parent_of_locate last located

theorem makeDirectoryIfMissing_eq_some {refusal : SystemError × Path}
    (refused : tree.makeDirectoryIfMissing path = (made, some refusal)) : made = tree := by
  unfold makeDirectoryIfMissing at refused
  split at refused
  next => cases refused
  next =>
    split at refused
    next =>
      split at refused
      next => cases refused
      next =>
        cases refused
        rfl
    next =>
      cases refused
      rfl

theorem isDirectory_parent_of_makeDirectoryIfMissing
    (done : tree.makeDirectoryIfMissing path = (made, none)) :
    tree.isDirectory path.parent = true := by
  unfold makeDirectoryIfMissing at done
  split at done
  next created =>
    obtain ⟨name, around, -, -, spelled, located, isDirectory, -⟩ := makeDirectory_eq_ok created
    rw [locateAround, ← origin_parent] at located
    exact isDirectory_iff.mpr
      ⟨around, locate_eq_ok_iff.mpr ⟨Refusals.path_parent_eq_none spelled, located⟩, isDirectory⟩
  next =>
    split at done
    next place located =>
      split at done
      next present => exact isDirectory_parent (isDirectory_iff.mpr ⟨place, located, present⟩)
      next => cases done
    next => cases done

theorem makeDirectories_of_parent_refused (named : path.names ≠ []) {refusal : SystemError × Path}
    (refused : tree.makeDirectories path.parent = (tree, some refusal)) :
    ∃ again, tree.makeDirectories path = (tree, some again) := by
  cases outcome : tree.makeDirectoryIfMissing path with
  | mk made answer =>
      cases answer with
      | none =>
          have present := isDirectory_parent_of_makeDirectoryIfMissing outcome
          rw [makeDirectories_of_isDirectory present] at refused
          cases refused
      | some fault =>
          obtain rfl := makeDirectoryIfMissing_eq_some outcome
          rw [makeDirectories, outcome]
          split
          next => exact ⟨refusal, by rw [dif_neg named, refused]⟩
          next => exact ⟨fault, rfl⟩

theorem makeDirectories_of_refused (present : tree.isDirectory path.parent = true)
    {refusal : SystemError × Path}
    (refused : tree.makeDirectoryIfMissing path = (tree, some refusal)) :
    ∃ again, tree.makeDirectories path = (tree, some again) := by
  rw [makeDirectories, refused]
  split
  next =>
    split
    next => exact ⟨_, rfl⟩
    next =>
      rw [makeDirectories_of_isDirectory present]
      exact ⟨refusal, refused⟩
  next => exact ⟨refusal, rfl⟩

/-- Directories that could not be made cannot be made from those that were. -/
theorem makeDirectories_again {refusal : SystemError × Path}
    (refused : tree.makeDirectories path = (made, some refusal)) :
    ∃ again, made.makeDirectories path = (made, some again) := by
  induction depth : path.names.length using Nat.strongRecOn generalizing path refusal with
  | _ depth induction =>
      subst depth
      have first := refused
      rw [makeDirectories] at refused
      split at refused
      next =>
        split at refused
        next =>
          cases refused
          exact ⟨_, first⟩
        next named =>
          have shorter := Path.length_names_parent_lt named
          split at refused
          next failed =>
            cases refused
            obtain ⟨again, parentRefused⟩ := induction _ shorter failed rfl
            exact makeDirectories_of_parent_refused named parentRefused
          next around succeeded =>
            obtain rfl := makeDirectoryIfMissing_eq_some refused
            have present := (makeDirectories_makes tree path.parent).2
            rw [succeeded] at present
            exact makeDirectories_of_refused (present rfl) refused
      next =>
        obtain rfl := makeDirectoryIfMissing_eq_some refused
        exact ⟨_, first⟩

end

section

variable {tree : FileTree} {path : Path} {text : Text}

theorem names_clean_of_write (succeeded : (tree.write path text).2 = .ok ()) :
    path.names.any (·.contains nul) = false := by
  by_contra dirty
  rw [Bool.not_eq_false] at dirty
  cases parentNul : path.parent.names.any (·.contains nul) with
  | true =>
      rw [write_of_nul_in_parent parentNul] at succeeded
      cases succeeded
  | false =>
      cases outcome : tree.makeDirectories path.parent with
      | mk made refusal =>
          cases refusal with
          | some refusal =>
              rw [write_of_refused parentNul outcome] at succeeded
              cases succeeded
          | none =>
              rw [write_of_nul parentNul outcome dirty] at succeeded
              cases succeeded

theorem nul_not_mem_of_write (succeeded : (tree.write path text).2 = .ok ()) :
    ∀ name ∈ path.names, nul ∉ name := by
  have clean := names_clean_of_write succeeded
  rw [List.any_eq_false] at clean
  exact fun name member => by simpa using clean name member

theorem write_again_of_error {failure : Failure}
    (failed : (tree.write path text).2 = .error failure) :
    ∃ again, (tree.write path text).1.write path text = ((tree.write path text).1, .error again) ∧
      again.isExpected = failure.isExpected := by
  cases parentNul : path.parent.names.any (·.contains nul) with
  | true =>
      have nothing : tree.write path text = (tree, .error .nulInPath) :=
        write_of_nul_in_parent parentNul
      rw [nothing] at failed
      cases failed
      exact ⟨.nulInPath, by rw [nothing, nothing], rfl⟩
  | false =>
      cases outcome : tree.makeDirectories path.parent with
      | mk made refusal =>
          cases refusal with
          | some refusal =>
              rw [write_of_refused parentNul outcome] at failed ⊢
              cases failed
              obtain ⟨again, refused⟩ := makeDirectories_again outcome
              exact ⟨_, write_of_refused parentNul refused, rfl⟩
          | none =>
              have present := (makeDirectories_makes tree path.parent).2
              rw [outcome] at present
              have nothing := makeDirectories_of_isDirectory (present rfl)
              cases clean : path.names.any (·.contains nul) with
              | true =>
                  rw [write_of_nul parentNul outcome clean] at failed ⊢
                  cases failed
                  exact ⟨_, write_of_nul parentNul nothing clean, rfl⟩
              | false =>
                  obtain ⟨around, located, -, written⟩ :=
                    write_of_made parentNul outcome clean
                  obtain ⟨aroundToo, locatedToo, -, again⟩ :=
                    write_of_made parentNul nothing clean
                  cases located.symm.trans locatedToo
                  rw [written text] at failed ⊢
                  rcases writeAround_cases located text with
                    ⟨-, put⟩ | ⟨-, other, -, refused⟩
                  · rw [put] at failed
                    cases failed
                  · rw [refused] at failed ⊢
                    cases failed
                    exact ⟨_, (again text).trans refused, rfl⟩

theorem lookup_put_of_file {place : Location} {bytes : Bytes}
    (present : tree.lookup place = some (.file bytes)) (other : Location) :
    (tree.put place (.file bytes)).lookup other = tree.lookup other := by
  by_cases same : place = other
  · rw [← same, present, lookup_put_self (not_suffix_of_lookup_ne (by simp [present]))]
  · exact lookup_put_of_ne same

theorem write_again_of_ok (succeeded : (tree.write path text).2 = .ok ()) :
    let written := (tree.write path text).1
    (written.write path text).2 = .ok () ∧
      (written.write path text).1.workingDirectory = written.workingDirectory ∧
      (written.write path text).1.refusals = written.refusals ∧
      ∀ place, (written.write path text).1.lookup place = written.lookup place := by
  have clean := names_clean_of_write succeeded
  obtain ⟨target, writes⟩ := writesFile_write_of_ok succeeded
  rcases write_cases tree path text with ⟨made, failure, refused, -⟩ |
    ⟨made, around, outcome, adds, located, isDirectory, admits⟩
  · rw [refused] at succeeded
    cases succeeded
  · have same : (made.put (made.absolute path) (.file (Utf8.encode text))).lookup
        (made.absolute path) = some (.file (Utf8.encode text)) :=
      lookup_put_self (not_suffix_of_lookup_ne admits.noDirectory)
    rw [outcome] at writes ⊢
    obtain ⟨written, writtenEq⟩ :
        ∃ written, made.put (made.absolute path) (.file (Utf8.encode text)) = written := ⟨_, rfl⟩
    rw [writtenEq] at same writes
    intro again
    have againEq : again = written := writtenEq
    rw [againEq]
    have keeps : Keeps made written := writtenEq ▸ keeps_put admits.noDirectory
    have present : written.isDirectory path.parent = true := by
      obtain ⟨name, outer, -, last⟩ := exists_eq_cons_of_file writes.located writes.written
      exact isDirectory_parent_of_locate last writes.located
    -- Nothing stands in the way that did not before, and the target is a file now.
    have admitsAgain : written.Admits path text := by
      constructor
      case create => rw [keeps.refusals, keeps.absolute, admits.create]
      case fill => rw [keeps.refusals, keeps.absolute, admits.fill]
      case spell => rw [keeps.refusals, admits.spell]
      case name => rw [keeps.refusals, keeps.absolute, admits.name]
      case replace => rw [keeps.refusals, keeps.absolute, admits.replace]
      case noDirectory =>
        rw [keeps.absolute, same]
        simp
    obtain ⟨outer, locatedAgain, -, opened⟩ := write_of_made (parent_clean clean)
      (makeDirectories_of_isDirectory present) clean
    rw [opened text]
    rcases writeAround_cases locatedAgain text with ⟨-, put⟩ | ⟨stopped, -⟩
    · rw [put, keeps.absolute]
      exact ⟨rfl, rfl, rfl, lookup_put_of_file same⟩
    · exact absurd admitsAgain stopped

end

end FileTree

end ShaderCatalog
