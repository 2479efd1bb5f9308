import Mathlib.Data.List.MinMax
import ShaderCatalog.Files.Writing
import ShaderCatalog.Proofs.Files.Locating

namespace ShaderCatalog

/-! What a write leaves behind: directories on the way to the target where there were
none, and, if it succeeds, the text at the target. The temporary file never stays. -/

namespace FileTree

/-- A place is as before, or nothing stood there and it has become a directory that a
prefix of the path leads to. -/
def KeptOrMade (path : Path) (before after : FileTree) (place : Location) : Prop :=
  after.lookup place = before.lookup place ∨
    (before.lookup place = none ∧ after.lookup place = some .directory ∧
      ∃ directory : Path, directory.parts <+: path.parts ∧ after.locate directory = .ok place)

structure AddsDirectories (path : Path) (before after : FileTree) : Prop where
  workingDirectory : after.workingDirectory = before.workingDirectory
  refusals : after.refusals = before.refusals
  keptOrMade : ∀ place, KeptOrMade path before after place

namespace AddsDirectories

theorem refl (path : Path) (tree : FileTree) : AddsDirectories path tree tree :=
  ⟨rfl, rfl, fun _ => Or.inl rfl⟩

variable {path : Path}

theorem keeps {before after : FileTree} (adds : AddsDirectories path before after) :
    Keeps before after where
  workingDirectory := adds.workingDirectory
  refusals := adds.refusals
  directory := by
    intro place present
    rcases adds.keptOrMade place with same | ⟨_, added, _⟩
    · rw [same, present]
    · exact added
  isSome := by
    intro place present
    rcases adds.keptOrMade place with same | ⟨_, added, _⟩
    · rw [same, present]
    · rw [added]
      rfl

theorem trans {first second third : FileTree} (before : AddsDirectories path first second)
    (after : AddsDirectories path second third) : AddsDirectories path first third where
  workingDirectory := after.workingDirectory.trans before.workingDirectory
  refusals := after.refusals.trans before.refusals
  keptOrMade := by
    intro place
    rcases after.keptOrMade place with same | ⟨absent, added, onTheWay⟩
    · rcases before.keptOrMade place with unchanged | ⟨absent, added, directory, isPrefix, located⟩
      · exact Or.inl (same.trans unchanged)
      · exact Or.inr ⟨absent, same.trans added, directory, isPrefix, after.keeps.locate located⟩
    · right
      refine ⟨?_, added, onTheWay⟩
      rcases before.keptOrMade place with same | ⟨absent, _⟩
      · rw [← same]
        exact absent
      · exact absent

theorem mono {longer : Path} {before after : FileTree} (adds : AddsDirectories path before after)
    (isPrefix : path.parts <+: longer.parts) : AddsDirectories longer before after where
  workingDirectory := adds.workingDirectory
  refusals := adds.refusals
  keptOrMade := by
    intro place
    rcases adds.keptOrMade place with same | ⟨absent, added, directory, within, located⟩
    · exact Or.inl same
    · exact Or.inr ⟨absent, added, directory, within.trans isPrefix, located⟩

theorem lookup_eq_file_iff {before after : FileTree} (adds : AddsDirectories path before after)
    (place : Location) (bytes : Bytes) :
    after.lookup place = some (.file bytes) ↔ before.lookup place = some (.file bytes) := by
  rcases adds.keptOrMade place with same | ⟨absent, added, _⟩
  · rw [same]
  · rw [absent, added]
    simp

end AddsDirectories

theorem not_suffix_of_lookup_ne {tree : FileTree} {place : Location}
    (noDirectory : tree.lookup place ≠ some .directory) :
    ¬place <:+ tree.workingDirectory :=
  fun inside => noDirectory (if_pos inside)

theorem makeDirectory_eq_ok {tree made : FileTree} {path : Path}
    (done : tree.makeDirectory path = .ok made) :
    ∃ name around, path.names.getLast? = some name ∧ name ≠ parentName ∧
      tree.refusals.path path = none ∧ tree.locateAround path = .ok around ∧
      tree.lookup around = some .directory ∧ tree.refusals.name around name = none ∧
      tree.lookup (name :: around) = none ∧ made = tree.put (name :: around) .directory := by
  obtain ⟨_, spelled, made⟩ := bind_eq_ok_iff.mp done
  split at made
  next => contradiction
  next name last =>
    obtain ⟨around, located, made⟩ := bind_eq_ok_iff.mp made
    split at made
    next present =>
      obtain ⟨_, named, made⟩ := bind_eq_ok_iff.mp made
      split at made
      next => contradiction
      next free =>
        rw [not_or, Bool.not_eq_true, Option.isSome_eq_false_iff,
          Option.isNone_iff_eq_none] at free
        obtain ⟨_, -, made⟩ := bind_eq_ok_iff.mp made
        cases made
        exact ⟨name, around, last, free.1, grant_eq_ok_iff.mp spelled, located, present,
          grant_eq_ok_iff.mp named, free.2, rfl⟩
    next => contradiction

theorem makeDirectory_makes {tree made : FileTree} {path : Path}
    (done : tree.makeDirectory path = .ok made) :
    AddsDirectories path tree made ∧ made.isDirectory path = true := by
  obtain ⟨name, around, last, notUp, spelled, located, present, named, absent, rfl⟩ :=
    makeDirectory_eq_ok done
  have noDirectory : tree.lookup (name :: around) ≠ some .directory := by simp [absent]
  have keeps : Keeps tree (tree.put (name :: around) .directory) := keeps_put noDirectory
  have added : (tree.put (name :: around) .directory).lookup (name :: around) =
      some .directory := lookup_put_self (not_suffix_of_lookup_ne noDirectory)
  have leads : (tree.put (name :: around) .directory).locate path = .ok (name :: around) := by
    rw [locate_eq_ok_iff, walk_of_getLast? last (keeps.locateAround located), enter_eq_ok_iff]
    exact ⟨spelled, keeps.directory around present, named, if_neg notUp,
      Or.inr (by rw [added]; rfl)⟩
  refine ⟨⟨rfl, rfl, fun other => ?_⟩, isDirectory_iff.mpr ⟨_, leads, added⟩⟩
  by_cases same : name :: around = other
  · subst same
    exact Or.inr ⟨absent, added, path, List.prefix_rfl, leads⟩
  · exact Or.inl (lookup_put_of_ne same)

theorem makeDirectoryIfMissing_of_isDirectory {tree : FileTree} {path : Path}
    (present : tree.isDirectory path = true) : tree.makeDirectoryIfMissing path = (tree, none) := by
  obtain ⟨place, leads, isDirectory⟩ := isDirectory_iff.mp present
  unfold makeDirectoryIfMissing
  split
  next made done =>
    obtain ⟨name, around, last, notUp, -, located, -, -, absent, -⟩ := makeDirectory_eq_ok done
    have walked := (locate_eq_ok_iff.mp leads).2
    rw [walk_of_getLast? last located, enter_eq_ok_iff] at walked
    obtain ⟨-, -, stepped, -⟩ := walked
    rw [step, if_neg notUp] at stepped
    rw [stepped, isDirectory] at absent
    contradiction
  next => simp only [leads, if_pos isDirectory]

theorem makeDirectories_of_isDirectory {tree : FileTree} {path : Path}
    (present : tree.isDirectory path = true) : tree.makeDirectories path = (tree, none) := by
  rw [makeDirectories, makeDirectoryIfMissing_of_isDirectory present]

theorem makeDirectoryIfMissing_makes (tree : FileTree) (path : Path) :
    AddsDirectories path tree (tree.makeDirectoryIfMissing path).1 ∧
      ((tree.makeDirectoryIfMissing path).2 = none →
        (tree.makeDirectoryIfMissing path).1.isDirectory path = true) := by
  unfold makeDirectoryIfMissing
  split
  next made done =>
    obtain ⟨adds, isDirectory⟩ := makeDirectory_makes done
    exact ⟨adds, fun _ => isDirectory⟩
  next =>
    split
    next place located =>
      split
      next present =>
        exact ⟨.refl path tree, fun _ => isDirectory_iff.mpr ⟨place, located, present⟩⟩
      next => exact ⟨.refl path tree, fun succeeded => by cases succeeded⟩
    next => exact ⟨.refl path tree, fun succeeded => by cases succeeded⟩

theorem makeDirectories_makes (tree : FileTree) (path : Path) :
    AddsDirectories path tree (tree.makeDirectories path).1 ∧
      ((tree.makeDirectories path).2 = none →
        (tree.makeDirectories path).1.isDirectory path = true) := by
  induction depth : path.names.length using Nat.strongRecOn generalizing path with
  | _ depth induction =>
      subst depth
      have missing := makeDirectoryIfMissing_makes tree path
      rw [makeDirectories]
      split
      next =>
        split
        next => exact ⟨.refl path tree, fun succeeded => by cases succeeded⟩
        next named =>
          obtain ⟨around, -⟩ :=
            induction _ (Path.length_names_parent_lt named) path.parent rfl
          have onTheWay := around.mono path.parts_parent_prefix
          split
          next made refusal failed =>
            rw [failed] at onTheWay
            exact ⟨onTheWay, fun succeeded => by cases succeeded⟩
          next made succeeded =>
            rw [succeeded] at onTheWay
            obtain ⟨adds, isDirectory⟩ := makeDirectoryIfMissing_makes made path
            exact ⟨onTheWay.trans adds, isDirectory⟩
      next => exact missing

theorem length_le_longestName {tree : FileTree} {name : Text}
    (listed : name ∈ tree.workingDirectory ++ tree.entries.flatMap (·.1)) :
    name.length ≤ tree.longestName :=
  List.le_max_of_le' 0 (List.mem_map_of_mem listed) le_rfl

theorem longestName_lt_length_temporaryName (tree : FileTree) (name : Text) :
    tree.longestName < (tree.temporaryName name).length := by
  simp only [temporaryName, List.cons_append, List.length_cons, List.length_append,
    List.length_replicate]
  omega

theorem length_lt_length_temporaryName (tree : FileTree) (name : Text) :
    name.length < (tree.temporaryName name).length := by
  simp only [temporaryName, List.cons_append, List.length_cons, List.length_append]
  omega

theorem temporaryName_not_mem (tree : FileTree) (name : Text) :
    tree.temporaryName name ∉ tree.workingDirectory ++ tree.entries.flatMap (·.1) := by
  intro listed
  have short := length_le_longestName listed
  have long := longestName_lt_length_temporaryName tree name
  omega

section

variable (tree : FileTree) (name : Text) (around : Location)

theorem temporary_not_suffix_workingDirectory :
    ¬tree.temporaryName name :: around <:+ tree.workingDirectory := by
  intro inside
  exact temporaryName_not_mem tree name
    (List.mem_append_left _ (inside.subset List.mem_cons_self))

theorem temporary_not_suffix_entry {entry : Location × Entry} (member : entry ∈ tree.entries) :
    ¬tree.temporaryName name :: around <:+ entry.1 := by
  intro below
  exact temporaryName_not_mem tree name
    (List.mem_append_right _
      (List.mem_flatMap.mpr ⟨entry, member, below.subset List.mem_cons_self⟩))

end

theorem remove_of_fresh {tree : FileTree} {place : Location}
    (fresh : ∀ other ∈ tree.entries, ¬place <:+ other.1) : tree.remove place = tree := by
  have kept : tree.entries.filter (fun other => !decide (place <:+ other.1)) = tree.entries := by
    rw [List.filter_eq_self]
    intro other member
    simp [fresh other member]
  simp [remove, kept]

@[simp] theorem remove_put (tree : FileTree) (place : Location) (entry : Entry) :
    (tree.put place entry).remove place = tree.remove place := by
  simp [put, remove]

theorem temporary_ne_lastPlace (tree : FileTree) (around : Location) (name : Option Text) :
    tree.temporaryName (name.getD []) :: around ≠ lastPlace around name := by
  cases name with
  | none => exact List.cons_ne_self _ _
  | some name =>
      rw [lastPlace]
      split
      next =>
        intro same
        have lengths := congrArg List.length same
        rw [List.length_cons, List.length_tail] at lengths
        omega
      next =>
        intro same
        have long := length_lt_length_temporaryName tree name
        have nameEq : tree.temporaryName name = name := (List.cons.inj same).1
        rw [nameEq] at long
        exact Nat.lt_irrefl _ long

theorem replace_of_file {tree : FileTree} {source : Location} {bytes : Bytes}
    (present : tree.lookup source = some (.file bytes)) (target : Location) :
    tree.replace source target =
      if tree.lookup target = some .directory then
        .error .isADirectory
      else
        .ok ((tree.remove source).put target (.file bytes)) := by
  rw [replace, present]
  cases tree.lookup target with
  | none => rfl
  | some entry => cases entry <;> rfl

theorem lastPlace_eq_absolute {tree : FileTree} {path : Path} {around : Location}
    (located : tree.locateAround path = .ok around) :
    lastPlace around path.names.getLast? = tree.absolute path := by
  cases last : path.names.getLast? with
  | none =>
      rw [absolute_of_unnamed last, absolute_parent_of_locateAround located]
      rfl
  | some name =>
      rw [absolute_of_getLast? last, absolute_parent_of_locateAround located]
      rfl

/-- Whether nothing stands in the way of putting a text, by way of a temporary file, where a
path names a place in a directory that is there. -/
structure Admits (tree : FileTree) (path : Path) (text : Text) : Prop where
  create : tree.refusals.create (tree.absolute path.parent) (path.names.getLast?.getD []) = none
  fill : tree.refusals.fill (tree.absolute path.parent) text = none
  spell : tree.refusals.path path = none
  name : path.names.getLast?.bind (tree.refusals.name (tree.absolute path.parent)) = none
  replace : tree.refusals.replace (tree.absolute path) = none
  noDirectory : tree.lookup (tree.absolute path) ≠ some .directory

/-- How a write ends that comes to nothing: with an error that names the path, or with one
about the text. -/
inductive WriteFails (path : Path) : Failure → Prop where
  | unwritable (fault : WriteFault) : WriteFails path (.unwritable ⟨path.toString, fault⟩)
  | unencodable (reason : String) : WriteFails path (.unencodable reason)

section

variable {tree : FileTree} {path : Path} {around : Location}
  (located : tree.locateAround path = .ok around)

include located

theorem moveTo_eq_ok_iff (bytes : Bytes) {moved : FileTree} :
    let temporary := tree.temporaryName (path.names.getLast?.getD []) :: around
    ((tree.put temporary (.file [])).put temporary (.file bytes)).moveTo temporary around path =
        .ok moved ↔
      (tree.refusals.path path = none ∧
        path.names.getLast?.bind (tree.refusals.name around) = none ∧
        tree.refusals.replace (tree.absolute path) = none ∧
        tree.lookup (tree.absolute path) ≠ some .directory) ∧
      tree.put (tree.absolute path) (.file bytes) = moved := by
  intro temporary
  have filled : ((tree.put temporary (.file [])).put temporary (.file bytes)).lookup temporary =
      some (.file bytes) :=
    lookup_put_self (temporary_not_suffix_workingDirectory tree _ around)
  have removed : tree.remove temporary = tree :=
    remove_of_fresh fun _ member => temporary_not_suffix_entry tree _ around member
  have different : temporary ≠ tree.absolute path := by
    rw [← lastPlace_eq_absolute located]
    exact temporary_ne_lastPlace tree around _
  have target : ((tree.put temporary (.file [])).put temporary (.file bytes)).lookup
      (tree.absolute path) = tree.lookup (tree.absolute path) := by
    rw [lookup_put_of_ne different, lookup_put_of_ne different]
  simp only [moveTo, bind_eq_ok_iff, grant_eq_ok_iff, exists_const, lastPlace_eq_absolute located,
    replace_of_file filled, target, remove_put, removed]
  by_cases isDirectory : tree.lookup (tree.absolute path) = some .directory
  · simp [isDirectory]
  · simp [isDirectory, put, and_assoc]

theorem writeAround_cases (text : Text) :
    (tree.Admits path text ∧ tree.writeAround around path text =
      (tree.put (tree.absolute path) (.file (Utf8.encode text)), .ok ())) ∨
    ¬tree.Admits path text ∧ ∃ failure, WriteFails path failure ∧
      tree.writeAround around path text = (tree, .error failure) := by
  have aroundEq := absolute_parent_of_locateAround located
  have removed : tree.remove (tree.temporaryName (path.names.getLast?.getD []) :: around) = tree :=
    remove_of_fresh fun _ member => temporary_not_suffix_entry tree _ around member
  cases created : tree.refusals.create around (path.names.getLast?.getD []) with
  | some error =>
      refine .inr ⟨fun admits => ?_, _, .unwritable _, by simp only [writeAround, created]; rfl⟩
      have granted := admits.create
      rw [aroundEq, created] at granted
      cases granted
  | none =>
      cases filled : tree.refusals.fill around text with
      | some fault =>
          refine .inr ⟨fun admits => ?_, ?_⟩
          · have granted := admits.fill
            rw [aroundEq, filled] at granted
            cases granted
          · cases fault with
            | refused error =>
                exact ⟨_, .unwritable _, by
                  simp only [writeAround, created, filled, remove_put, removed]; rfl⟩
            | unencodable reason =>
                exact ⟨_, .unencodable reason, by
                  simp only [writeAround, created, filled, remove_put, removed]⟩
      | none =>
          simp only [writeAround, created, filled, remove_put, removed]
          split
          next written outcome =>
            obtain ⟨⟨spelled, named, replaced, noDirectory⟩, rfl⟩ :=
              (moveTo_eq_ok_iff located _).mp outcome
            rw [← aroundEq] at created filled named
            exact .inl ⟨⟨created, filled, spelled, named, replaced, noDirectory⟩, rfl⟩
          next error outcome =>
            refine .inr ⟨fun admits => ?_, _, .unwritable _, rfl⟩
            have named := admits.name
            rw [aroundEq] at named
            have moved := (moveTo_eq_ok_iff located (Utf8.encode text)).mpr
              ⟨⟨admits.spell, named, admits.replace, admits.noDirectory⟩, rfl⟩
            cases outcome.symm.trans moved

end

/-- A file with these bytes stands where the path leads, and all else is as before but for
directories on the way. -/
structure WritesFile (path : Path) (bytes : Bytes) (before after : FileTree)
    (place : Location) : Prop where
  workingDirectory : after.workingDirectory = before.workingDirectory
  refusals : after.refusals = before.refusals
  located : after.locate path = .ok place
  written : after.lookup place = some (.file bytes)
  noDirectory : before.lookup place ≠ some .directory
  keptOrMade : ∀ other, other ≠ place → KeptOrMade path.parent before after other

theorem WritesFile.keeps {path : Path} {bytes : Bytes} {before after : FileTree}
    {place : Location} (writes : WritesFile path bytes before after place) :
    Keeps before after where
  workingDirectory := writes.workingDirectory
  refusals := writes.refusals
  directory := by
    intro other present
    have different : other ≠ place := by
      rintro rfl
      exact writes.noDirectory present
    rcases writes.keptOrMade other different with same | ⟨absent, _⟩
    · rw [same, present]
    · rw [absent] at present
      contradiction
  isSome := by
    intro other present
    by_cases same : other = place
    · rw [same, writes.written]
      rfl
    · rcases writes.keptOrMade other same with kept | ⟨_, added, _⟩
      · rw [kept, present]
      · rw [added]
        rfl

theorem AddsDirectories.put {tree made : FileTree} {path : Path} {text : Text}
    (adds : AddsDirectories path.parent tree made) {around : Location}
    (located : made.locateAround path = .ok around)
    (isDirectory : made.lookup around = some .directory) (admits : made.Admits path text) :
    WritesFile path (Utf8.encode text) tree
      (made.put (made.absolute path) (.file (Utf8.encode text))) (made.absolute path) := by
  have keeps : Keeps made (made.put (made.absolute path) (.file (Utf8.encode text))) :=
    keeps_put admits.noDirectory
  have written : (made.put (made.absolute path) (.file (Utf8.encode text))).lookup
      (made.absolute path) = some (.file (Utf8.encode text)) :=
    lookup_put_self (not_suffix_of_lookup_ne admits.noDirectory)
  constructor
  case workingDirectory => exact adds.workingDirectory
  case refusals => exact adds.refusals
  case located =>
    refine locate_eq_ok_iff.mpr ⟨admits.spell, ?_⟩
    cases last : path.names.getLast? with
    | none =>
        rw [walk_of_unnamed last, keeps.locateAround located, absolute_of_unnamed last,
          absolute_parent_of_locateAround located]
    | some name =>
        have named := admits.name
        rw [last, absolute_parent_of_locateAround located] at named
        rw [walk_of_getLast? last (keeps.locateAround located), enter_eq_ok_iff]
        refine ⟨keeps.directory around isDirectory, named, ?_, Or.inr (by rw [written]; rfl)⟩
        rw [absolute_of_getLast? last, absolute_parent_of_locateAround located]
  case written => exact written
  case noDirectory =>
    intro stood
    exact admits.noDirectory (adds.keeps.directory _ stood)
  case keptOrMade =>
    intro other different
    have same : (made.put (made.absolute path) (.file (Utf8.encode text))).lookup other =
        made.lookup other := lookup_put_of_ne (Ne.symm different)
    rcases adds.keptOrMade other with kept | ⟨absent, added, directory, isPrefix, leads⟩
    · exact Or.inl (same.trans kept)
    · exact Or.inr ⟨absent, same.trans added, directory, isPrefix, keeps.locate leads⟩

section

variable {tree : FileTree} {path : Path} {text : Text}

theorem parent_clean (clean : path.names.any (·.contains nul) = false) :
    path.parent.names.any (·.contains nul) = false := by
  rw [List.any_eq_false] at clean ⊢
  intro name member
  rw [Path.names_parent] at member
  exact clean name (List.dropLast_subset _ member)

theorem write_of_nul_in_parent (dirty : path.parent.names.any (·.contains nul) = true) :
    tree.write path text = (tree, .error .nulInPath) := by
  simp only [write, dirty, if_true]

section

variable (parentClean : path.parent.names.any (·.contains nul) = false) {made : FileTree}

include parentClean

theorem write_of_refused {error : SystemError} {directory : Path}
    (refused : tree.makeDirectories path.parent = (made, some (error, directory))) :
    tree.write path text =
      (made, .error (.unwritable ⟨path.toString, .refused error directory.toString⟩)) := by
  simp only [write, parentClean, refused, Bool.false_eq_true, if_false]

variable (succeeded : tree.makeDirectories path.parent = (made, none))

include succeeded

theorem write_of_nul (dirty : path.names.any (·.contains nul) = true) :
    tree.write path text = (made, .error .nulInPath) := by
  simp only [write, parentClean, succeeded, dirty, Bool.false_eq_true, if_false, if_true]

theorem write_of_made (clean : path.names.any (·.contains nul) = false) :
    ∃ around, made.locateAround path = .ok around ∧ made.lookup around = some .directory ∧
      ∀ text, tree.write path text = made.writeAround around path text := by
  have present : made.isDirectory path.parent = true := by
    have makes := (makeDirectories_makes tree path.parent).2
    rw [succeeded] at makes
    exact makes rfl
  obtain ⟨around, located, isDirectory⟩ := isDirectory_iff.mp present
  have locatedAround := locateAround_of_locate_parent located
  refine ⟨around, locatedAround, isDirectory, fun text => ?_⟩
  simp only [write, parentClean, clean, succeeded, locatedAround, Bool.false_eq_true, if_false]

end

/-- A write fails and has added nothing but directories, or it puts a file with the text at
the place that the path names. -/
theorem write_cases (tree : FileTree) (path : Path) (text : Text) :
    (∃ made failure, tree.write path text = (made, .error failure) ∧
      AddsDirectories path.parent tree made ∧
      (path.names.any (·.contains nul) = false → WriteFails path failure)) ∨
    ∃ made around, tree.write path text =
        (made.put (made.absolute path) (.file (Utf8.encode text)), .ok ()) ∧
      AddsDirectories path.parent tree made ∧ made.locateAround path = .ok around ∧
      made.lookup around = some .directory ∧ made.Admits path text := by
  obtain ⟨adds, -⟩ := makeDirectories_makes tree path.parent
  cases parentNul : path.parent.names.any (·.contains nul) with
  | true =>
      refine Or.inl ⟨tree, _, write_of_nul_in_parent parentNul, .refl _ tree, fun clean => ?_⟩
      rw [parent_clean clean] at parentNul
      contradiction
  | false =>
      cases outcome : tree.makeDirectories path.parent with
      | mk made refusal =>
          rw [outcome] at adds
          cases refusal with
          | some refusal =>
              exact Or.inl ⟨made, _, write_of_refused parentNul outcome, adds,
                fun _ => .unwritable _⟩
          | none =>
              cases clean : path.names.any (·.contains nul) with
              | true =>
                  refine Or.inl ⟨made, _, write_of_nul parentNul outcome clean, adds, ?_⟩
                  intro noNul
                  contradiction
              | false =>
                  obtain ⟨around, located, isDirectory, written⟩ :=
                    write_of_made parentNul outcome clean
                  rw [written text]
                  rcases writeAround_cases located text with
                    ⟨admits, put⟩ | ⟨-, failure, fails, refused⟩
                  · exact Or.inr ⟨made, around, put, adds, located, isDirectory, admits⟩
                  · exact Or.inl ⟨made, failure, refused, adds, fun _ => fails⟩

theorem addsDirectories_write_of_error {failure : Failure}
    (failed : (tree.write path text).2 = .error failure) :
    AddsDirectories path.parent tree (tree.write path text).1 := by
  rcases write_cases tree path text with ⟨made, other, outcome, adds, _⟩ | ⟨made, _, outcome, _⟩
  · rw [outcome]
    exact adds
  · rw [outcome] at failed
    contradiction

theorem writeFails_of_write {failure : Failure} (clean : path.names.any (·.contains nul) = false)
    (failed : (tree.write path text).2 = .error failure) : WriteFails path failure := by
  rcases write_cases tree path text with ⟨made, other, outcome, _, fails⟩ | ⟨made, _, outcome, _⟩
  · rw [outcome] at failed
    cases failed
    exact fails clean
  · rw [outcome] at failed
    contradiction

theorem writesFile_write_of_ok (succeeded : (tree.write path text).2 = .ok ()) :
    ∃ place, WritesFile path (Utf8.encode text) tree (tree.write path text).1 place := by
  rcases write_cases tree path text with ⟨made, other, outcome, _⟩ |
    ⟨made, around, outcome, adds, located, isDirectory, admits⟩
  · rw [outcome] at succeeded
    contradiction
  · rw [outcome]
    exact ⟨made.absolute path, adds.put located isDirectory admits⟩

theorem write_eq_ok_iff (clean : path.names.any (·.contains nul) = false)
    (present : tree.isDirectory path.parent = true) :
    (tree.write path text).2 = .ok () ↔ tree.Admits path text := by
  obtain ⟨around, located, -, written⟩ := write_of_made (parent_clean clean)
    (makeDirectories_of_isDirectory present) clean
  rw [written text]
  rcases writeAround_cases located text with ⟨admits, put⟩ | ⟨stopped, failure, -, refused⟩
  · rw [put]
    exact iff_of_true rfl admits
  · rw [refused]
    exact iff_of_false (fun done => by cases done) stopped

end

end FileTree

end ShaderCatalog
