import ShaderCatalog.Files.Tree
import ShaderCatalog.Proofs.Except

namespace ShaderCatalog

/-! Where paths lead. A path leads to the place that it names, as there are no links, and
it leads there still when the tree has grown. -/

namespace Path

theorem isAbsolute_parent (path : Path) : path.parent.isAbsolute = path.isAbsolute := by
  obtain ⟨parts⟩ := path
  cases parts with
  | nil => rfl
  | cons first others =>
      by_cases absolute : first.head? = some '/'
      · simp [parent, root, names, isAbsolute, absolute]
      · cases others with
        | nil => simp [parent, root, names, isAbsolute, absolute]
        | cons second more => simp [parent, root, names, isAbsolute, absolute]

theorem parts_parent_prefix (path : Path) : path.parent.parts <+: path.parts := by
  rw [← root_append_names path]
  exact (List.prefix_append_right_inj path.root).mpr (List.dropLast_prefix path.names)

theorem names_eq_concat {path : Path} {name : Text} (last : path.names.getLast? = some name) :
    path.names = path.parent.names ++ [name] := by
  obtain ⟨before, split⟩ := List.getLast?_eq_some_iff.mp last
  rw [names_parent, split, List.dropLast_concat]

theorem names_eq_names_parent {path : Path} (unnamed : path.names.getLast? = none) :
    path.names = path.parent.names := by
  rw [names_parent, List.getLast?_eq_none_iff.mp unnamed]
  rfl

end Path

namespace FileTree

theorem isSome_lookup_iff {tree : FileTree} {place : Location} :
    (tree.lookup place).isSome = true ↔
      place <:+ tree.workingDirectory ∨ ∃ entry ∈ tree.entries, entry.1 = place := by
  unfold lookup
  split
  next inside => exact iff_of_true rfl (Or.inl inside)
  next outside =>
    rw [Option.isSome_map, List.find?_isSome, or_iff_right outside]
    simp only [beq_iff_eq]

def step (place : Location) (name : Text) : Location :=
  if name = parentName then place.tail else name :: place

theorem enter_eq_ok_iff {tree : FileTree} {place next : Location} {name : Text} :
    tree.enter place name = .ok next ↔
      tree.lookup place = some .directory ∧ tree.refusals.name place name = none ∧
        step place name = next ∧ (name = parentName ∨ (tree.lookup next).isSome = true) := by
  unfold enter step
  cases tree.lookup place with
  | none => simp
  | some entry =>
      cases entry with
      | file bytes => simp
      | directory =>
          simp only [bind_eq_ok_iff, grant_eq_ok_iff, exists_and_left, exists_const, true_and]
          refine and_congr_right fun _ => ?_
          by_cases up : name = parentName
          · simp [up]
          · by_cases found : (tree.lookup (name :: place)).isSome = true
            · simp only [if_neg up, if_pos found, Except.ok.injEq]
              constructor
              · rintro rfl
                exact ⟨rfl, Or.inr found⟩
              · exact fun entered => entered.1
            · simp only [if_neg up, if_neg found]
              constructor
              · intro failed
                cases failed
              · rintro ⟨rfl, up' | present⟩
                · exact absurd up' up
                · exact absurd present found

theorem walk_append (tree : FileTree) (place : Location) (first second : List Text) :
    tree.walk place (first ++ second) =
      tree.walk place first >>= fun next => tree.walk next second :=
  List.foldlM_append

theorem walk_cons_eq_ok_iff {tree : FileTree} {start place : Location} {name : Text}
    {names : List Text} :
    tree.walk start (name :: names) = .ok place ↔
      ∃ next, tree.enter start name = .ok next ∧ tree.walk next names = .ok place := by
  rw [walk, List.foldlM_cons]
  exact bind_eq_ok_iff

theorem walk_concat_of_walk {tree : FileTree} {start place : Location} {names : List Text}
    (walked : tree.walk start names = .ok place) (name : Text) :
    tree.walk start (names ++ [name]) = tree.enter place name := by
  rw [walk_append, walked]
  exact bind_pure (tree.enter place name)

theorem foldl_step_of_walk {tree : FileTree} {start place : Location} {names : List Text}
    (walked : tree.walk start names = .ok place) : names.foldl step start = place := by
  induction names generalizing start with
  | nil =>
      cases walked
      rfl
  | cons name names induction =>
      obtain ⟨next, entered, onwards⟩ := walk_cons_eq_ok_iff.mp walked
      obtain ⟨-, -, stepped, -⟩ := enter_eq_ok_iff.mp entered
      rw [List.foldl_cons, stepped, induction onwards]

theorem origin_parent (tree : FileTree) (path : Path) :
    tree.origin path.parent = tree.origin path := by
  rw [origin, origin, path.isAbsolute_parent]

theorem locate_eq_ok_iff {tree : FileTree} {path : Path} {place : Location} :
    tree.locate path = .ok place ↔
      tree.refusals.path path = none ∧ tree.walk (tree.origin path) path.names = .ok place := by
  simp only [locate, bind_eq_ok_iff, grant_eq_ok_iff, exists_const]

theorem locateAround_of_locate_parent {tree : FileTree} {path : Path} {around : Location}
    (located : tree.locate path.parent = .ok around) : tree.locateAround path = .ok around := by
  rw [locateAround, ← origin_parent]
  exact (locate_eq_ok_iff.mp located).2

theorem absolute_of_locate {tree : FileTree} {path : Path} {place : Location}
    (located : tree.locate path = .ok place) : tree.absolute path = place :=
  foldl_step_of_walk (locate_eq_ok_iff.mp located).2

theorem absolute_parent_of_locateAround {tree : FileTree} {path : Path} {around : Location}
    (located : tree.locateAround path = .ok around) : tree.absolute path.parent = around := by
  rw [absolute, origin_parent]
  exact foldl_step_of_walk located

theorem absolute_of_getLast? {tree : FileTree} {path : Path} {name : Text}
    (last : path.names.getLast? = some name) :
    tree.absolute path = step (tree.absolute path.parent) name := by
  unfold absolute
  rw [origin_parent, Path.names_eq_concat last, List.foldl_append]
  rfl

theorem absolute_of_unnamed {tree : FileTree} {path : Path}
    (unnamed : path.names.getLast? = none) : tree.absolute path = tree.absolute path.parent := by
  rw [absolute, absolute, origin_parent, Path.names_eq_names_parent unnamed]

theorem walk_of_getLast? {tree : FileTree} {path : Path} {name : Text} {around : Location}
    (last : path.names.getLast? = some name) (located : tree.locateAround path = .ok around) :
    tree.walk (tree.origin path) path.names = tree.enter around name := by
  rw [Path.names_eq_concat last, walk_concat_of_walk located]

theorem walk_of_unnamed {tree : FileTree} {path : Path}
    (unnamed : path.names.getLast? = none) :
    tree.walk (tree.origin path) path.names = tree.locateAround path := by
  rw [locateAround, ← Path.names_eq_names_parent unnamed]

/-- Whether the places further out are directories. -/
def IsSurrounded (tree : FileTree) (place : Location) : Prop :=
  ∀ outer, outer <:+ place.tail → tree.lookup outer = some .directory

theorem isSurrounded_origin (tree : FileTree) (path : Path) :
    tree.IsSurrounded (tree.origin path) := by
  intro outer isOuter
  refine if_pos ?_
  unfold origin at isOuter
  split at isOuter
  · exact isOuter.trans List.nil_suffix
  · exact isOuter.trans (List.tail_suffix tree.workingDirectory)

theorem IsSurrounded.enter {tree : FileTree} {place next : Location} {name : Text}
    (surrounded : tree.IsSurrounded place) (entered : tree.enter place name = .ok next) :
    tree.IsSurrounded next := by
  obtain ⟨isDirectory, -, stepped, -⟩ := enter_eq_ok_iff.mp entered
  intro outer isOuter
  rw [← stepped, step] at isOuter
  split at isOuter
  · exact surrounded outer (isOuter.trans (List.tail_suffix place.tail))
  · rw [List.tail_cons] at isOuter
    cases place with
    | nil =>
        rw [List.suffix_nil.mp isOuter]
        exact isDirectory
    | cons first around =>
        rcases List.suffix_cons_iff.mp isOuter with same | further
        · rw [same]
          exact isDirectory
        · exact surrounded outer further

theorem IsSurrounded.walk {tree : FileTree} {start place : Location} {names : List Text}
    (surrounded : tree.IsSurrounded start) (walked : tree.walk start names = .ok place) :
    tree.IsSurrounded place := by
  induction names generalizing start with
  | nil =>
      cases walked
      exact surrounded
  | cons name names induction =>
      obtain ⟨next, entered, onwards⟩ := walk_cons_eq_ok_iff.mp walked
      exact induction (surrounded.enter entered) onwards

theorem IsSurrounded.of_locate {tree : FileTree} {path : Path} {place : Location}
    (located : tree.locate path = .ok place) : tree.IsSurrounded place :=
  (isSurrounded_origin tree path).walk (locate_eq_ok_iff.mp located).2

theorem exists_locateAround {tree : FileTree} {path : Path} {name : Text} {place : Location}
    (last : path.names.getLast? = some name)
    (walked : tree.walk (tree.origin path) path.names = .ok place) :
    ∃ around, tree.locateAround path = .ok around ∧ tree.enter around name = .ok place := by
  rw [Path.names_eq_concat last, walk_append] at walked
  obtain ⟨around, located, entered⟩ := bind_eq_ok_iff.mp walked
  exact ⟨around, located, (bind_pure (tree.enter around name)).symm.trans entered⟩

theorem exists_eq_cons_of_file {tree : FileTree} {path : Path} {place : Location} {bytes : Bytes}
    (located : tree.locate path = .ok place) (present : tree.lookup place = some (.file bytes)) :
    ∃ name around, place = name :: around ∧ path.names.getLast? = some name := by
  have outside : ¬place <:+ tree.workingDirectory := by
    intro inside
    rw [lookup, if_pos inside] at present
    cases present
  have walked := (locate_eq_ok_iff.mp located).2
  cases last : path.names.getLast? with
  | none =>
      rw [List.getLast?_eq_none_iff.mp last] at walked
      cases walked
      have inside : tree.origin path <:+ tree.workingDirectory := by
        unfold origin
        split
        · exact List.nil_suffix
        · exact List.suffix_rfl
      exact absurd inside outside
  | some name =>
      obtain ⟨around, locatedAround, entered⟩ := exists_locateAround last walked
      obtain ⟨-, -, stepped, -⟩ := enter_eq_ok_iff.mp entered
      rw [step] at stepped
      split at stepped
      -- Behind a double dot stands a place further out, which is a directory.
      · have isDirectory :=
          (isSurrounded_origin tree path).walk locatedAround _ List.suffix_rfl
        rw [stepped, present] at isDirectory
        cases isDirectory
      · exact ⟨name, around, stepped.symm, rfl⟩

theorem entry?_eq_some_iff {tree : FileTree} {path : Path} {entry : Entry} :
    tree.entry? path = some entry ↔
      ∃ place, tree.locate path = .ok place ∧ tree.lookup place = some entry := by
  unfold entry?
  cases tree.locate path with
  | error error => simp
  | ok place => simp

theorem exists_locate_of_entry {tree : FileTree} {path : Path} {entry : Entry}
    (present : tree.entry? path = some entry) :
    ∃ place, tree.locate path = .ok place ∧ tree.lookup place = some entry :=
  entry?_eq_some_iff.mp present

theorem isDirectory_iff {tree : FileTree} {path : Path} :
    tree.isDirectory path = true ↔
      ∃ place, tree.locate path = .ok place ∧ tree.lookup place = some .directory := by
  rw [isDirectory, decide_eq_true_eq, entry?_eq_some_iff]

/-- Whether directories stay directories, no file goes, and nothing else is refused. -/
structure Keeps (before after : FileTree) : Prop where
  workingDirectory : after.workingDirectory = before.workingDirectory
  refusals : after.refusals = before.refusals
  directory : ∀ place, before.lookup place = some .directory →
    after.lookup place = some .directory
  isSome : ∀ place, (before.lookup place).isSome = true → (after.lookup place).isSome = true

namespace Keeps

theorem refl (tree : FileTree) : Keeps tree tree :=
  ⟨rfl, rfl, fun _ present => present, fun _ present => present⟩

theorem trans {first second third : FileTree} (before : Keeps first second)
    (after : Keeps second third) : Keeps first third where
  workingDirectory := after.workingDirectory.trans before.workingDirectory
  refusals := after.refusals.trans before.refusals
  directory := fun place present => after.directory place (before.directory place present)
  isSome := fun place present => after.isSome place (before.isSome place present)

section

variable {before after : FileTree} (keeps : Keeps before after)

include keeps

theorem enter {place next : Location} {name : Text}
    (entered : before.enter place name = .ok next) : after.enter place name = .ok next := by
  rw [enter_eq_ok_iff] at entered ⊢
  obtain ⟨present, granted, stepped, found⟩ := entered
  rw [keeps.refusals]
  exact ⟨keeps.directory place present, granted, stepped, found.imp_right (keeps.isSome next)⟩

theorem walk {start place : Location} {names : List Text}
    (walked : before.walk start names = .ok place) : after.walk start names = .ok place := by
  induction names generalizing start with
  | nil => exact walked
  | cons name names induction =>
      obtain ⟨next, entered, onwards⟩ := walk_cons_eq_ok_iff.mp walked
      exact walk_cons_eq_ok_iff.mpr ⟨next, keeps.enter entered, induction onwards⟩

theorem origin (path : Path) : after.origin path = before.origin path := by
  rw [FileTree.origin, FileTree.origin, keeps.workingDirectory]

theorem absolute (path : Path) : after.absolute path = before.absolute path := by
  rw [FileTree.absolute, FileTree.absolute, keeps.origin]

theorem locate {path : Path} {place : Location} (located : before.locate path = .ok place) :
    after.locate path = .ok place := by
  rw [locate_eq_ok_iff] at located ⊢
  rw [keeps.refusals, keeps.origin]
  exact ⟨located.1, keeps.walk located.2⟩

theorem locateAround {path : Path} {around : Location}
    (located : before.locateAround path = .ok around) : after.locateAround path = .ok around := by
  rw [FileTree.locateAround, keeps.origin]
  exact keeps.walk located

end

end Keeps

theorem keeps_put {tree : FileTree} {place : Location} {entry : Entry}
    (noDirectory : tree.lookup place ≠ some .directory) : Keeps tree (tree.put place entry) where
  workingDirectory := rfl
  refusals := rfl
  directory := by
    intro other present
    rw [lookup_put_of_ne, present]
    rintro rfl
    exact noDirectory present
  isSome := by
    intro other present
    by_cases same : place = other
    · subst same
      have outside : ¬place <:+ tree.workingDirectory := by
        intro inside
        exact noDirectory (if_pos inside)
      rw [lookup_put_self outside]
      rfl
    · rw [lookup_put_of_ne same]
      exact present

end FileTree

end ShaderCatalog
