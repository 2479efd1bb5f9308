import ShaderCatalog.Files.Reading
import ShaderCatalog.Proofs.Text.Lines

namespace ShaderCatalog

/-! Texts of paths. A path that was read from a text is told by its own text, which ends
in the last name of the path. -/

/-- What can stand between the slashes of a path. -/
structure IsPathName (name : Text) : Prop where
  isName : Path.isName name = true
  slashFree : '/' ∉ name
  nulFree : nul ∉ name

instance (name : Text) : Decidable (IsPathName name) :=
  decidable_of_iff (Path.isName name = true ∧ '/' ∉ name ∧ nul ∉ name)
    ⟨fun ⟨isName, slashFree, nulFree⟩ => ⟨isName, slashFree, nulFree⟩,
      fun proper => ⟨proper.isName, proper.slashFree, proper.nulFree⟩⟩

theorem IsPathName.ne_nil {name : Text} (proper : IsPathName name) : name ≠ [] := by
  rintro rfl
  exact absurd proper.isName (by decide)

theorem IsPathName.head?_ne {name : Text} (proper : IsPathName name) : name.head? ≠ some '/' :=
  fun slash => proper.slashFree (List.mem_of_head? slash)

theorem Text.head?_join_ne {names : List Text} (proper : ∀ name ∈ names, IsPathName name) :
    (join '/' names).head? ≠ some '/' := by
  cases names with
  | nil => exact Option.some_ne_none _ ∘ Eq.symm
  | cons first others =>
      have firstProper := proper first List.mem_cons_self
      obtain ⟨c, rest, rfl⟩ := List.exists_cons_of_ne_nil firstProper.ne_nil
      have different : (c :: rest).head? ≠ some '/' := firstProper.head?_ne
      cases others with
      | nil => exact different
      | cons second more => simpa [join] using different

theorem Text.filter_isName_split_join {names : List Text}
    (proper : ∀ name ∈ names, IsPathName name) :
    (split '/' (join '/' names)).filter Path.isName = names := by
  by_cases unnamed : names = []
  · subst unnamed
    rfl
  · rw [split_join unnamed (fun name member => (proper name member).slashFree),
      List.filter_eq_self]
    exact fun name member => (proper name member).isName

theorem Text.of_mem_join {separator c : Char} {parts : List Text}
    (member : c ∈ join separator parts) : c = separator ∨ ∃ part ∈ parts, c ∈ part := by
  induction parts with
  | nil => cases member
  | cons first others induction =>
      cases others with
      | nil => exact Or.inr ⟨first, List.mem_cons_self, member⟩
      | cons second more =>
          rw [join_cons_of_ne_nil (List.cons_ne_nil second more), List.mem_append,
            List.mem_cons] at member
          rcases member with inFirst | same | later
          · exact Or.inr ⟨first, List.mem_cons_self, inFirst⟩
          · exact Or.inl same
          · exact (induction later).imp_right fun ⟨part, isPart, within⟩ =>
              ⟨part, List.mem_cons_of_mem first isPart, within⟩

theorem Text.exists_join_eq_append (separator : Char) {names : List Text} {name : Text}
    (last : names.getLast? = some name) :
    ∃ before, join separator names = before ++ name ∧
      (before = [] ∨ ∃ start, before = start ++ [separator]) := by
  induction names with
  | nil => cases last
  | cons first others induction =>
      cases others with
      | nil =>
          cases last
          exact ⟨[], rfl, Or.inl rfl⟩
      | cons second more =>
          rw [List.getLast?_cons_cons] at last
          obtain ⟨before, joined, boundary⟩ := induction last
          refine ⟨first ++ separator :: before, ?_, Or.inr ?_⟩
          · rw [join_cons_of_ne_nil (List.cons_ne_nil second more), joined, List.append_assoc,
              List.cons_append]
          · rcases boundary with rfl | ⟨start, rfl⟩
            · exact ⟨first, rfl⟩
            · exact ⟨first ++ separator :: start, by simp⟩

theorem Text.isSuffix_append_iff {separator : Char} {ending before name : Text}
    (free : separator ∉ ending) (boundary : before = [] ∨ ∃ start, before = start ++ [separator]) :
    ending <:+ before ++ name ↔ ending <:+ name := by
  constructor
  · intro within
    rcases List.suffix_or_suffix_of_suffix within (List.suffix_append before name) with
      inName | ⟨extra, rfl⟩
    · exact inName
    · obtain ⟨start, same⟩ := within
      rw [← List.append_assoc] at same
      have reached : start ++ extra = before := List.append_cancel_right same
      -- What the ending takes of the text before the name would end in a separator.
      have nothing : extra = [] := by
        rcases List.eq_nil_or_concat extra with rfl | ⟨extra, c, rfl⟩
        · rfl
        · rcases boundary with rfl | ⟨other, rfl⟩
          · simp at reached
          · rw [List.concat_eq_append, ← List.append_assoc] at reached
            obtain ⟨-, sameLast⟩ := List.append_inj' reached rfl
            cases sameLast
            simp at free
      subst nothing
      exact List.suffix_rfl
  · exact fun inName => inName.trans (List.suffix_append before name)

namespace Path

/-- Whether the path can be read from a text: names that can stand in a path follow its
root. -/
def IsProper (path : Path) : Prop :=
  ∃ slashes names, path = ⟨rootPart slashes ++ names⟩ ∧ ∀ name ∈ names, IsPathName name

theorem isProper_ofText {text : Text} (nulFree : nul ∉ text) : (ofText text).IsProper := by
  refine ⟨_, _, rfl, fun name member => ?_⟩
  obtain ⟨isPart, isName⟩ := List.mem_filter.mp member
  have cut := Text.of_mem_split isPart
  exact ⟨isName, fun slash => (cut '/' slash).2 rfl, fun within => nulFree (cut nul within).1⟩

section

variable {slashes : Nat} {names : List Text} (slashFree : ∀ name ∈ names, '/' ∉ name)

include slashFree

theorem isAbsolute_mk_of_slashFree :
    isAbsolute ⟨rootPart slashes ++ names⟩ = !(rootPart slashes).isEmpty := by
  rcases slashes with _ | _ | _ | slashes
  · cases names with
    | nil => rfl
    | cons first others =>
        have noSlash : first.head? ≠ some '/' :=
          fun slash => slashFree first List.mem_cons_self (List.mem_of_head? slash)
        simpa [isAbsolute, rootPart] using noSlash
  all_goals rfl

theorem names_mk_of_slashFree : Path.names ⟨rootPart slashes ++ names⟩ = names := by
  rw [Path.names, isAbsolute_mk_of_slashFree slashFree]
  rcases slashes with _ | _ | _ | slashes
  all_goals rfl

end

theorem names_ofText (text : Text) :
    (ofText text).names = (Text.split '/' text).filter isName := by
  apply names_mk_of_slashFree
  intro name member slash
  exact (Text.of_mem_split (List.mem_filter.mp member).1 '/' slash).2 rfl

theorem nul_not_mem_of_names {text : Text} (nulFree : ∀ name ∈ (ofText text).names, nul ∉ name) :
    nul ∉ text := by
  intro member
  rw [← Text.join_split '/' text] at member
  rcases Text.of_mem_join member with slash | ⟨name, isPart, within⟩
  · exact absurd slash (by decide)
  · have named : isName name = true := by
      rw [isName, Bool.and_eq_true, decide_eq_true_eq, decide_eq_true_eq]
      constructor
      · rintro rfl
        cases within
      · rintro rfl
        exact absurd within (by decide)
    refine nulFree name ?_ within
    rw [names_ofText]
    exact List.mem_filter.mpr ⟨isPart, named⟩

def IsRead (path : Path) : Prop :=
  ∃ text, path = ofText text

theorem IsRead.isProper {path : Path} (isRead : path.IsRead)
    (nulFree : ∀ name ∈ path.names, nul ∉ name) : path.IsProper := by
  obtain ⟨text, rfl⟩ := isRead
  exact isProper_ofText (nul_not_mem_of_names nulFree)

section

variable {slashes : Nat} {names : List Text} (proper : ∀ name ∈ names, IsPathName name)

include proper

theorem isAbsolute_mk :
    isAbsolute ⟨rootPart slashes ++ names⟩ = !(rootPart slashes).isEmpty :=
  isAbsolute_mk_of_slashFree fun name member => (proper name member).slashFree

theorem root_mk : root ⟨rootPart slashes ++ names⟩ = rootPart slashes := by
  rw [root, isAbsolute_mk proper]
  rcases slashes with _ | _ | _ | slashes
  all_goals rfl

theorem names_mk : Path.names ⟨rootPart slashes ++ names⟩ = names :=
  names_mk_of_slashFree fun name member => (proper name member).slashFree

theorem text_mk :
    text ⟨rootPart slashes ++ names⟩ =
      if rootPart slashes ++ names = [] then ['.']
      else (rootPart slashes).flatten ++ Text.join '/' names := by
  rw [text, root_mk proper, names_mk proper]

theorem ofText_flatten_append_join :
    ofText ((rootPart slashes).flatten ++ Text.join '/' names) =
      ⟨rootPart slashes ++ names⟩ := by
  have noSlash := Text.head?_join_ne proper
  have stops : (Text.join '/' names).takeWhile (· == '/') = [] := by
    cases joined : Text.join '/' names with
    | nil => rfl
    | cons c rest =>
        rw [joined] at noSlash
        exact List.takeWhile_cons_of_neg (by simpa using noSlash)
  have slashesOf : rootPart
      (((rootPart slashes).flatten ++ Text.join '/' names).takeWhile (· == '/')).length =
        rootPart slashes := by
    rcases slashes with _ | _ | _ | slashes
    all_goals simp [rootPart, stops]
  have namesOf : (Text.split '/' ((rootPart slashes).flatten ++ Text.join '/' names)).filter
      isName = names := by
    have kept := Text.filter_isName_split_join proper
    rcases slashes with _ | _ | _ | slashes
    · exact kept
    all_goals simpa [rootPart, Text.split, isName] using kept
  rw [ofText, slashesOf, namesOf]

end

variable {path : Path} (proper : path.IsProper)

include proper

theorem ofText_text : ofText path.text = path := by
  obtain ⟨slashes, names, rfl, named⟩ := proper
  rw [text_mk named]
  split
  next empty =>
    rw [empty]
    rfl
  next => exact ofText_flatten_append_join named

theorem ofString_toString : ofString path.toString = path := by
  rw [ofString, toString, String.toList_ofList, ofText_text proper]

theorem isPathName_of_mem_names : ∀ name ∈ path.names, IsPathName name := by
  obtain ⟨slashes, names, rfl, named⟩ := proper
  rw [names_mk named]
  exact named

theorem names_clean : path.names.any (·.contains nul) = false := by
  rw [List.any_eq_false]
  intro name member
  have nulFree := (isPathName_of_mem_names proper name member).nulFree
  simpa using nulFree

theorem nul_not_mem_toString : nul ∉ path.toString.toList := by
  rw [toString, String.toList_ofList]
  obtain ⟨slashes, names, rfl, named⟩ := proper
  rw [text_mk named]
  split
  · decide
  · rw [List.mem_append, not_or]
    constructor
    · rcases slashes with _ | _ | _ | slashes
      all_goals simp [rootPart, nul]
    · intro member
      rcases Text.of_mem_join member with slash | ⟨name, isPart, within⟩
      · exact absurd slash (by decide)
      · exact (named name isPart).nulFree within

theorem isSuffix_text_iff {ending name : Text} (slashFree : '/' ∉ ending)
    (last : path.names.getLast? = some name) : ending <:+ path.text ↔ ending <:+ name := by
  obtain ⟨slashes, names, rfl, named⟩ := proper
  rw [names_mk named] at last
  have nonempty : rootPart slashes ++ names ≠ [] := by
    rintro empty
    rw [(List.append_eq_nil_iff.mp empty).2] at last
    cases last
  obtain ⟨before, joined, boundary⟩ := Text.exists_join_eq_append '/' last
  rw [text_mk named, if_neg nonempty, joined, ← List.append_assoc]
  apply Text.isSuffix_append_iff slashFree
  rcases boundary with rfl | ⟨start, rfl⟩
  · rw [List.append_nil]
    rcases slashes with _ | _ | _ | slashes
    · exact Or.inl rfl
    · exact Or.inr ⟨[], rfl⟩
    · exact Or.inr ⟨['/'], rfl⟩
    · exact Or.inr ⟨[], rfl⟩
  · exact Or.inr ⟨(rootPart slashes).flatten ++ start, (List.append_assoc ..).symm⟩

section

variable {names : List Text} (others : ∀ name ∈ names, IsPathName name)

include others

theorem IsProper.append : (path.append names).IsProper := by
  obtain ⟨slashes, before, rfl, named⟩ := proper
  refine ⟨slashes, before ++ names, ?_, List.forall_mem_append.mpr ⟨named, others⟩⟩
  rw [Path.append, List.append_assoc]

theorem names_append : (path.append names).names = path.names ++ names := by
  obtain ⟨slashes, before, rfl, named⟩ := proper
  rw [Path.append, List.append_assoc, names_mk (List.forall_mem_append.mpr ⟨named, others⟩),
    names_mk named]

theorem isAbsolute_append : (path.append names).isAbsolute = path.isAbsolute := by
  obtain ⟨slashes, before, rfl, named⟩ := proper
  rw [Path.append, List.append_assoc, isAbsolute_mk (List.forall_mem_append.mpr ⟨named, others⟩),
    isAbsolute_mk named]

end

end Path

end ShaderCatalog
