import ShaderCatalog.Proofs.Catalog.FirstFailure
import ShaderCatalog.Proofs.Files.Locating
import ShaderCatalog.Proofs.Files.PathText

namespace ShaderCatalog

/-! What a loader hands over for a file: the text that the file holds, or, if it holds
none, what the policy for unreadable sources says. -/

namespace FileTree

theorem read_eq_ok_iff {tree : FileTree} {path : Path} {bytes : Bytes} :
    tree.read path = .ok bytes ↔ tree.entry? path = some (.file bytes) := by
  unfold read entry?
  cases tree.locate path with
  | error error => simp [bind, Except.bind]
  | ok place =>
      simp only [bind, Except.bind]
      cases tree.lookup place with
      | none => simp
      | some entry => cases entry <;> simp [pure, Except.pure]

theorem read_of_file {tree : FileTree} {path : Path} {place : Location} {bytes : Bytes}
    (located : tree.locate path = .ok place) (present : tree.lookup place = some (.file bytes)) :
    tree.read path = .ok bytes :=
  read_eq_ok_iff.mpr (entry?_eq_some_iff.mpr ⟨place, located, present⟩)

/-- Whether a path leads to a file that holds a text. -/
def Holds (tree : FileTree) (path : Path) (content : Text) : Prop :=
  ∃ bytes, tree.read path = .ok bytes ∧ decodeSource bytes = .ok content

section

variable (tree : FileTree) {path : Path} (proper : path.IsProper)

include proper

theorem readDocument_toString :
    (∃ content, tree.Holds path content ∧
      tree.readDocument path.toString = .ok ⟨path.toString, content⟩) ∨
    (∀ content, ¬tree.Holds path content) ∧
      ∃ fault, tree.readDocument path.toString = .error (.unreadable ⟨path.toString, fault⟩) := by
  simp only [readDocument, if_neg (Path.nul_not_mem_toString proper),
    Path.ofString_toString proper, Holds]
  cases tree.read path with
  | error error => exact Or.inr ⟨by simp, _, rfl⟩
  | ok bytes =>
      simp only [Except.ok.injEq, exists_eq_left']
      cases decodeSource bytes with
      | error error => exact Or.inr ⟨by simp, _, rfl⟩
      | ok content => exact Or.inl ⟨content, rfl, rfl⟩

theorem deliver_toString (skipUnreadable : Bool) :
    (∃ content, tree.Holds path content ∧
      tree.deliver skipUnreadable path.toString = .loaded ⟨path.toString, content⟩) ∨
    (∀ content, ¬tree.Holds path content) ∧
      ∃ error, tree.deliver skipUnreadable path.toString =
        if skipUnreadable then .skipped error else .failed (.unreadable error) := by
  unfold deliver
  rcases tree.readDocument_toString proper with
    ⟨content, held, loaded⟩ | ⟨unread, fault, refused⟩
  · rw [loaded]
    exact Or.inl ⟨content, held, rfl⟩
  · rw [refused]
    exact Or.inr ⟨unread, _, rfl⟩

end

theorem Holds.unique {tree : FileTree} {path : Path} {first second : Text}
    (holds : tree.Holds path first) (holdsToo : tree.Holds path second) : first = second := by
  obtain ⟨bytes, read, decoded⟩ := holds
  obtain ⟨others, readToo, decodedToo⟩ := holdsToo
  rw [read] at readToo
  cases readToo
  rw [decoded] at decodedToo
  cases decodedToo
  rfl

end FileTree

theorem Document.exists_catalog_eq_ok_iff {document : Document} :
    (∃ catalog, document.catalog = .ok catalog) ↔
      ∀ declaration ∈ document.declarations, ∀ error,
        ¬declaration.IsMisnamed document.markers document.origin error := by
  have increasing : document.markers.Pairwise fun earlier later => earlier.line < later.line :=
    pairwise_line_markers _
  rw [catalog, exists_assignGroups_eq_ok_iff]
  apply forall₂_congr
  intro declaration member
  have named := (isIdentifier_name_of_mem_declarations member).ne_nil
  simp only [← Declaration.group_eq_error_iff increasing]
  cases declaration.group document.markers document.origin with
  | error error => simp [named]
  | ok group => simp

/-- Why a source file cannot be used: it holds no text, and may not be skipped, or a
declaration in it has a governing marker that names no valid group. -/
inductive FileTree.SourceFault (tree : FileTree) (skipUnreadable : Bool) (file : Path) : Prop where
  | unreadable (strict : skipUnreadable = false) (unread : ∀ content, ¬tree.Holds file content)
  | misnamed {document : Document} {declaration : Declaration} {error : InvalidGroupName}
      (origin : document.origin = file.toString) (held : tree.Holds file document.content)
      (declared : declaration ∈ document.declarations)
      (misnamed : declaration.IsMisnamed document.markers document.origin error)

theorem FileTree.exists_catalog_deliver_iff (tree : FileTree) {file : Path}
    (proper : file.IsProper) (skipUnreadable : Bool) :
    (∃ catalog, (tree.deliver skipUnreadable file.toString).catalog = .ok catalog) ↔
      ¬tree.SourceFault skipUnreadable file := by
  rcases tree.deliver_toString proper skipUnreadable with
    ⟨content, held, loaded⟩ | ⟨unread, error, refused⟩
  · rw [loaded]
    simp only [Delivery.catalog_loaded_eq_ok_iff, Document.exists_catalog_eq_ok_iff]
    constructor
    · rintro named (⟨_, unread⟩ | @⟨document, declaration, error, origin, heldToo, declared, misnamed⟩)
      · exact unread content held
      · cases held.unique heldToo
        cases document
        cases origin
        exact named declaration declared error misnamed
    · intro sound declaration declared error misnamed
      exact sound (.misnamed rfl held declared misnamed)
  · rw [refused]
    cases skipUnreadable with
    | true =>
        refine iff_of_true ⟨∅, rfl⟩ ?_
        rintro (⟨strict, _⟩ | ⟨_, held, _, _⟩)
        · contradiction
        · exact unread _ held
    | false =>
        refine iff_of_false ?_ fun sound => sound (.unreadable rfl unread)
        rintro ⟨catalog, failed⟩
        cases failed

end ShaderCatalog
