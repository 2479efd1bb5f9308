import ShaderCatalog.Proofs.Files.Loading
import ShaderCatalog.Proofs.Text.Utf8

namespace ShaderCatalog

/-! The two policies for sources that cannot be read. They hand over the same documents up to
the first such source, where the one stops and which the other leaves out. -/

namespace FileTree

/-- The text of the file that is read from an origin, if a file is there and holds a text. -/
def content? (tree : FileTree) (origin : String) : Option Text :=
  if nul ∈ origin.toList then
    none
  else
    match tree.entry? (.ofString origin) with
    | some (.file bytes) => (decodeSource bytes).toOption
    | _ => none

def isReadable (tree : FileTree) (origin : String) : Bool :=
  (tree.content? origin).isSome

def document? (tree : FileTree) (origin : String) : Option Document :=
  (tree.content? origin).map (Document.mk origin)

/-- Why an origin cannot be read: no file is there, or one that holds no text. -/
inductive IsUnreadable (tree : FileTree) (origin : String) : UnreadableSource → Prop where
  | refused {error : SystemError} (unread : tree.read (.ofString origin) = .error error) :
      IsUnreadable tree origin ⟨origin, .refused error (Path.ofString origin).toString⟩
  | malformed {bytes : Bytes} {error : Utf8.Malformed}
      (present : tree.entry? (.ofString origin) = some (.file bytes))
      (undecoded : Utf8.decode bytes = .error error) :
      IsUnreadable tree origin ⟨origin, .malformed error⟩

section

variable {tree : FileTree} {origin : String}

theorem content?_eq_some_iff {content : Text} :
    tree.content? origin = some content ↔
      nul ∉ origin.toList ∧ ∃ bytes, tree.read (.ofString origin) = .ok bytes ∧
        decodeSource bytes = .ok content := by
  simp only [read_eq_ok_iff]
  unfold content?
  split
  next outside => simp [outside]
  next nulFree =>
    rw [and_iff_right nulFree]
    cases tree.entry? (.ofString origin) with
    | none => simp
    | some entry =>
        cases entry with
        | directory => simp
        | file bytes =>
            cases decoded : decodeSource bytes with
            | error error => simp [decoded, Except.toOption]
            | ok text => simp [decoded, Except.toOption]

theorem deliver_of_content {content : Text} (readable : tree.content? origin = some content)
    (skipUnreadable : Bool) : tree.deliver skipUnreadable origin = .loaded ⟨origin, content⟩ := by
  obtain ⟨nulFree, bytes, read, decoded⟩ := content?_eq_some_iff.mp readable
  simp only [deliver, readDocument, if_neg nulFree, read, decoded]

theorem deliver_of_nul (outside : nul ∈ origin.toList) (skipUnreadable : Bool) :
    tree.deliver skipUnreadable origin = .failed .nulInPath := by
  simp only [deliver, readDocument, if_pos outside]

theorem IsUnreadable.deliver {error : UnreadableSource}
    (unreadable : tree.IsUnreadable origin error) (nulFree : nul ∉ origin.toList)
    (skipUnreadable : Bool) :
    tree.deliver skipUnreadable origin =
      if skipUnreadable then .skipped error else .failed (.unreadable error) := by
  cases unreadable with
  | refused unread => simp only [FileTree.deliver, readDocument, if_neg nulFree, unread]
  | malformed present undecoded =>
      have refused := map_eq_error_iff (f := Text.unifyNewlines).mpr undecoded
      simp only [FileTree.deliver, readDocument, if_neg nulFree, read_eq_ok_iff.mpr present,
        decodeSource, refused]

theorem exists_isUnreadable (nulFree : nul ∉ origin.toList)
    (unread : tree.content? origin = none) : ∃ error, tree.IsUnreadable origin error := by
  cases outcome : tree.read (.ofString origin) with
  | error error => exact ⟨_, .refused outcome⟩
  | ok bytes =>
      cases decoded : Utf8.decode bytes with
      | error error => exact ⟨_, .malformed (read_eq_ok_iff.mp outcome) decoded⟩
      | ok text =>
          have readable := content?_eq_some_iff.mpr
            ⟨nulFree, bytes, outcome, map_eq_ok_iff.mpr ⟨text, decoded, rfl⟩⟩
          cases unread.symm.trans readable

theorem content?_of_isUnreadable {error : UnreadableSource}
    (unreadable : tree.IsUnreadable origin error) : tree.content? origin = none := by
  cases outcome : tree.content? origin with
  | none => rfl
  | some content =>
      have nulFree := (content?_eq_some_iff.mp outcome).1
      cases (deliver_of_content outcome false).symm.trans (unreadable.deliver nulFree false)

end

theorem exists_deliver_eq_failed {tree : FileTree} {origin : String}
    (unread : tree.content? origin = none) :
    ∃ failure, tree.deliver false origin = .failed failure := by
  by_cases nulFree : nul ∉ origin.toList
  · obtain ⟨error, unreadable⟩ := exists_isUnreadable nulFree unread
    exact ⟨_, unreadable.deliver nulFree false⟩
  · exact ⟨_, deliver_of_nul (not_not.mp nulFree) false⟩

theorem deliver_eq_failed_iff {tree : FileTree} {origin : String} (nulFree : nul ∉ origin.toList)
    {failure : Failure} :
    tree.deliver false origin = .failed failure ↔
      ∃ error, tree.IsUnreadable origin error ∧ failure = .unreadable error := by
  constructor
  · intro failed
    cases outcome : tree.content? origin with
    | none =>
        obtain ⟨error, unreadable⟩ := exists_isUnreadable nulFree outcome
        cases failed.symm.trans (unreadable.deliver nulFree false)
        exact ⟨error, unreadable, rfl⟩
    | some content => cases failed.symm.trans (deliver_of_content outcome false)
  · rintro ⟨error, unreadable, rfl⟩
    exact unreadable.deliver nulFree false

end FileTree

/-! The failure that a series of deliveries ends with, and the catalog of one that ends with
none. -/

theorem Delivery.failure?_eq_some_iff {deliveries : List Delivery} {failure : Failure} :
    failure? deliveries = some failure ↔
      FirstFault (fun delivery failure => delivery = .failed failure) deliveries failure := by
  induction deliveries with
  | nil => exact iff_of_false (fun found => by cases found) not_firstFault_nil
  | cons delivery deliveries induction =>
      rw [firstFault_cons_iff]
      cases delivery <;> simp [failure?, induction]

theorem Delivery.failure?_eq_none_iff {deliveries : List Delivery} :
    failure? deliveries = none ↔
      ∀ delivery ∈ deliveries, ∀ failure, delivery ≠ .failed failure := by
  induction deliveries with
  | nil => simp [failure?]
  | cons delivery deliveries induction =>
      rw [List.forall_mem_cons, ← induction]
      cases delivery <;> simp [failure?]

theorem Delivery.gather_eq_of_failure? {deliveries : List Delivery}
    (delivered : failure? deliveries = none) :
    gather deliveries = gather ((documents deliveries).map .loaded) := by
  unfold gather
  -- The induction meets the catalogs that are gathered on the way.
  generalize (∅ : Catalog) = start
  induction deliveries generalizing start with
  | nil => rfl
  | cons delivery deliveries induction =>
      cases delivery with
      | loaded document =>
          rw [documents, List.map_cons, List.foldlM_cons, List.foldlM_cons]
          exact bind_congr (induction delivered)
      | skipped error =>
          rw [documents, List.foldlM_cons]
          exact induction delivered start
      | failed failure => cases delivered

namespace FileTree

variable {tree : FileTree} {origins : List String}

theorem not_failed_lenient_iff {origin : String} :
    (∀ failure, tree.deliver true origin ≠ .failed failure) ↔ nul ∉ origin.toList := by
  constructor
  · intro delivers outside
    exact delivers _ (deliver_of_nul outside true)
  · intro nulFree failure failed
    cases outcome : tree.content? origin with
    | some content => cases failed.symm.trans (deliver_of_content outcome true)
    | none =>
        obtain ⟨error, unreadable⟩ := exists_isUnreadable nulFree outcome
        cases failed.symm.trans (unreadable.deliver nulFree true)

theorem not_failed_strict_iff {origin : String} :
    (∀ failure, tree.deliver false origin ≠ .failed failure) ↔ tree.isReadable origin = true := by
  unfold isReadable
  cases outcome : tree.content? origin with
  | some content =>
      refine iff_of_true (fun failure failed => ?_) rfl
      cases failed.symm.trans (deliver_of_content outcome false)
  | none =>
      obtain ⟨failure, failed⟩ := exists_deliver_eq_failed outcome
      exact iff_of_false (fun delivers => delivers failure failed) (by simp)

/-! A whole series of sources. -/

theorem failure?_load_lenient_eq_none_iff :
    Delivery.failure? (tree.load true origins) = none ↔
      ∀ origin ∈ origins, nul ∉ origin.toList := by
  rw [Delivery.failure?_eq_none_iff, load, List.forall_mem_map]
  simp only [not_failed_lenient_iff]

theorem failure?_load_strict_eq_none_iff :
    Delivery.failure? (tree.load false origins) = none ↔
      ∀ origin ∈ origins, tree.isReadable origin = true := by
  rw [Delivery.failure?_eq_none_iff, load, List.forall_mem_map]
  simp only [not_failed_strict_iff]

theorem load_of_readable (readable : ∀ origin ∈ origins, tree.isReadable origin = true)
    (skipUnreadable : Bool) :
    tree.load skipUnreadable origins = (origins.filterMap tree.document?).map .loaded := by
  induction origins with
  | nil => rfl
  | cons origin origins induction =>
      obtain ⟨originReadable, others⟩ := List.forall_mem_cons.mp readable
      obtain ⟨content, found⟩ := Option.isSome_iff_exists.mp originReadable
      have shown : tree.document? origin = some ⟨origin, content⟩ := by
        rw [document?, found, Option.map_some]
      rw [load, List.map_cons, List.filterMap_cons_some shown, List.map_cons,
        deliver_of_content found]
      exact congrArg _ (induction others)

theorem documents_load_strict :
    Delivery.documents (tree.load false origins) =
      Delivery.documents (tree.load true (origins.takeWhile tree.isReadable)) := by
  induction origins with
  | nil => rfl
  | cons origin origins induction =>
      cases outcome : tree.content? origin with
      | some content =>
          have readable : tree.isReadable origin = true := by rw [isReadable, outcome]; rfl
          rw [List.takeWhile_cons_of_pos readable, load, load, List.map_cons, List.map_cons,
            deliver_of_content outcome, deliver_of_content outcome]
          exact congrArg (Document.mk origin content :: ·) induction
      | none =>
          obtain ⟨failure, failed⟩ := exists_deliver_eq_failed outcome
          have unread : ¬tree.isReadable origin = true := by simp [isReadable, outcome]
          rw [List.takeWhile_cons_of_neg unread, load, List.map_cons, failed]
          rfl

section

variable (nulFree : ∀ origin ∈ origins, nul ∉ origin.toList)

include nulFree

theorem documents_load_lenient :
    Delivery.documents (tree.load true origins) = origins.filterMap tree.document? := by
  induction origins with
  | nil => rfl
  | cons origin origins induction =>
      obtain ⟨originFree, others⟩ := List.forall_mem_cons.mp nulFree
      rw [load, List.map_cons, List.filterMap_cons, document?]
      cases outcome : tree.content? origin with
      | some content =>
          rw [deliver_of_content outcome]
          exact congrArg _ (induction others)
      | none =>
          obtain ⟨error, unreadable⟩ := exists_isUnreadable originFree outcome
          rw [unreadable.deliver originFree]
          exact induction others

theorem failure?_load_strict {failure : Failure} :
    Delivery.failure? (tree.load false origins) = some failure ↔
      ∃ error, FirstFault tree.IsUnreadable origins error ∧ failure = .unreadable error := by
  rw [Delivery.failure?_eq_some_iff, load, firstFault_map_iff, ← firstFault_image_iff]
  exact firstFault_congr fun origin member _ => deliver_eq_failed_iff (nulFree origin member)

end

theorem readable_of_generateFrom {module code : Text}
    (generated : generateFrom (tree.load false origins) module = .ok code) :
    ∀ origin ∈ origins, tree.isReadable origin = true := by
  rw [← failure?_load_strict_eq_none_iff, Delivery.failure?_eq_none_iff]
  rintro delivery member failure rfl
  obtain ⟨catalog, found⟩ := (exists_generateFrom_eq_ok_iff _ module).mp ⟨code, generated⟩ _ member
  cases found

theorem filterMap_document?_filter :
    (origins.filter tree.isReadable).filterMap tree.document? =
      origins.filterMap tree.document? := by
  rw [List.filterMap_filter]
  congr 1
  funext origin
  rw [isReadable, document?]
  cases tree.content? origin <;> rfl

/-- Both policies hand over one document for every readable source. One that cannot be read ends
the strict loading and is left out by the other, unless its path is no path at all, which ends
both. -/
theorem load_policies_agree (tree : FileTree) (origins : List String) :
    (∀ origin content, tree.content? origin = some content ↔
      nul ∉ origin.toList ∧ ∃ text,
        tree.entry? (.ofString origin) = some (.file (Utf8.encode text)) ∧
          Text.unifyNewlines text = content) ∧
    (Delivery.failure? (tree.load true origins) = none ↔
      ∀ origin ∈ origins, nul ∉ origin.toList) ∧
    Delivery.documents (tree.load false origins) =
      Delivery.documents (tree.load true (origins.takeWhile tree.isReadable)) ∧
    (∀ module code, generateFrom (tree.load false origins) module = .ok code →
      generateFrom (tree.load true origins) module = .ok code) ∧
    ((∀ origin ∈ origins, nul ∉ origin.toList) →
      Delivery.documents (tree.load true origins) = origins.filterMap tree.document? ∧
      (∀ failure, Delivery.failure? (tree.load false origins) = some failure ↔
        ∃ error, FirstFault tree.IsUnreadable origins error ∧ failure = .unreadable error) ∧
      (Delivery.failure? (tree.load false origins) = none ↔
        ∀ origin ∈ origins, tree.isReadable origin = true) ∧
      ∀ module, generateFrom (tree.load true origins) module =
        generateFrom (tree.load false (origins.filter tree.isReadable)) module) := by
  refine ⟨fun origin content => ?readable, failure?_load_lenient_eq_none_iff,
    documents_load_strict, fun module code generated => ?accepted, fun nulFree =>
    ⟨documents_load_lenient nulFree, fun failure => failure?_load_strict nulFree,
      failure?_load_strict_eq_none_iff, fun module => ?filtered⟩⟩
  case readable =>
    simp only [content?_eq_some_iff, read_eq_ok_iff, decodeSource, map_eq_ok_iff,
      Utf8.decode_eq_ok_iff]
    refine and_congr_right fun _ => ⟨?_, ?_⟩
    · rintro ⟨_, present, text, rfl, unified⟩
      exact ⟨text, present, unified⟩
    · rintro ⟨text, present, unified⟩
      exact ⟨_, present, text, rfl, unified⟩
  case accepted =>
    have readable := readable_of_generateFrom generated
    rw [load_of_readable readable] at generated ⊢
    exact generated
  case filtered =>
    have readable : ∀ origin ∈ origins.filter tree.isReadable, tree.isReadable origin = true :=
      fun origin member => (List.mem_filter.mp member).2
    rw [load_of_readable readable, filterMap_document?_filter, generateFrom, generateFrom,
      Delivery.gather_eq_of_failure? (failure?_load_lenient_eq_none_iff.mpr nulFree),
      documents_load_lenient nulFree]

/-- A file that holds no text and a path that leads nowhere stand between two readable paths. -/
theorem load_policies_agree_mixed :
    let tree : FileTree := ⟨[], [
      (["a.metal".toList], .file (Utf8.encode "a\r\n".toList)),
      (["b.metal".toList], .file [0x62, 0xFF])], .usual⟩
    let origins := ["a.metal", "b.metal", "gone", "./a.metal"]
    (∀ origin ∈ origins, nul ∉ origin.toList) ∧
    Delivery.documents (tree.load true origins) =
      [⟨"a.metal", "a\n".toList⟩, ⟨"./a.metal", "a\n".toList⟩] ∧
    Delivery.failure? (tree.load false origins) =
      some (.unreadable ⟨"b.metal", .malformed ⟨0xFF, 1, 1, .invalidStart⟩⟩) ∧
    ∀ module, generateFrom (tree.load true origins) module =
      generateFrom (tree.load false ["a.metal", "./a.metal"]) module := by
  intro tree origins
  have nulFree : ∀ origin ∈ origins, nul ∉ origin.toList := by decide
  have loaded : origins.filterMap tree.document? =
      [⟨"a.metal", "a\n".toList⟩, ⟨"./a.metal", "a\n".toList⟩] := by decide +kernel
  have readable : origins.filter tree.isReadable = ["a.metal", "./a.metal"] := by decide +kernel
  have present : tree.entry? (.ofString "b.metal") = some (.file [0x62, 0xFF]) := by decide +kernel
  have first : FirstFault tree.IsUnreadable origins
      ⟨"b.metal", .malformed ⟨0xFF, 1, 1, .invalidStart⟩⟩ := by
    refine ⟨["a.metal"], _, _, rfl, ?_, .malformed present rfl⟩
    rw [List.forall_mem_singleton]
    intro error unreadable
    have unread := content?_of_isUnreadable unreadable
    revert unread
    decide +kernel
  obtain ⟨-, -, -, -, policies⟩ := load_policies_agree tree origins
  obtain ⟨documents, failures, -, generated⟩ := policies nulFree
  refine ⟨nulFree, documents.trans loaded, (failures _).mpr ⟨_, first, rfl⟩, ?_⟩
  rw [← readable]
  exact generated

/-- A path that no file system accepts is not left out. -/
theorem load_lenient_of_nul :
    let tree : FileTree := ⟨[], [], .usual⟩
    Delivery.failure? (tree.load true ["a\x00b"]) = some .nulInPath := by
  decide

end FileTree

end ShaderCatalog
