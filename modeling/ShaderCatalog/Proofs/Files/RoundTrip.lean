import ShaderCatalog.Proofs.Files.Loading
import ShaderCatalog.Proofs.Files.RepeatedWrites
import ShaderCatalog.Proofs.Text.Utf8

namespace ShaderCatalog

/-! What is written is what is read. A text goes to a file as its bytes and comes back as it
was, and it comes back so from files with other line endings too. -/

namespace Text

/-- The ways to end a line that are read as a newline. -/
def lineEndings : List Text :=
  [['\n'], ['\r', '\n'], ['\r']]

def withEndings (text ending : Text) : Text :=
  text.flatMap fun c => if c = '\n' then ending else [c]

theorem unifyNewlines_cons {c : Char} (noReturn : c ≠ '\r') (rest : Text) :
    unifyNewlines (c :: rest) = c :: unifyNewlines rest := by
  rw [unifyNewlines]
  · rintro _ rfl -
    exact noReturn rfl
  · exact noReturn

theorem unifyNewlines_return_cons {rest : Text} (noNewline : rest.head? ≠ some '\n') :
    unifyNewlines ('\r' :: rest) = '\n' :: unifyNewlines rest := by
  cases rest with
  | nil => rfl
  | cons c rest =>
      have different : c ≠ '\n' := fun same => noNewline (congrArg some same)
      simp [unifyNewlines, different]

theorem newline_not_mem_withEndings {ending : Text} (free : '\n' ∉ ending) (text : Text) :
    '\n' ∉ text.withEndings ending := by
  intro member
  obtain ⟨c, -, within⟩ := List.mem_flatMap.mp member
  split at within
  next => exact free within
  next other => exact other (List.mem_singleton.mp within).symm

theorem unifyNewlines_ending_append {ending : Text} (isEnding : ending ∈ lineEndings)
    (text : Text) :
    unifyNewlines (ending ++ text.withEndings ending) =
      '\n' :: unifyNewlines (text.withEndings ending) := by
  simp only [lineEndings, List.mem_cons, List.not_mem_nil, or_false] at isEnding
  rcases isEnding with rfl | rfl | rfl
  · exact unifyNewlines_cons (by decide) _
  · rfl
  · apply unifyNewlines_return_cons
    intro begins
    exact newline_not_mem_withEndings (by decide) text (List.mem_of_head? begins)

theorem unifyNewlines_withEndings {ending : Text} (isEnding : ending ∈ lineEndings) {text : Text}
    (returnFree : '\r' ∉ text) : unifyNewlines (text.withEndings ending) = text := by
  induction text with
  | nil => rfl
  | cons c text induction =>
      rw [List.mem_cons, not_or] at returnFree
      have rest := induction returnFree.2
      rw [withEndings, List.flatMap_cons]
      split
      next newline =>
        rw [newline]
        exact (unifyNewlines_ending_append isEnding text).trans (congrArg _ rest)
      next =>
        exact (unifyNewlines_cons (Ne.symm returnFree.1) _).trans (congrArg _ rest)

end Text

theorem decodeSource_encode {ending : Text} (isEnding : ending ∈ Text.lineEndings) {text : Text}
    (returnFree : '\r' ∉ text) :
    decodeSource (Utf8.encode (text.withEndings ending)) = .ok text := by
  rw [decodeSource, Utf8.decode_encode]
  exact congrArg Except.ok (Text.unifyNewlines_withEndings isEnding returnFree)

theorem Text.withEndings_newline (text : Text) : text.withEndings ['\n'] = text := by
  induction text with
  | nil => rfl
  | cons c text induction =>
      rw [withEndings, List.flatMap_cons]
      split
      next newline => exact congrArg₂ List.cons newline.symm induction
      next => exact congrArg (List.cons c) induction

namespace FileTree

section

variable {tree : FileTree} {path : Path} {text : Text} {place : Location}

theorem load_of_lookup (returnFree : '\r' ∉ text) {ending : Text}
    (isEnding : ending ∈ Text.lineEndings) (located : tree.locate path = .ok place)
    (present : tree.lookup place = some (.file (Utf8.encode (text.withEndings ending))))
    {origin : String} (isRead : Path.ofString origin = path) (nulFree : nul ∉ origin.toList)
    (skipUnreadable : Bool) : tree.load skipUnreadable [origin] = [.loaded ⟨origin, text⟩] := by
  simp only [load, List.map_cons, List.map_nil, deliver, readDocument, if_neg nulFree, isRead,
    read_of_file located present, decodeSource_encode isEnding returnFree]

end

/-- A text without carriage returns is loaded from the file that it was written to as it was,
and so it is from every file that holds it with other line endings. -/
theorem load_of_written {text : Text} (returnFree : '\r' ∉ text) (written : String)
    (skipUnreadable : Bool) :
    (∀ tree : FileTree, (tree.write (.ofString written) text).2 = .ok () →
      ∀ origin ∈ [written, (Path.ofString written).toString],
        (tree.write (.ofString written) text).1.load skipUnreadable [origin] =
          [.loaded ⟨origin, text⟩]) ∧
    ∀ (tree : FileTree) (ending : Text), ending ∈ Text.lineEndings →
      nul ∉ written.toList →
      tree.entry? (.ofString written) =
        some (.file (Utf8.encode (text.withEndings ending))) →
      ∀ origin ∈ [written, (Path.ofString written).toString],
        tree.load skipUnreadable [origin] = [.loaded ⟨origin, text⟩] := by
  have readsBack (nulFree : nul ∉ written.toList) {origin : String}
      (spelled : origin ∈ [written, (Path.ofString written).toString]) :
      Path.ofString origin = .ofString written ∧ nul ∉ origin.toList := by
    have proper : (Path.ofString written).IsProper := Path.isProper_ofText nulFree
    simp only [List.mem_cons, List.not_mem_nil, or_false] at spelled
    rcases spelled with rfl | rfl
    · exact ⟨rfl, nulFree⟩
    · exact ⟨Path.ofString_toString proper, Path.nul_not_mem_toString proper⟩
  constructor
  · intro tree succeeded origin spelled
    have writtenFree := Path.nul_not_mem_of_names (nul_not_mem_of_write succeeded)
    obtain ⟨isRead, nulFree⟩ := readsBack writtenFree spelled
    obtain ⟨place, writes⟩ := writesFile_write_of_ok succeeded
    have present : (tree.write (.ofString written) text).1.lookup place =
        some (.file (Utf8.encode (text.withEndings ['\n']))) := by
      rw [text.withEndings_newline]
      exact writes.written
    exact load_of_lookup returnFree (by decide) writes.located present isRead nulFree skipUnreadable
  · intro tree ending isEnding nulFree holds origin spelled
    obtain ⟨isRead, originFree⟩ := readsBack nulFree spelled
    obtain ⟨place, located, present⟩ := exists_locate_of_entry holds
    exact load_of_lookup returnFree isEnding located present isRead originFree skipUnreadable

theorem load_of_written_mixed :
    let text : Text := "aé\n\n€😀\n".toList
    let tree : FileTree := ⟨["home".toList], [], .usual⟩
    let written := (tree.write (.ofString "./out//a.metal") text).1
    let returned := tree.put ["b.metal".toList, "home".toList]
      (.file (Utf8.encode "aé\r\r€😀\r".toList))
    '\r' ∉ text ∧ (tree.write (.ofString "./out//a.metal") text).2 = .ok () ∧
    written.load false ["./out//a.metal"] = [.loaded ⟨"./out//a.metal", text⟩] ∧
    written.load false ["out/a.metal"] = [.loaded ⟨"out/a.metal", text⟩] ∧
    returned.entry? (.ofString "b.metal") =
      some (.file (Utf8.encode (text.withEndings ['\r']))) ∧
    returned.load true ["b.metal"] = [.loaded ⟨"b.metal", text⟩] := by
  intro text tree written returned
  have returnFree : '\r' ∉ text := by decide
  have succeeded : (tree.write (.ofString "./out//a.metal") text).2 = .ok () := by decide +kernel
  have holds : returned.entry? (.ofString "b.metal") =
      some (.file (Utf8.encode (text.withEndings ['\r']))) := by
    decide +kernel
  have spelled : (Path.ofString "./out//a.metal").toString = "out/a.metal" := by decide +kernel
  obtain ⟨fromWrite, -⟩ := load_of_written returnFree "./out//a.metal" false
  obtain ⟨-, fromFile⟩ := load_of_written returnFree "b.metal" true
  refine ⟨returnFree, succeeded, fromWrite tree succeeded _ List.mem_cons_self, ?_, holds,
    fromFile returned ['\r'] (by decide) (by decide) holds _ List.mem_cons_self⟩
  rw [← spelled]
  exact fromWrite tree succeeded _ (List.mem_cons_of_mem _ List.mem_cons_self)

end FileTree

end ShaderCatalog
