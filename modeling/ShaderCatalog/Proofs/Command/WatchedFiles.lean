import ShaderCatalog.Proofs.Command.Watch
import ShaderCatalog.Proofs.Files.ShaderFiles

namespace ShaderCatalog

/-! The files that a watching command generates code from are all watched; a change to one
of them calls for new code if it has a shader's name. -/

/-- Whether the observer delivers the events of a place because of a call: the directory
around the place is scheduled, or one further out with all that is below it. -/
def ObserverCall.Covers (call : ObserverCall) (place : Location) : Prop :=
  ∃ directory recursive, call = .schedule directory recursive ∧
    (directory = place.tail ∨ recursive = true ∧ directory <:+ place.tail)

namespace FileTree

/-- Whether a text is a path to a place, and ends in the name of the place. -/
def Spells (tree : FileTree) (source : String) (place : Location) : Prop :=
  ∃ path : Path, path.IsProper ∧ source = path.toString ∧ tree.absolute path = place ∧
    path.names.getLast? = place.head?

section

variable (tree : FileTree) {place : Location}
  (proper : ∀ name ∈ place, IsPathName name ∧ name ≠ parentName)

include proper

theorem absolute_ofPlace : tree.absolute (.ofPlace place) = place := by
  have named : ∀ name ∈ place.reverse, IsPathName name :=
    fun name member => (proper name (List.mem_reverse.mp member)).1
  have straight : parentName ∉ place.reverse :=
    fun member => (proper parentName (List.mem_reverse.mp member)).2 rfl
  have fromRoot : tree.origin (.ofPlace place) = [] := rfl
  have walked := foldl_step_of_not_mem straight []
  rw [List.reverse_reverse, List.append_nil] at walked
  rw [absolute, fromRoot, Path.ofPlace, Path.names_mk named]
  exact walked

theorem spells_pathText : tree.Spells (pathText place) place := by
  have named : ∀ name ∈ place.reverse, IsPathName name :=
    fun name member => (proper name (List.mem_reverse.mp member)).1
  refine ⟨.ofPlace place, ⟨1, place.reverse, rfl, named⟩, ?_, tree.absolute_ofPlace proper, ?_⟩
  · rw [Path.ofPlace, Path.toString, Path.text_mk named]
    rfl
  · rw [Path.ofPlace, Path.names_mk named, List.getLast?_reverse]

end

theorem spells_toString {tree : FileTree} {path : Path} (proper : path.IsProper)
    {name : Text} {around : Location} (last : path.names.getLast? = some name)
    (located : tree.locate path = .ok (name :: around)) :
    tree.Spells path.toString (name :: around) :=
  ⟨path, proper, rfl, absolute_of_locate located, last⟩

theorem Collects.covers {tree : FileTree} (treeProper : tree.IsProper) {input file : Path}
    (inputProper : input.IsProper)
    (reached : ∃ place, tree.locate (.ofPlace (tree.absolute input)) = .ok place)
    {place : Location} {bytes : Bytes} (collects : Collects tree input place file)
    (present : tree.lookup place = some (.file bytes)) :
    (scheduleOf tree input).Covers place := by
  have same : tree.absolute (.ofPlace (tree.absolute input)) = tree.absolute input :=
    tree.absolute_ofPlace fun _ member => isPathName_of_mem_absolute treeProper inputProper member
  obtain ⟨reachedPlace, leads⟩ := reached
  obtain rfl : tree.absolute input = reachedPlace := same.symm.trans (absolute_of_locate leads)
  cases collects with
  | given located =>
      rw [absolute_of_locate located] at leads
      refine ⟨place.tail, false, ?_, Or.inl rfl⟩
      simp [scheduleOf, absolute_of_locate located, isDirectory, entry?, leads, present]
  | @below directory _ _ _ located isDirectory _ _ _ inside =>
      rw [absolute_of_locate located] at leads
      refine ⟨directory, true, ?_, Or.inr ⟨rfl, inside⟩⟩
      simp [scheduleOf, absolute_of_locate located, FileTree.isDirectory, entry?, leads, isDirectory]

theorem Collects.eq_or_shader {tree : FileTree} {input file : Path} {name : Text}
    {around : Location} (collects : Collects tree input (name :: around) file) :
    file = input ∨ shaderSuffix <:+ name := by
  cases collects with
  | given => exact Or.inl rfl
  | below _ _ _ _ _ _ shader => exact Or.inr shader

theorem Spells.namesShader_iff {tree : FileTree} {source : String} {name : Text}
    {around : Location} (spells : tree.Spells source (name :: around)) :
    ChangeEvent.namesShader source = true ↔ shaderSuffix <:+ name := by
  obtain ⟨path, proper, rfl, -, last⟩ := spells
  rw [ChangeEvent.namesShader, List.isSuffixOf_iff_suffix, Path.toString, String.toList_ofList]
  exact Path.isSuffix_text_iff proper (by decide) last

end FileTree

namespace ChangeEvent

/-- Whether the event tells that something other than a directory was made, changed, moved
or taken away. -/
structure TellsOfChange (event : ChangeEvent) : Prop where
  ofFile : event.ofDirectory = false
  kind : event.kind ∈ [.modified, .created, .deleted, .moved]

theorem TellsOfChange.concernsShaders_eq {event : ChangeEvent} (tells : event.TellsOfChange) :
    event.concernsShaders = (namesShader event.source || namesShader event.destination) := by
  have changes : event.kind.changesFiles = true := by
    have kind := tells.kind
    cases same : event.kind <;> simp_all [EventKind.changesFiles]
  rw [concernsShaders, tells.ofFile, changes]
  rfl

end ChangeEvent

/-- What the end of a sleep with a tick in it brings: the code is generated again, and either
the next sleep follows or the command ends with that. -/
inductive Regenerates (request : Request) (output : Path) (result : WatchResult) (i : Nat)
    (tick : Tick) : Prop where
  | asleep {before after : FileTree × FileTree}
      (slept : (WatchStep.sleeps result.steps)[i]? = some before)
      (next : (WatchStep.sleeps result.steps)[i + 1]? = some after)
      (reference : after.1 = tick.tree before.2)
      (generated : after.2 = (request.regenerate after.1 output).tree)
  | ended {before : FileTree × FileTree} {failure : Failure}
      (slept : (WatchStep.sleeps result.steps)[i]? = some before)
      (failed : (request.regenerate (tick.tree before.2) output).outcome = .error failure)
      (ending : result.ending = .crash failure)
      (generated : result.tree = (request.regenerate (tick.tree before.2) output).tree)

section

variable {tree : FileTree} {request : Request} {files : List Path}
  (found : request.files tree = .ok files) (output : Path) (verbose : Bool) (ticks : List Tick)
  (last : SleepEnd)

include found

theorem scheduleOf_mem_calls {input : Path} (member : input ∈ request.inputs) :
    scheduleOf tree input ∈
      WatchStep.calls (watchCommand tree request output verbose none ticks last).steps := by
  have scheduled := List.mem_map_of_mem (f := scheduleOf tree) member
  cases crash : (request.regenerate tree output).crash? with
  | some failure =>
      obtain ⟨steps, same, calls, -⟩ :=
        watchCommand_of_crash found output verbose ticks last crash
      rw [same, calls]
      exact scheduled
  | none =>
      obtain ⟨opening, loop, same, calls, -⟩ :=
        watchCommand_of_survived found output verbose ticks last crash
      rw [same]
      simp only [WatchStep.calls_append, calls, List.append_assoc]
      exact List.mem_append_left _ scheduled

theorem regenerates_of_changes {i : Nat} {tick : Tick} (ticked : ticks[i]? = some tick)
    (changes : tick.ChangesShaders) :
    let result := watchCommand tree request output verbose none ticks last
    i < (WatchStep.sleeps result.steps).length → Regenerates request output result i tick := by
  intro result slept
  cases crash : (request.regenerate tree output).crash? with
  | some failure =>
      obtain ⟨steps, same, -, sleeps⟩ :=
        watchCommand_of_crash found output verbose ticks last crash
      rw [show result = _ from same, sleeps] at slept
      exact absurd slept (Nat.not_lt_zero i)
  | none =>
      obtain ⟨opening, loop, same, -, noSleep, follows⟩ :=
        watchCommand_of_survived found output verbose ticks last crash
      have sleeps : WatchStep.sleeps result.steps = WatchStep.sleeps loop.steps := by
        rw [show result = _ from same, WatchStep.sleeps_append, WatchStep.sleeps_append, noSleep]
        exact List.append_nil _
      rw [sleeps] at slept
      by_cases early : i + 1 < (WatchStep.sleeps loop.steps).length
      · obtain ⟨before, after, report, this, next, -, turn⟩ := follows.follows i tick ticked early
        rw [← sleeps] at this next
        refine .asleep this next turn.reference ?_
        rw [request.tree_regenerate _ _ ⟨id⟩ verbose]
        exact turn.generated changes _ _
      · have inTicks := (List.getElem?_eq_some_iff.mp ticked).1
        cases follows.ends with
        | slept all => omega
        | crashed count counted tickedToo asleep _ failed _ ending left =>
            obtain rfl : i = count := by omega
            cases ticked.symm.trans tickedToo
            rw [← sleeps] at asleep
            refine .ended asleep failed ?_ ?_
            · rw [show result = _ from same, ending]
            · rw [show result = _ from same, left]

end

/-- Every file that code is generated from is watched. When the observer tells of a change
to it, new code is generated at the end of the sleep if the file has a shader's name, as all
files have that were found below a directory; a change to another file sets no flag. -/
theorem watchCommand_covers_files {tree : FileTree} {request : Request} {files : List Path}
    {file : Path} (treeProper : tree.IsProper)
    (inputsProper : ∀ input ∈ request.inputs, input.IsProper)
    (reached : ∀ input ∈ request.inputs,
      ∃ place, tree.locate (.ofPlace (tree.absolute input)) = .ok place)
    (found : request.files tree = .ok files) (member : file ∈ files) (output : Path)
    (verbose : Bool) (ticks : List Tick) (last : SleepEnd) :
    let result := watchCommand tree request output verbose none ticks last
    ∃ name around, tree.locate file = .ok (name :: around) ∧
      (∃ call ∈ WatchStep.calls result.steps, call.Covers (name :: around)) ∧
      (file ∉ request.inputs → shaderSuffix <:+ name) ∧
      tree.Spells file.toString (name :: around) ∧
      tree.Spells (pathText (name :: around)) (name :: around) ∧
      ∀ event : ChangeEvent, event.TellsOfChange → tree.Spells event.source (name :: around) →
        (shaderSuffix <:+ name →
          (∀ flag, ChangeEvent.flagAfter flag event = true) ∧
          ∀ i tick, ticks[i]? = some tick → event ∈ tick.events →
            i < (WatchStep.sleeps result.steps).length →
              Regenerates request output result i tick) ∧
        (¬shaderSuffix <:+ name → ¬shaderSuffix <:+ event.destination.toList →
          ∀ flag, ChangeEvent.flagAfter flag event = flag) := by
  obtain ⟨input, isInput, place, bytes, present, collects⟩ :=
    FileTree.collects_of_mem_shaderFiles treeProper found member
  have inputProper := inputsProper input isInput
  have fileProper := collects.isProper inputProper
  have located := collects.locate inputProper
  obtain ⟨name, around, rfl, last'⟩ := FileTree.exists_eq_cons_of_file located present
  intro result
  refine ⟨name, around, located, ⟨scheduleOf tree input, ?_,
    collects.covers treeProper inputProper (reached input isInput) present⟩, ?_,
    FileTree.spells_toString fileProper last' located, ?_, ?_⟩
  · exact scheduleOf_mem_calls found output verbose ticks last isInput
  · intro notGiven
    rcases collects.eq_or_shader with rfl | shader
    · exact absurd isInput notGiven
    · exact shader
  · exact tree.spells_pathText fun other inPlace =>
      FileTree.isPathName_of_mem_locate treeProper fileProper located inPlace
  · intro event tells spells
    refine ⟨fun shader => ?_, fun noShader notMoved flag => ?_⟩
    · have concerns : event.concernsShaders = true := by
        rw [tells.concernsShaders_eq, spells.namesShader_iff.mpr shader, Bool.true_or]
      refine ⟨fun flag => ?_, fun i tick ticked inTick slept => ?_⟩
      · rw [ChangeEvent.flagAfter, concerns, Bool.or_true]
      · exact regenerates_of_changes found output verbose ticks last ticked
          ⟨event, inTick, event.concernsShaders_iff.mp concerns⟩ slept
    · have other : ChangeEvent.namesShader event.source = false :=
        Bool.eq_false_iff.mpr (mt spells.namesShader_iff.mp noShader)
      have elsewhere : ChangeEvent.namesShader event.destination = false :=
        Bool.eq_false_iff.mpr (mt (ChangeEvent.namesShader_iff _).mp notMoved)
      rw [ChangeEvent.flagAfter, tells.concernsShaders_eq, other, elsewhere, Bool.or_false,
        Bool.or_false]

theorem watchCommand_covers_files_below :
    let tree : FileTree :=
      ⟨[], [(["a.metal".toList, "Sh".toList], .file (Utf8.encode "kernel void k(int i)".toList)),
        (["Sh".toList], .directory)], .usual⟩
    let input := Path.ofString "Sh"
    let request : Request := ⟨[input], "App".toList, false⟩
    let output := Path.ofString "out.swift"
    let file := Path.ofString "Sh/a.metal"
    let event : ChangeEvent := { kind := .modified, source := "/Sh/a.metal" }
    let tick : Tick := ⟨[.put file (.file [])], [event]⟩
    let result := watchCommand tree request output false none [tick] .interrupt
    tree.IsProper ∧ input.IsProper ∧
    tree.locate (.ofPlace (tree.absolute input)) = .ok ["Sh".toList] ∧
    request.files tree = .ok [file] ∧ event.TellsOfChange ∧
    tree.Spells event.source ["a.metal".toList, "Sh".toList] ∧
    shaderSuffix <:+ "a.metal".toList ∧
    (∃ call ∈ WatchStep.calls result.steps, call.Covers ["a.metal".toList, "Sh".toList]) ∧
    (WatchStep.sleeps result.steps).length = 2 ∧ Regenerates request output result 0 tick := by
  intro tree input request output file event tick result
  have proper : tree.IsProper := by decide +kernel
  have inputProper : input.IsProper := Path.isProper_ofText (by decide)
  have reached : tree.locate (.ofPlace (tree.absolute input)) = .ok ["Sh".toList] := by
    decide +kernel
  have found : request.files tree = .ok [file] := by decide +kernel
  have tells : event.TellsOfChange := ⟨rfl, by decide⟩
  have shader : shaderSuffix <:+ "a.metal".toList := by decide
  have leads : tree.locate file = .ok ["a.metal".toList, "Sh".toList] := by decide +kernel
  have slept : (WatchStep.sleeps result.steps).length = 2 := by decide +kernel
  obtain ⟨name, around, located, covered, -, -, spells, reacts⟩ :=
    watchCommand_covers_files proper
      (fun path member => by rw [List.mem_singleton.mp member]; exact inputProper)
      (fun path member => by rw [List.mem_singleton.mp member]; exact ⟨_, reached⟩)
      found (List.mem_singleton_self file) output false [tick] .interrupt
  rw [leads] at located
  cases located
  have source : pathText ["a.metal".toList, "Sh".toList] = event.source := by decide
  rw [source] at spells
  obtain ⟨-, regenerated⟩ := (reacts event tells spells).1 shader
  exact ⟨proper, inputProper, reached, found, tells, spells, shader, covered, slept,
    regenerated 0 tick rfl (List.mem_singleton_self event) (by rw [slept]; decide)⟩

/-- A change to an input whose name is not a shader's: the flag stays down, and the output
goes stale. -/
theorem change_to_other_name_is_ignored :
    let tree : FileTree :=
      ⟨[], [(["notes.txt".toList], .file (Utf8.encode "kernel void k(int i)".toList))], .usual⟩
    let file := Path.ofString "notes.txt"
    let request : Request := ⟨[file], "App".toList, false⟩
    let output := Path.ofString "out.swift"
    let event : ChangeEvent := { kind := .modified, source := file.toString }
    let edited := Edit.put file (.file (Utf8.encode "kernel void other(int i)".toList))
    let left := (watchCommand tree request output false none [⟨[edited], [event]⟩] .interrupt).tree
    request.files tree = .ok [file] ∧ event.ofDirectory = false ∧
    ChangeEvent.flagAfter false event = false ∧
    left.entry? output ≠ (request.regenerate left output).tree.entry? output := by
  decide +kernel

end ShaderCatalog
