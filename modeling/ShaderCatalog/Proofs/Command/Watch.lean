import ShaderCatalog.Proofs.Command.Regeneration
import ShaderCatalog.Proofs.Files.ShaderFiles

namespace ShaderCatalog

/-! The turns of a watching command: each tick with a change to a shader file is
followed by one run of the generator on the tree that the tick left, and no other. The loop
ends with its last sleep, unless a run meets a failure that the command is not prepared for. -/

/-- Whether a shader file was changed during the tick, or moved to or from its
place. -/
def Tick.ChangesShaders (tick : Tick) : Prop :=
  ∃ event ∈ tick.events, event.ofDirectory = false ∧
    event.kind ≠ .opened ∧ event.kind ≠ .closedUnwritten ∧
      (".metal".toList <:+ event.source.toList ∨ ".metal".toList <:+ event.destination.toList)

theorem EventKind.changesFiles_iff (kind : EventKind) :
    kind.changesFiles = true ↔ kind ≠ .opened ∧ kind ≠ .closedUnwritten := by
  cases kind <;> simp [changesFiles]

theorem ChangeEvent.namesShader_iff (path : String) :
    namesShader path = true ↔ ".metal".toList <:+ path.toList :=
  List.isSuffixOf_iff_suffix

theorem ChangeEvent.concernsShaders_iff (event : ChangeEvent) :
    event.concernsShaders = true ↔ event.ofDirectory = false ∧
      event.kind ≠ .opened ∧ event.kind ≠ .closedUnwritten ∧
        (".metal".toList <:+ event.source.toList ∨
          ".metal".toList <:+ event.destination.toList) := by
  simp only [concernsShaders, namesShader_iff, Bool.and_eq_true, Bool.or_eq_true,
    Bool.not_eq_true', EventKind.changesFiles_iff, and_assoc]

theorem foldl_flagAfter (flag : Bool) (events : List ChangeEvent) :
    events.foldl ChangeEvent.flagAfter flag = (flag || events.any ChangeEvent.concernsShaders) := by
  induction events generalizing flag with
  | nil => simp
  | cons event events induction =>
      rw [List.foldl_cons, induction, ChangeEvent.flagAfter, List.any_cons, Bool.or_assoc]

namespace WatchStep

def pending : List WatchStep → List Record
  | [] => []
  | log record :: rest => record :: pending rest
  | call _ :: rest => pending rest
  | sleep _ _ :: _ => []

def reports : List WatchStep → List (List Record)
  | [] => []
  | sleep _ _ :: rest => pending rest :: reports rest
  | _ :: rest => reports rest

section

variable (verbose : Bool) (records : List Record) (rest : List WatchStep)

theorem calls_append (first second : List WatchStep) :
    calls (first ++ second) = calls first ++ calls second := by
  induction first with
  | nil => rfl
  | cons step first induction =>
      cases step <;> simp [calls, induction]

theorem sleeps_append (first second : List WatchStep) :
    sleeps (first ++ second) = sleeps first ++ sleeps second := by
  induction first with
  | nil => rfl
  | cons step first induction =>
      cases step <;> simp [sleeps, induction]

theorem calls_logs : calls (logs verbose records) = [] := by
  unfold logs
  induction Record.atLeast (logLevel verbose) records with
  | nil => rfl
  | cons record records induction => exact induction

theorem sleeps_logs : sleeps (logs verbose records) = [] := by
  unfold logs
  induction Record.atLeast (logLevel verbose) records with
  | nil => rfl
  | cons record records induction => exact induction

theorem pending_logs_append :
    pending (logs verbose records ++ rest) =
      Record.atLeast (logLevel verbose) records ++ pending rest := by
  unfold logs
  induction Record.atLeast (logLevel verbose) records with
  | nil => rfl
  | cons record records induction => exact congrArg (record :: ·) induction

theorem reports_logs_append : reports (logs verbose records ++ rest) = reports rest := by
  unfold logs
  induction Record.atLeast (logLevel verbose) records with
  | nil => rfl
  | cons record records induction => exact induction

variable (reference tree : FileTree)

theorem calls_asleep :
    calls (sleep reference tree :: (logs verbose records ++ rest)) = calls rest := by
  rw [calls, calls_append, calls_logs, List.nil_append]
  simp

theorem sleeps_asleep :
    sleeps (sleep reference tree :: (logs verbose records ++ rest)) =
      (reference, tree) :: sleeps rest := by
  rw [sleeps, sleeps_append, sleeps_logs, List.nil_append]

theorem reports_asleep :
    reports (sleep reference tree :: (logs verbose records ++ rest)) =
      (Record.atLeast (logLevel verbose) records ++ pending rest) :: reports rest := by
  rw [reports, pending_logs_append, reports_logs_append]

theorem calls_schedules (tree : FileTree) (paths : List Path) :
    calls (paths.map fun path => call (scheduleOf tree path)) = paths.map (scheduleOf tree) := by
  induction paths with
  | nil => rfl
  | cons path paths induction => exact congrArg (scheduleOf tree path :: ·) induction

theorem sleeps_schedules (tree : FileTree) (paths : List Path) :
    sleeps (paths.map fun path => call (scheduleOf tree path)) = [] := by
  induction paths with
  | nil => rfl
  | cons path paths induction => exact induction

end

end WatchStep

theorem Regeneration.crash?_eq_some_iff {regeneration : Regeneration} {failure : Failure} :
    regeneration.crash? = some failure ↔
      regeneration.outcome = .error failure ∧ failure.isExpected = false := by
  unfold crash?
  cases regeneration.outcome with
  | ok _ => simp
  | error other =>
      simp only [Except.error.injEq]
      split
      next expected => exact iff_of_false (by simp) fun ⟨same, unexpected⟩ => by simp_all
      next unexpected =>
        rw [Option.some.injEq]
        refine ⟨fun same => ⟨same, ?_⟩, And.left⟩
        rw [← same]
        exact Bool.eq_false_iff.mpr unexpected

section

variable {tick : Tick}

theorem Tick.due_iff :
    tick.events.foldl ChangeEvent.flagAfter false = true ↔ tick.ChangesShaders := by
  rw [foldl_flagAfter, Bool.false_or, List.any_eq_true, ChangesShaders]
  simp only [ChangeEvent.concernsShaders_iff]

theorem Tick.records_eq_nil (idle : ¬tick.ChangesShaders) :
    tick.events.flatMap ChangeEvent.records = [] := by
  rw [List.flatMap_eq_nil_iff]
  intro event member
  refine if_neg fun concerns => idle ⟨event, member, ?_⟩
  exact event.concernsShaders_iff.mp concerns

namespace WatchState

variable {state : WatchState} (request : Request) (output : Path)

theorem due_turn : (state.turn request output tick).state.due = false := by
  unfold turn wake
  split
  next => rfl
  next idle => simpa using idle

theorem turn_of_changes (lowered : state.due = false) (changes : tick.ChangesShaders) :
    let regenerated := request.regenerate (tick.tree state.tree) output
    state.turn request output tick =
      ⟨⟨regenerated.tree, false⟩, tick.events.flatMap ChangeEvent.records ++ regenerated.log,
        regenerated.crash?⟩ := by
  have due := Tick.due_iff.mpr changes
  simp only [turn, wake, afterSleep, lowered, due, if_true]

theorem turn_of_idle (lowered : state.due = false) (idle : ¬tick.ChangesShaders) :
    state.turn request output tick = ⟨⟨tick.tree state.tree, false⟩, [], none⟩ := by
  have notDue := Bool.eq_false_iff.mpr (mt Tick.due_iff.mp idle)
  simp only [turn, wake, afterSleep, lowered, notDue, Bool.false_eq_true, if_false,
    Tick.records_eq_nil idle, List.append_nil]

end WatchState

end

/-- What a turn makes of a tick: `before` and `after` are the trees at the sleeps
around it, each behind its reference, and `report` is what is logged in between. -/
structure Follows (request : Request) (output : Path) (verbose : Bool) (tick : Tick)
    (before after : FileTree × FileTree) (report : List Record) : Prop where
  reference : after.1 = tick.tree before.2
  generated : tick.ChangesShaders → ∀ console generateVerbose,
    after.2 = (generateCommand console after.1 request (some output) generateVerbose).tree
  failed : ∀ console generateVerbose,
    (generateCommand console after.1 request (some output) generateVerbose).ending ≠ .exit 0 →
      ∀ place bytes, after.2.lookup place = some (.file bytes) ↔
        after.1.lookup place = some (.file bytes)
  idle : ¬tick.ChangesShaders → after.2 = after.1
  /-- There is one run of the generator, however many events call for it. -/
  reported : tick.ChangesShaders →
    report = Record.atLeast (logLevel verbose)
      (tick.events.flatMap ChangeEvent.records ++ (request.regenerate after.1 output).log)
  reportedAlike : tick.ChangesShaders → ∀ console,
    (generateCommand console after.1 request (some output) verbose).ending = .exit 0 →
      report =
        Record.atLeast (logLevel verbose) (tick.events.flatMap ChangeEvent.records) ++
          (generateCommand console after.1 request (some output) verbose).log
  silent : ¬tick.ChangesShaders → report = []

section

variable (request : Request) (output : Path) (verbose : Bool)

theorem follows_turn {state : WatchState} (lowered : state.due = false) (tick : Tick)
    (reference : FileTree) :
    let turn := state.turn request output tick
    Follows request output verbose tick (reference, state.tree)
      (tick.tree state.tree, turn.state.tree) (Record.atLeast (logLevel verbose) turn.log) := by
  by_cases changes : tick.ChangesShaders
  · have taken := WatchState.turn_of_changes request output lowered changes
    have generated (console : Console) (generateVerbose : Bool) :
        (request.regenerate (tick.tree state.tree) output).tree = (generateCommand console
          (tick.tree state.tree) request (some output) generateVerbose).tree :=
      request.tree_regenerate _ _ console generateVerbose
    rw [taken]
    constructor
    case reference => rfl
    case generated => exact fun _ => generated
    case failed =>
      intro console generateVerbose failed place bytes
      rw [generated console generateVerbose]
      exact (addsDirectories_generateCommand failed).lookup_eq_file_iff place bytes
    case idle => exact fun idle => absurd changes idle
    case reported => exact fun _ => rfl
    case reportedAlike =>
      intro _ console succeeded
      rw [← Request.log_regenerate_of_exit succeeded]
      exact List.filter_append _ _
    case silent => exact fun idle => absurd changes idle
  · rw [WatchState.turn_of_idle request output lowered changes]
    constructor
    case reference => rfl
    case generated => exact fun changed => absurd changed changes
    case failed => exact fun _ _ _ _ _ => Iff.rfl
    case idle => exact fun _ => rfl
    case reported => exact fun changed => absurd changed changes
    case reportedAlike => exact fun changed => absurd changed changes
    case silent => exact fun _ => rfl

end

def SleepEnd.ending : SleepEnd → Ending
  | interrupt => .exit 0
  | refused reason => .sleepless reason

/-- How the loop ends: with the last sleep, or with a tick after which code is due and the
generator meets a failure that the command is not prepared for. -/
inductive LoopEnds (request : Request) (output : Path) (last : SleepEnd) (ticks : List Tick)
    (loop : WatchResult) : Prop where
  | slept (all : (WatchStep.sleeps loop.steps).length = ticks.length + 1)
      (ending : loop.ending = last.ending)
      (left : (WatchStep.sleeps loop.steps).getLast?.map (·.2) = some loop.tree)
  | crashed (count : Nat) {tick : Tick} {before : FileTree × FileTree} {failure : Failure}
      (some : (WatchStep.sleeps loop.steps).length = count + 1)
      (ticked : ticks[count]? = .some tick)
      (asleep : (WatchStep.sleeps loop.steps)[count]? = .some before)
      (changes : tick.ChangesShaders)
      (failed : (request.regenerate (tick.tree before.2) output).outcome = .error failure)
      (unexpected : failure.isExpected = false) (ending : loop.ending = .crash failure)
      (left : loop.tree = (request.regenerate (tick.tree before.2) output).tree)

/-- What the loop does from a sleep on: its sleeps follow each other tick by tick, and it
calls for nothing else. -/
structure LoopFollows (request : Request) (output : Path) (verbose : Bool) (last : SleepEnd)
    (start : FileTree × FileTree) (ticks : List Tick) (loop : WatchResult) : Prop where
  calls : WatchStep.calls loop.steps = []
  pending : WatchStep.pending loop.steps = []
  first : (WatchStep.sleeps loop.steps)[0]? = some start
  reports : (WatchStep.reports loop.steps).length = (WatchStep.sleeps loop.steps).length
  follows : ∀ i tick, ticks[i]? = some tick → i + 1 < (WatchStep.sleeps loop.steps).length →
    ∃ before after report, (WatchStep.sleeps loop.steps)[i]? = some before ∧
      (WatchStep.sleeps loop.steps)[i + 1]? = some after ∧
      (WatchStep.reports loop.steps)[i]? = some report ∧
      Follows request output verbose tick before after report
  ends : LoopEnds request output last ticks loop

section

variable {request : Request} {output : Path} {verbose : Bool} {last : SleepEnd}

theorem LoopEnds.cons {start : FileTree × FileTree} {tick : Tick} {ticks : List Tick}
    {rest : WatchResult} (records : List Record)
    (positive : 0 < (WatchStep.sleeps rest.steps).length)
    (ends : LoopEnds request output last ticks rest) :
    LoopEnds request output last (tick :: ticks) { rest with
      steps := .sleep start.1 start.2 :: (WatchStep.logs verbose records ++ rest.steps) } := by
  cases ends with
  | slept all ending left =>
      refine .slept (by rw [WatchStep.sleeps_asleep, List.length_cons, all]; rfl) ending ?_
      rw [WatchStep.sleeps_asleep, List.getLast?_cons_of_ne_nil (List.length_pos_iff.mp positive),
        left]
  | crashed count some ticked asleep changes failed unexpected ending left =>
      exact .crashed (count + 1)
        (by rw [WatchStep.sleeps_asleep, List.length_cons, some]) ticked
        (by rw [WatchStep.sleeps_asleep]; exact asleep) changes failed unexpected ending left

theorem LoopEnds.follows {start : FileTree × FileTree} {ticks : List Tick} {loop : WatchResult}
    {records : List Record}
    (steps : loop.steps = .sleep start.1 start.2 :: WatchStep.logs verbose records)
    (ends : LoopEnds request output last ticks loop) :
    LoopFollows request output verbose last start ticks loop := by
  have asleep : loop.steps = .sleep start.1 start.2 :: (WatchStep.logs verbose records ++ []) := by
    rw [steps, List.append_nil]
  constructor
  case calls =>
    rw [asleep, WatchStep.calls_asleep]
    rfl
  case pending =>
    rw [asleep]
    rfl
  case first =>
    rw [asleep, WatchStep.sleeps_asleep]
    rfl
  case reports =>
    rw [asleep, WatchStep.reports_asleep, WatchStep.sleeps_asleep]
    rfl
  case follows =>
    intro i tick _ early
    rw [asleep, WatchStep.sleeps_asleep] at early
    exact absurd early (by simp [WatchStep.sleeps])
  case ends => exact ends

theorem LoopFollows.cons {start after : FileTree × FileTree} {tick : Tick} {ticks : List Tick}
    {records : List Record} {rest : WatchResult}
    (turn : Follows request output verbose tick start after
      (Record.atLeast (logLevel verbose) records))
    (loop : LoopFollows request output verbose last after ticks rest) :
    LoopFollows request output verbose last start (tick :: ticks) { rest with
      steps := .sleep start.1 start.2 :: (WatchStep.logs verbose records ++ rest.steps) } := by
  constructor
  case calls => rw [WatchStep.calls_asleep, loop.calls]
  case pending => rfl
  case first => rw [WatchStep.sleeps_asleep]; rfl
  case reports =>
    rw [WatchStep.reports_asleep, WatchStep.sleeps_asleep, List.length_cons, List.length_cons,
      loop.reports]
  case follows =>
    intro i other ticked early
    simp only [WatchStep.reports_asleep, WatchStep.sleeps_asleep, loop.pending, List.append_nil]
      at early ⊢
    cases i with
    | zero =>
        cases ticked
        exact ⟨start, after, _, rfl, loop.first, rfl, turn⟩
    | succ i => exact loop.follows i other ticked (Nat.lt_of_succ_lt_succ early)
  case ends => exact loop.ends.cons records (List.getElem?_eq_some_iff.mp loop.first).1

variable (request output verbose last)

theorem watchLoop_nil (reference : FileTree) (state : WatchState) :
    ∃ records, watchLoop request output verbose last reference state [] =
      ⟨last.ending, .sleep reference state.tree :: WatchStep.logs verbose records, state.tree⟩ := by
  cases last with
  | interrupt => exact ⟨_, rfl⟩
  | refused reason => exact ⟨[], rfl⟩

theorem loopFollows_watchLoop (state : WatchState) (lowered : state.due = false)
    (reference : FileTree) (ticks : List Tick) :
    LoopFollows request output verbose last (reference, state.tree) ticks
      (watchLoop request output verbose last reference state ticks) := by
  induction ticks generalizing reference state with
  | nil =>
      obtain ⟨records, same⟩ := watchLoop_nil request output verbose last reference state
      rw [same]
      have sleeps := WatchStep.sleeps_asleep verbose records [] reference state.tree
      rw [List.append_nil] at sleeps
      exact LoopEnds.follows rfl (.slept (congrArg List.length sleeps) rfl
        (congrArg (·.getLast?.map (·.2)) sleeps))
  | cons tick ticks induction =>
      rw [watchLoop]
      cases crash : (state.turn request output tick).crash? with
      | none =>
          simp only [List.cons_append]
          exact LoopFollows.cons (follows_turn request output verbose lowered tick reference)
            (induction _ (WatchState.due_turn request output) _)
      | some failure =>
          by_cases changes : tick.ChangesShaders
          · have taken :=
              WatchState.turn_of_changes request output lowered changes
            rw [taken] at crash ⊢
            obtain ⟨failed, unexpected⟩ := Regeneration.crash?_eq_some_iff.mp crash
            simp only
            have sleeps (records : List Record) :=
              WatchStep.sleeps_asleep verbose records [] reference state.tree
            simp only [List.append_nil] at sleeps
            refine LoopEnds.follows rfl ?_
            exact .crashed 0 (congrArg List.length (sleeps _)) rfl
              (congrArg (·[0]?) (sleeps _)) changes failed unexpected rfl rfl
          · rw [WatchState.turn_of_idle request output lowered changes] at crash
            cases crash

end

section

variable {tree : FileTree} {request : Request} {files : List Path}
  (found : request.files tree = .ok files) (output : Path) (verbose : Bool)

include found

theorem watchCommand_of_crash (ticks : List Tick) (last : SleepEnd) {failure : Failure}
    (crash : (request.regenerate tree output).crash? = some failure) :
    ∃ steps, watchCommand tree request output verbose none ticks last =
        ⟨.crash failure, steps, (request.regenerate tree output).tree⟩ ∧
      WatchStep.calls steps = request.inputs.map (scheduleOf tree) ∧
      WatchStep.sleeps steps = [] := by
  simp only [watchCommand, openWatch, found, crash]
  refine ⟨_, rfl, ?_, ?_⟩
  · simp only [WatchStep.calls_append, WatchStep.calls_logs, WatchStep.calls_schedules,
      List.nil_append, List.append_nil]
  · simp only [WatchStep.sleeps_append, WatchStep.sleeps_logs, WatchStep.sleeps_schedules,
      List.append_nil]

theorem watchCommand_of_survived (ticks : List Tick) (last : SleepEnd)
    (survived : (request.regenerate tree output).crash? = none) :
    ∃ opening loop, watchCommand tree request output verbose none ticks last =
        ⟨loop.ending, opening ++ loop.steps ++ [.call .stop, .call .join], loop.tree⟩ ∧
      WatchStep.calls opening = request.inputs.map (scheduleOf tree) ++ [.start] ∧
      WatchStep.sleeps opening = [] ∧
      LoopFollows request output verbose last (tree, (request.regenerate tree output).tree) ticks
        loop := by
  simp only [watchCommand, openWatch, found, survived]
  refine ⟨_, _, rfl, ?_, ?_,
    loopFollows_watchLoop request output verbose last ⟨_, false⟩ rfl tree ticks⟩
  · simp only [WatchStep.calls_append, WatchStep.calls_logs, WatchStep.calls_schedules,
      List.nil_append, List.append_nil]
    rfl
  · simp only [WatchStep.sleeps_append, WatchStep.sleeps_logs, WatchStep.sleeps_schedules,
      List.append_nil]
    rfl

theorem watchCommand_of_crash_at_tick {tick : Tick} (ticks : List Tick) (last : SleepEnd)
    {failure : Failure} (survived : (request.regenerate tree output).crash? = none)
    (changes : tick.ChangesShaders)
    (crash : (request.regenerate (tick.tree (request.regenerate tree output).tree)
      output).crash? = some failure) :
    let result := watchCommand tree request output verbose none (tick :: ticks) last
    result.ending = .crash failure ∧ (WatchStep.sleeps result.steps).length = 1 := by
  have lowered : (WatchState.mk (request.regenerate tree output).tree false).due = false := rfl
  have turn := WatchState.turn_of_changes request output lowered changes
  simp only [watchCommand, openWatch, found, survived, watchLoop, turn, crash, true_and]
  simp only [WatchStep.sleeps_append, WatchStep.sleeps_logs, WatchStep.sleeps_schedules,
    WatchStep.sleeps, List.nil_append, List.append_nil, List.length_singleton]

end

end ShaderCatalog
