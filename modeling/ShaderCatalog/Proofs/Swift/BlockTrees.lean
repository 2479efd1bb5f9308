import Mathlib.Data.List.DropRight
import ShaderCatalog.Swift.Listing

namespace ShaderCatalog

/-! Listings as trees of blocks. Blocks that are entered and left, at their ends or by
exceptions, make a tree with the lines between them, and the listing holds that tree printed
at its level. What has been printed stays, whatever comes behind it. -/

namespace Listing

/-- A call on a listing. A block is left at its end, or by an exception raised in it. -/
inductive Step where
  | line (text : Text)
  | enter (header : Text)
  | leave (raised : Bool)

namespace Step

/-- An exception passes through a block behind its closing brace. -/
def apply (listing : Listing) : Step → Listing
  | line text => listing.addLine text
  | enter header => listing.openBlock header
  | leave _ => listing.closeBlock

def levelAfter (level : Int) : Step → Int
  | line _ => level
  | enter _ => level + 1
  | leave _ => level - 1

def depthAfter (depth : Nat) : Step → Option Nat
  | line _ => some depth
  | enter _ => some (depth + 1)
  | leave _ => match depth with
      | 0 => none
      | outer + 1 => some outer

end Step

def afterSteps (level : Int) (steps : List Step) : Listing :=
  steps.foldl Step.apply ⟨level, []⟩

/-- The number of blocks that are open behind the steps, if none is left that is not open. -/
def openBlocks (steps : List Step) : Option Nat :=
  steps.foldlM Step.depthAfter 0

def indented (level : Int) (text : Text) : Text :=
  if text = [] then [] else indentation level ++ text

def headerLine (level : Int) (header : Text) : Text :=
  indentation level ++ (header ++ " \x7b".toList)

def closingLine (level : Int) : Text :=
  indentation level ++ "\x7d".toList

/-- A line, or a block of lines and blocks. -/
inductive Outline where
  | line (text : Text)
  | block (header : Text) (inside : List Outline) (raised : Bool)

namespace Outline

mutual

def steps : Outline → List Step
  | line text => [.line text]
  | block header inside raised => .enter header :: stepsOf inside ++ [.leave raised]

def stepsOf : List Outline → List Step
  | [] => []
  | first :: others => first.steps ++ stepsOf others

end

mutual

/-- The lines of an outline at a level, those of a block one level deeper than its header and
its closing brace. -/
def lines (level : Int) : Outline → List Text
  | line text => [indented level text]
  | block header inside _ =>
      headerLine level header :: linesOf (level + 1) inside ++ [closingLine level]

def linesOf (level : Int) : List Outline → List Text
  | [] => []
  | first :: others => first.lines level ++ linesOf level others

end

end Outline

/-- The lines without the blank ones behind other blank ones. -/
def collapseBlanks (afterBlank : Bool) : List Text → List Text
  | [] => []
  | line :: rest =>
      if line.isEmpty && afterBlank then
        collapseBlanks true rest
      else
        line :: collapseBlanks line.isEmpty rest

/-- Whether no blank line stands at the beginning or behind another one. -/
structure IsTidy (lines : List Text) : Prop where
  start : lines.head? ≠ some []
  single : ¬[[], []] <:+: lines

/-! A step stores a line behind the others, unless it is a blank one that may not stand
there. -/

def endsBlank (lines : List Text) : Bool :=
  lines.getLast?.all (·.isEmpty)

def store (lines : List Text) (line : Text) : List Text :=
  if line.isEmpty && endsBlank lines then lines else lines ++ [line]

theorem store_of_ne_nil (lines : List Text) {line : Text} (visible : line ≠ []) :
    store lines line = lines ++ [line] := by
  simp [store, visible]

theorem not_acceptsBlank (listing : Listing) :
    (!listing.acceptsBlank) = endsBlank listing.lines := by
  unfold acceptsBlank endsBlank
  cases listing.lines.getLast? <;> simp

theorem indented_of_ne_nil (level : Int) {text : Text} (visible : text ≠ []) :
    indented level text = indentation level ++ text :=
  if_neg visible

theorem addLine_eq (listing : Listing) (text : Text) :
    listing.addLine text = ⟨listing.level, store listing.lines (indented listing.level text)⟩ := by
  unfold addLine indented
  split
  next =>
    simp only [addBlank, store, List.isEmpty_nil, Bool.true_and, ← not_acceptsBlank]
    cases listing.acceptsBlank <;> rfl
  next visible => rw [store_of_ne_nil _ (List.append_ne_nil_of_right_ne_nil _ visible)]

theorem prefix_store (lines : List Text) (line : Text) : lines <+: store lines line := by
  unfold store
  split
  · exact List.prefix_rfl
  · exact List.prefix_append lines [line]

theorem IsTidy.store {lines : List Text} (tidy : IsTidy lines) (line : Text) :
    IsTidy (store lines line) := by
  unfold Listing.store
  split
  next => exact tidy
  next fits =>
    constructor
    · intro blankFirst
      cases lines with
      | nil => simp_all [endsBlank]
      | cons first others => exact tidy.start blankFirst
    · intro blanks
      rcases List.infix_concat_iff.mp blanks with atEnd | inside
      · obtain ⟨before, same⟩ := atEnd
        rw [← List.singleton_append, ← List.append_assoc] at same
        obtain ⟨rfl, last⟩ := List.append_inj' same rfl
        obtain rfl : [] = line := List.singleton_inj.mp last
        exact fits (by simp [endsBlank])
      · exact tidy.single inside

theorem foldl_store (kept added : List Text) :
    added.foldl store kept = kept ++ collapseBlanks (endsBlank kept) added := by
  induction added generalizing kept with
  | nil => simp [collapseBlanks]
  | cons line added induction =>
      rw [List.foldl_cons, induction, collapseBlanks, store]
      split
      next blank => rw [(Bool.and_eq_true_iff.mp blank).2]
      next =>
        have last : endsBlank (kept ++ [line]) = line.isEmpty := by simp [endsBlank]
        rw [last, List.append_assoc, List.singleton_append]

def Step.stored (level : Int) : Step → Text
  | line text => indented level text
  | enter header => headerLine level header
  | leave _ => closingLine (level - 1)

theorem apply_eq (listing : Listing) (step : Step) :
    step.apply listing =
      ⟨step.levelAfter listing.level, store listing.lines (step.stored listing.level)⟩ := by
  cases step with
  | line text => exact addLine_eq listing text
  | enter header =>
      have visible : header ++ " \x7b".toList ≠ [] := by simp
      simp only [Step.apply, openBlock, addLine_eq, indented_of_ne_nil _ visible]
      rfl
  | leave raised =>
      have visible : "\x7d".toList ≠ [] := by simp
      simp only [Step.apply, closeBlock, addLine_eq, indented_of_ne_nil _ visible]
      rfl

/-! What one step does, and what a sequence of them does. -/

theorem prefix_apply (listing : Listing) (step : Step) :
    listing.lines <+: (step.apply listing).lines := by
  rw [apply_eq]
  exact prefix_store _ _

theorem prefix_foldl_apply (listing : Listing) (steps : List Step) :
    listing.lines <+: (steps.foldl Step.apply listing).lines := by
  induction steps generalizing listing with
  | nil => exact List.prefix_rfl
  | cons step steps induction => exact (prefix_apply listing step).trans (induction _)

theorem afterSteps_append (level : Int) (earlier later : List Step) :
    afterSteps level (earlier ++ later) = later.foldl Step.apply (afterSteps level earlier) :=
  List.foldl_append

theorem afterSteps_concat (level : Int) (steps : List Step) (step : Step) :
    afterSteps level (steps ++ [step]) = step.apply (afterSteps level steps) :=
  afterSteps_append level steps [step]

theorem isTidy_afterSteps (level : Int) (steps : List Step) :
    IsTidy (afterSteps level steps).lines := by
  induction steps using List.reverseRecOn with
  | nil => exact ⟨by simp [afterSteps], by simp [afterSteps]⟩
  | append_singleton steps step induction =>
      rw [afterSteps_concat, apply_eq]
      exact induction.store _

theorem Step.levelAfter_eq {depth inner : Nat} {step : Step}
    (possible : step.depthAfter depth = some inner) (level : Int) :
    step.levelAfter (level + depth) = level + inner := by
  cases step with
  | line text => simp_all [depthAfter, levelAfter]
  | enter header => simp_all [depthAfter, levelAfter]; omega
  | leave raised =>
      cases depth with
      | zero => simp [depthAfter] at possible
      | succ outer => simp_all [depthAfter, levelAfter]; omega

theorem openBlocks_append (earlier later : List Step) :
    openBlocks (earlier ++ later) =
      (openBlocks earlier).bind fun depth => later.foldlM Step.depthAfter depth := by
  unfold openBlocks
  rw [List.foldlM_append]
  rfl

theorem openBlocks_concat_eq_some_iff {steps : List Step} {step : Step} {depth : Nat} :
    openBlocks (steps ++ [step]) = some depth ↔
      ∃ before, openBlocks steps = some before ∧ step.depthAfter before = some depth := by
  simp [openBlocks_append, Option.bind_eq_some_iff]

theorem level_foldl_apply {listing : Listing} {outside : Int} {steps : List Step}
    {depth inner : Nat} (nested : steps.foldlM Step.depthAfter depth = some inner)
    (start : listing.level = outside + depth) :
    (steps.foldl Step.apply listing).level = outside + inner := by
  induction steps generalizing listing depth with
  | nil =>
      obtain rfl : depth = inner := by simpa using nested
      exact start
  | cons step steps induction =>
      rw [List.foldlM_cons] at nested
      obtain ⟨after, possible, rest⟩ := Option.bind_eq_some_iff.mp nested
      refine induction rest ?_
      rw [apply_eq, start]
      exact step.levelAfter_eq possible outside

/-! A sequence of steps that leaves no block but open ones goes through outlines with the
headers of the open blocks between them. -/

theorem Outline.stepsOf_append (before after : List Outline) :
    stepsOf (before ++ after) = stepsOf before ++ stepsOf after := by
  induction before with
  | nil => simp [stepsOf]
  | cons first others induction => simp [stepsOf, induction]

/-- Whether steps go through outlines, the headers of so many open blocks between them. -/
inductive Nests : Nat → List Step → Prop where
  | outside (outlines : List Outline) : Nests 0 (Outline.stepsOf outlines)
  | inside {depth : Nat} {outer : List Step} (around : Nests depth outer) (header : Text)
      (outlines : List Outline) :
      Nests (depth + 1) (outer ++ .enter header :: Outline.stepsOf outlines)

theorem Nests.append {depth : Nat} {steps : List Step} (nests : Nests depth steps)
    (outline : Outline) : Nests depth (steps ++ outline.steps) := by
  have one : outline.steps = Outline.stepsOf [outline] := by simp [Outline.stepsOf]
  cases nests with
  | outside outlines =>
      rw [one, ← Outline.stepsOf_append]
      exact .outside _
  | inside around header outlines =>
      rw [one, List.append_assoc, List.cons_append, ← Outline.stepsOf_append]
      exact .inside around header _

theorem nests_of_openBlocks {steps : List Step} {depth : Nat}
    (nested : openBlocks steps = some depth) : Nests depth steps := by
  induction steps using List.reverseRecOn generalizing depth with
  | nil =>
      obtain rfl : 0 = depth := by simpa [openBlocks] using nested
      exact .outside []
  | append_singleton steps step induction =>
      obtain ⟨before, split, possible⟩ := openBlocks_concat_eq_some_iff.mp nested
      cases step with
      | line text =>
          obtain rfl := Option.some.inj possible
          exact (induction split).append (.line text)
      | enter header =>
          obtain rfl := Option.some.inj possible
          exact .inside (induction split) header []
      | leave raised =>
          cases induction split with
          | outside outlines => simp [Step.depthAfter] at possible
          | inside around header outlines =>
              -- The block is left: it is the last outline of what is around it.
              obtain rfl := Option.some.inj possible
              have closed : Outline.steps (.block header outlines raised) =
                  .enter header :: Outline.stepsOf outlines ++ [.leave raised] := rfl
              rw [List.append_assoc, ← closed]
              exact around.append _

mutual

theorem foldlM_depthAfter_steps (depth : Nat) :
    ∀ outline : Outline, outline.steps.foldlM Step.depthAfter depth = some depth
  | .line text => by simp [Outline.steps, Step.depthAfter]
  | .block header inside raised => by
      simp [Outline.steps, Step.depthAfter, List.foldlM_append,
        foldlM_depthAfter_stepsOf (depth + 1) inside]

theorem foldlM_depthAfter_stepsOf (depth : Nat) :
    ∀ outlines : List Outline,
      (Outline.stepsOf outlines).foldlM Step.depthAfter depth = some depth
  | [] => rfl
  | first :: others => by
      simp [Outline.stepsOf, List.foldlM_append, foldlM_depthAfter_steps depth first,
        foldlM_depthAfter_stepsOf depth others]

end

/-! The lines of outlines are stored one behind the other. -/

mutual

theorem foldl_apply_steps (level : Int) (lines : List Text) :
    ∀ outline : Outline, outline.steps.foldl Step.apply ⟨level, lines⟩ =
      ⟨level, (outline.lines level).foldl store lines⟩
  | .line text => apply_eq ⟨level, lines⟩ (.line text)
  | .block header inside raised => by
      simp [Outline.steps, Outline.lines, apply_eq, Step.levelAfter, Step.stored,
        foldl_apply_stepsOf (level + 1) _ inside]

theorem foldl_apply_stepsOf (level : Int) (lines : List Text) :
    ∀ outlines : List Outline, (Outline.stepsOf outlines).foldl Step.apply ⟨level, lines⟩ =
      ⟨level, (Outline.linesOf level outlines).foldl store lines⟩
  | [] => rfl
  | first :: others => by
      simp [Outline.stepsOf, Outline.linesOf, foldl_apply_steps level _ first,
        foldl_apply_stepsOf level _ others]

end

theorem lines_afterSteps_stepsOf (level : Int) (outlines : List Outline) :
    (afterSteps level (Outline.stepsOf outlines)).lines =
      collapseBlanks true (Outline.linesOf level outlines) := by
  rw [afterSteps, foldl_apply_stepsOf, foldl_store]
  rfl

/-! What a block adds at its ends. -/

theorem lines_enter (listing : Listing) (header : Text) :
    (Step.apply listing (.enter header)).lines =
      listing.lines ++ [headerLine listing.level header] := by
  rw [apply_eq]
  exact store_of_ne_nil _ (by simp [Step.stored, headerLine])

theorem lines_leave (listing : Listing) (raised : Bool) :
    (Step.apply listing (.leave raised)).lines =
      listing.lines ++ [closingLine (listing.level - 1)] := by
  rw [apply_eq]
  exact store_of_ne_nil _ (by simp [Step.stored, closingLine])

theorem level_afterSteps_inside (level : Int) (outer : List Step) (header : Text)
    {inside : List Step} (balanced : openBlocks inside = some 0) :
    (afterSteps level (outer ++ .enter header :: inside)).level =
      (afterSteps level outer).level + 1 := by
  have entered : (Step.apply (afterSteps level outer) (.enter header)).level =
      (afterSteps level outer).level + 1 + (0 : Nat) := by
    rw [apply_eq]
    exact (Int.add_zero _).symm
  rw [afterSteps_append, List.foldl_cons, level_foldl_apply balanced entered]
  exact Int.add_zero _

theorem exists_enter_of_leave {earlier later : List Step} {raised : Bool} {depth : Nat}
    (nested : openBlocks (earlier ++ .leave raised :: later) = some depth) :
    ∃ outer header inside, earlier = outer ++ .enter header :: inside ∧
      openBlocks inside = some 0 := by
  rw [openBlocks_append] at nested
  obtain ⟨before, split, rest⟩ := Option.bind_eq_some_iff.mp nested
  cases nests_of_openBlocks split with
  | outside outlines => simp [Step.depthAfter] at rest
  | @inside _ outer _ header outlines =>
      exact ⟨outer, header, _, rfl, foldlM_depthAfter_stepsOf 0 outlines⟩

/-- Blocks that are left only where they are open print as their tree. -/
theorem afterSteps_prints (level : Int) {steps : List Step} {depth : Nat}
    (nested : openBlocks steps = some depth) :
    (∀ earlier between later, steps = earlier ++ between ++ later →
      (∃ opened, openBlocks earlier = some opened ∧
        (afterSteps level earlier).level = level + opened) ∧
      (afterSteps level earlier).lines <+: (afterSteps level (earlier ++ between)).lines ∧
      IsTidy (afterSteps level earlier).lines) ∧
    (∀ earlier raised later, steps = earlier ++ .leave raised :: later →
      ∃ outer header inside, earlier = outer ++ .enter header :: inside ∧
        openBlocks inside = some 0 ∧
        (afterSteps level (outer ++ [.enter header])).lines =
          (afterSteps level outer).lines ++ [headerLine (afterSteps level outer).level header] ∧
        (afterSteps level (earlier ++ [.leave raised])).lines =
          (afterSteps level earlier).lines ++ [closingLine (afterSteps level outer).level]) ∧
    (depth = 0 →
      (∃ outlines, steps = Outline.stepsOf outlines) ∧
      ∀ outlines, steps = Outline.stepsOf outlines →
        (afterSteps level steps).lines = collapseBlanks true (Outline.linesOf level outlines)) := by
  refine ⟨?atEveryPoint, ?atEveryEnd, ?whole⟩
  case atEveryPoint =>
    rintro earlier between later rfl
    rw [List.append_assoc, openBlocks_append] at nested
    obtain ⟨opened, split, -⟩ := Option.bind_eq_some_iff.mp nested
    refine ⟨⟨opened, split, ?_⟩, ?_, isTidy_afterSteps level earlier⟩
    · exact level_foldl_apply split (by simp)
    · rw [afterSteps_append]
      exact prefix_foldl_apply _ between
  case atEveryEnd =>
    rintro earlier raised later rfl
    obtain ⟨outer, header, inside, rfl, balanced⟩ := exists_enter_of_leave nested
    refine ⟨outer, header, inside, rfl, balanced, ?_, ?_⟩
    · rw [afterSteps_concat, lines_enter]
    · rw [afterSteps_concat, lines_leave, level_afterSteps_inside level outer header balanced,
        Int.add_sub_cancel]
  case whole =>
    rintro rfl
    constructor
    · cases nests_of_openBlocks nested with
      | outside outlines => exact ⟨outlines, rfl⟩
    · rintro outlines rfl
      exact lines_afterSteps_stepsOf level outlines

theorem afterSteps_prints_interrupted :
    let outlines : List Outline :=
      [.line [], .block ['a'] [.line [], .line [], .line ['x']] false, .line [],
        .block ['b'] [.block ['c'] [.line ['y']] true] true]
    openBlocks (Outline.stepsOf outlines) = some 0 ∧
      (afterSteps (-1) (Outline.stepsOf outlines)).lines =
        ["a \x7b", "", "x", "\x7d", "", "b \x7b", "c \x7b", "    y", "\x7d", "\x7d"].map
          String.toList := by
  intro outlines
  have balanced : openBlocks (Outline.stepsOf outlines) = some 0 :=
    foldlM_depthAfter_stepsOf 0 outlines
  refine ⟨balanced, ?_⟩
  rw [(afterSteps_prints (-1) balanced).2.2 rfl |>.2 outlines rfl]
  decide

end Listing

end ShaderCatalog
