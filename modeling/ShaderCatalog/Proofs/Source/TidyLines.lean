import ShaderCatalog.Proofs.Text.Lines
import ShaderCatalog.Source.Stripped

namespace ShaderCatalog

/-! The normal form of the lines of a text, read from its end: white space goes where a
newline or the end follows what is left behind it. -/

/-- The text without the white space before newlines and at the end. Of the empty lines
at its start one newline is left. -/
def tidied : Text → Text
  | [] => []
  | c :: rest =>
      if isBlank c && (tidied rest).head?.all (· == '\n') then
        tidied rest
      else
        c :: tidied rest

def dropNewline (text : Text) : Text :=
  if text.head? = some '\n' then text.tail else text

theorem tidied_cons_of_visible {c : Char} (visible : isBlank c = false) (rest : Text) :
    tidied (c :: rest) = c :: tidied rest := by
  rw [tidied, visible]
  rfl

theorem tidied_cons (c : Char) (rest : Text) :
    tidied (c :: rest) = c :: tidied rest ∨
      (tidied (c :: rest) = tidied rest ∧ isBlank c = true ∧
        (tidied rest = [] ∨ ∃ after, tidied rest = '\n' :: after)) := by
  rw [tidied]
  split
  next dropped =>
    obtain ⟨blank, ends⟩ := Bool.and_eq_true_iff.mp dropped
    exact Or.inr ⟨rfl, blank, Text.eq_nil_or_of_head? ends⟩
  next => exact Or.inl rfl

theorem head?_tidied {text : Text} (ends : text.head?.all (· == '\n') = true) :
    (tidied text).head?.all (· == '\n') = true := by
  cases text with
  | nil => rfl
  | cons c rest =>
      rw [tidied]
      split
      next dropped => exact (Bool.and_eq_true_iff.mp dropped).2
      next => exact ends

theorem exists_tidied_append {c : Char} (visible : isBlank c = false) (left : Text) :
    ∃ start, ∀ right, tidied (left ++ c :: right) = start ++ c :: tidied right := by
  induction left with
  | nil => exact ⟨[], tidied_cons_of_visible visible⟩
  | cons d left induction =>
      obtain ⟨start, split⟩ := induction
      have first (right : Text) :
          (start ++ c :: tidied right).head? = (start ++ [c]).head? := by
        cases start <;> rfl
      by_cases dropped : (isBlank d && (start ++ [c]).head?.all (· == '\n')) = true
      · refine ⟨start, fun right => ?_⟩
        rw [List.cons_append, tidied, split, first, if_pos dropped]
      · refine ⟨d :: start, fun right => ?_⟩
        rw [List.cons_append, tidied, split, first, if_neg dropped]
        rfl

theorem tidied_infix_tidied {first : Char} (visible : isBlank first = false) {part text : Text}
    (ends : ∀ last ∈ (first :: part).getLast?, isBlank last = false)
    (within : first :: part <:+: text) : tidied (first :: part) <:+: tidied text := by
  obtain ⟨left, right, rfl⟩ := within
  obtain ⟨start, last, whole⟩ : ∃ start last, first :: part = start ++ [last] :=
    ⟨_, _, (List.dropLast_concat_getLast (List.cons_ne_nil first part)).symm⟩
  rw [whole, List.getLast?_concat] at ends
  obtain ⟨tidyStart, startSplit⟩ := exists_tidied_append (ends last rfl) start
  obtain ⟨tidyLeft, leftSplit⟩ := exists_tidied_append visible left
  have alone : tidied (first :: part) = tidyStart ++ [last] := by
    rw [whole, startSplit]
    rfl
  have followed : tidied (first :: part ++ right) = tidied (first :: part) ++ tidied right := by
    rw [alone, whole, List.append_assoc, List.singleton_append, startSplit, List.append_assoc,
      List.singleton_append]
  refine ⟨tidyLeft, tidied right, ?_⟩
  rw [List.append_assoc, List.append_assoc, ← followed, List.cons_append, leftSplit,
    tidied_cons_of_visible visible]

theorem all_head?_append {left right : Text} (oneLine : '\n' ∉ left)
    (ends : right.head?.all (· == '\n') = true) :
    (left ++ right).head?.all (· == '\n') = left.isEmpty := by
  cases left with
  | nil => exact ends
  | cons c left =>
      rw [List.mem_cons, not_or] at oneLine
      exact beq_eq_false_iff_ne.mpr (Ne.symm oneLine.1)

theorem tidied_append {left right : Text} (oneLine : '\n' ∉ left)
    (ends : right.head?.all (· == '\n') = true) :
    tidied (left ++ right) = Text.trimEnd left ++ tidied right := by
  induction left with
  | nil => rfl
  | cons c left induction =>
      rw [List.mem_cons, not_or] at oneLine
      rw [List.cons_append, tidied, induction oneLine.2, Text.trimEnd_cons,
        all_head?_append (Text.newline_not_mem_trimEnd oneLine.2) (head?_tidied ends)]
      split
      next dropped => rw [List.isEmpty_iff.mp (Bool.and_eq_true_iff.mp dropped).2]
      next => rfl

theorem tidied_eq (text : Text) :
    tidied text = Text.trimEnd (Text.line text) ++ tidied (Text.afterLine text) := by
  have split := tidied_append (Text.newline_not_mem_line text) (Text.head?_afterLine text)
  rwa [Text.line_append_afterLine] at split

section

variable (text : Text)

theorem line_tidied : Text.line (tidied text) = Text.trimEnd (Text.line text) := by
  rw [tidied_eq]
  exact Text.line_append (Text.newline_not_mem_trimEnd (Text.newline_not_mem_line text))
    (head?_tidied (Text.head?_afterLine text))

theorem afterLine_tidied : Text.afterLine (tidied text) = tidied (Text.afterLine text) := by
  rw [tidied_eq]
  exact Text.afterLine_append (Text.newline_not_mem_trimEnd (Text.newline_not_mem_line text))
    (head?_tidied (Text.head?_afterLine text))

end

theorem tidied_tidied (text : Text) : tidied (tidied text) = tidied text := by
  induction text with
  | nil => rfl
  | cons c rest induction =>
      by_cases dropped : (isBlank c && (tidied rest).head?.all (· == '\n')) = true
      · rw [tidied, if_pos dropped, induction]
      · rw [tidied, if_neg dropped, tidied, induction, if_neg dropped]

theorem tidied_sublist (text : Text) : (tidied text).Sublist text := by
  induction text with
  | nil => exact List.Sublist.refl []
  | cons c rest induction =>
      rw [tidied]
      split
      · exact induction.cons c
      · exact induction.cons_cons c

theorem tidied_cons_eq_self_iff {c : Char} {rest : Text} :
    tidied (c :: rest) = c :: rest ↔
      tidied rest = rest ∧ ¬ (isBlank c && rest.head?.all (· == '\n')) = true := by
  constructor
  · intro tidy
    rw [tidied] at tidy
    split at tidy
    next =>
      have shorter := (tidied_sublist rest).length_le
      rw [tidy, List.length_cons] at shorter
      omega
    next dropped =>
      have tail := (List.cons.inj tidy).2
      rw [tail] at dropped
      exact ⟨tail, dropped⟩
  · intro tidy
    rw [tidied, tidy.1, if_neg tidy.2]

theorem tidied_of_newline {rest : Text} (tidy : tidied ('\n' :: rest) = '\n' :: rest) :
    tidied rest = rest ∧ rest.head? ≠ some '\n' := by
  obtain ⟨tail, kept⟩ := tidied_cons_eq_self_iff.mp tidy
  refine ⟨tail, fun first => kept ?_⟩
  rw [first]
  decide

/-- A text is tidy if no white space stands in front of a newline or the end. -/
theorem tidied_eq_self_iff (text : Text) :
    tidied text = text ↔ ∀ c, [c, '\n'] <:+: text ++ ['\n'] → isBlank c = false := by
  induction text with
  | nil =>
      refine iff_of_true rfl fun c pair => ?_
      have lengths := pair.length_le
      simp at lengths
  | cons d rest induction =>
      have ends : ['\n'] <+: rest ++ ['\n'] ↔ rest.head?.all (· == '\n') = true := by
        cases rest with
        | nil => exact iff_of_true List.prefix_rfl rfl
        | cons e rest =>
            rw [List.cons_append, List.cons_prefix_cons, and_iff_left List.nil_prefix,
              List.head?_cons, Option.all_some, beq_iff_eq, eq_comm]
      have pairs (c : Char) : [c, '\n'] <:+: d :: rest ++ ['\n'] ↔
          (c = d ∧ rest.head?.all (· == '\n') = true) ∨ [c, '\n'] <:+: rest ++ ['\n'] := by
        rw [List.cons_append, List.infix_cons_iff, List.cons_prefix_cons, ends]
      rw [tidied_cons_eq_self_iff, induction, Bool.and_eq_true, not_and', Bool.not_eq_true]
      constructor
      · intro tidy c pair
        rcases (pairs c).mp pair with first | later
        · rw [first.1]
          exact tidy.2 first.2
        · exact tidy.1 c later
      · intro kept
        refine ⟨fun c pair => kept c ((pairs c).mpr (Or.inr pair)), fun newline => ?_⟩
        exact kept d ((pairs d).mpr (Or.inl ⟨rfl, newline⟩))

theorem tidied_eq_self_iff_of_visible {text : Text}
    (ends : ∀ last ∈ text.getLast?, isBlank last = false) :
    tidied text = text ↔ ∀ c, [c, '\n'] <:+: text → isBlank c = false := by
  rw [tidied_eq_self_iff]
  constructor
  · intro kept c pair
    exact kept c (pair.trans (List.prefix_append _ _).isInfix)
  · intro kept c pair
    rcases List.infix_concat_iff.mp pair with atEnd | within
    · have atEnd : [c] <:+ text := List.suffix_append_self_iff.mp atEnd
      exact ends c (List.singleton_suffix_iff_getLast?_eq_some.mp atEnd)
    · exact kept c within

theorem dropNewline_dropNewline_tidied (text : Text) :
    tidied (dropNewline (tidied text)) = dropNewline (tidied text) ∧
      dropNewline (dropNewline (tidied text)) = dropNewline (tidied text) := by
  have tidy := tidied_tidied text
  cases shape : tidied text with
  | nil => exact ⟨rfl, rfl⟩
  | cons c rest =>
      rw [shape] at tidy
      by_cases newline : c = '\n'
      · subst newline
        obtain ⟨restTidy, noNewline⟩ := tidied_of_newline tidy
        have dropped : dropNewline ('\n' :: rest) = rest := if_pos rfl
        rw [dropped, dropNewline, if_neg noNewline]
        exact ⟨restTidy, rfl⟩
      · have kept : dropNewline (c :: rest) = c :: rest := if_neg (by simpa using newline)
        rw [kept, kept]
        exact ⟨tidy, rfl⟩

theorem cons_infix_dropNewline {c : Char} (different : c ≠ '\n') {part text : Text}
    (within : c :: part <:+: text) : c :: part <:+: dropNewline text := by
  rw [dropNewline]
  split
  next first =>
    obtain ⟨rest, rfl⟩ := List.head?_eq_some_iff.mp first
    rcases List.infix_cons_iff.mp within with begins | later
    · exact absurd (List.cons_prefix_cons.mp begins).1 different
    · exact later
  next => exact within

theorem joinLines_cons (first : Text) (others : List Text) :
    Text.joinLines (first :: others) = first ++ others.flatMap ('\n' :: ·) := by
  induction others generalizing first with
  | nil => simp [Text.joinLines, Text.join]
  | cons second others induction =>
      rw [Text.joinLines, Text.join_cons_of_ne_nil (List.cons_ne_nil _ _), List.flatMap_cons,
        List.cons_append]
      exact congrArg (fun rest => first ++ '\n' :: rest) (induction second)

theorem head?_flatMap_newline (lines : List Text) :
    (lines.flatMap ('\n' :: ·)).head?.all (· == '\n') = true := by
  cases lines <;> rfl

theorem tidied_eq_flatMap {text : Text} {others : List Text}
    (lines : Text.splitLines text = Text.line text :: others) :
    tidied text = Text.trimEnd (Text.line text) ++
      ((others.map Text.trimEnd).filter (!·.isEmpty)).flatMap ('\n' :: ·) := by
  induction text generalizing others with
  | nil =>
      cases lines
      rfl
  | cons c rest induction =>
      obtain ⟨more, restLines⟩ := Text.exists_splitLines_eq_cons rest
      have ends := all_head?_append
        (Text.newline_not_mem_trimEnd (Text.newline_not_mem_line rest))
        (head?_flatMap_newline ((more.map Text.trimEnd).filter (!·.isEmpty)))
      rw [tidied, induction restLines, ends]
      by_cases newline : c = '\n'
      · subst newline
        have blank : isBlank '\n' = true := by decide
        have nothing : Text.line ('\n' :: rest) = [] := rfl
        rw [Text.splitLines_newline, restLines] at lines
        rw [← (List.cons.inj lines).2, nothing, blank, Text.trimEnd_nil, List.map_cons,
          List.filter_cons]
        cases Text.trimEnd (Text.line rest) with
        | nil => rfl
        | cons d line => rfl
      · rw [Text.splitLines_cons_of_ne newline restLines] at lines
        rw [← (List.cons.inj lines).2, Text.line_cons_of_ne newline, Text.trimEnd_cons]
        cases Text.trimEnd (Text.line rest) with
        | nil => cases isBlank c <;> rfl
        | cons d line => simp

theorem normalizeLines_eq (text : Text) : normalizeLines text = dropNewline (tidied text) := by
  obtain ⟨others, lines⟩ := Text.exists_splitLines_eq_cons text
  have oneLine := Text.newline_not_mem_trimEnd (Text.newline_not_mem_line text)
  rw [normalizeLines, tidied_eq_flatMap lines, lines, List.map_cons, List.filter_cons]
  cases trimmed : Text.trimEnd (Text.line text) with
  | nil =>
      cases (others.map Text.trimEnd).filter (!·.isEmpty) with
      | nil => rfl
      | cons second more => exact joinLines_cons second more
  | cons c line =>
      rw [trimmed, List.mem_cons, not_or] at oneLine
      have noNewline : (c :: line).head? ≠ some '\n' := by
        simpa using Ne.symm oneLine.1
      exact (joinLines_cons _ _).trans (if_neg noNewline).symm

theorem normalizeLines_sublist (text : Text) : (normalizeLines text).Sublist text := by
  rw [normalizeLines_eq, dropNewline]
  split
  · exact (List.tail_sublist _).trans (tidied_sublist text)
  · exact tidied_sublist text

def visibleLines (text : Text) : List Text :=
  ((Text.splitLines text).map Text.trimEnd).filter (!·.isEmpty)

theorem normalizeLines_eq_joinLines (text : Text) :
    normalizeLines text = Text.joinLines (visibleLines text) := rfl

theorem visibleLines_append_cons (left right : Text) :
    visibleLines (left ++ '\n' :: right) = visibleLines left ++ visibleLines right := by
  rw [visibleLines, Text.splitLines_append_cons, List.map_append, List.filter_append]
  rfl

theorem joinLines_append {left right : List Text} (leftSome : left ≠ []) (rightSome : right ≠ []) :
    Text.joinLines (left ++ right) = Text.joinLines left ++ '\n' :: Text.joinLines right := by
  obtain ⟨first, others, rfl⟩ := List.exists_cons_of_ne_nil leftSome
  obtain ⟨second, more, rfl⟩ := List.exists_cons_of_ne_nil rightSome
  rw [List.cons_append, joinLines_cons, joinLines_cons, joinLines_cons, List.flatMap_append,
    List.flatMap_cons]
  simp

theorem normalizeLines_eq_nil_iff (text : Text) :
    normalizeLines text = [] ↔ visibleLines text = [] := by
  rw [normalizeLines_eq_joinLines]
  cases lines : visibleLines text with
  | nil => exact iff_of_true rfl rfl
  | cons first others =>
      have member : first ∈ visibleLines text := lines ▸ List.mem_cons_self
      have visible : first ≠ [] := by simpa using (List.mem_filter.mp member).2
      refine iff_of_false (fun nothing => ?_) (List.cons_ne_nil first others)
      rw [joinLines_cons] at nothing
      exact visible (List.append_eq_nil_iff.mp nothing).1

section

variable (text : Text)

theorem joinLines_filter_pair_nil :
    Text.joinLines ([text, []].filter (!·.isEmpty)) = text := by
  cases text with
  | nil => rfl
  | cons c text => rfl

theorem joinLines_filter_nil_pair :
    Text.joinLines ([[], text].filter (!·.isEmpty)) = text := by
  cases text with
  | nil => rfl
  | cons c text => rfl

end

/-- Normalizing does not look over a newline: what is left on its sides is joined by one, if
something is left on both. -/
theorem normalizeLines_append_cons (left right : Text) :
    normalizeLines (left ++ '\n' :: right) =
      Text.joinLines ([normalizeLines left, normalizeLines right].filter (!·.isEmpty)) := by
  rw [normalizeLines_eq_joinLines, visibleLines_append_cons]
  by_cases leftNone : visibleLines left = []
  · rw [(normalizeLines_eq_nil_iff left).mpr leftNone, joinLines_filter_nil_pair, leftNone,
      normalizeLines_eq_joinLines]
    rfl
  · by_cases rightNone : visibleLines right = []
    · rw [(normalizeLines_eq_nil_iff right).mpr rightNone, joinLines_filter_pair_nil, rightNone,
        List.append_nil, normalizeLines_eq_joinLines]
    · have leftSome := mt (normalizeLines_eq_nil_iff left).mp leftNone
      have rightSome := mt (normalizeLines_eq_nil_iff right).mp rightNone
      have both : [normalizeLines left, normalizeLines right].filter (!·.isEmpty) =
          [normalizeLines left, normalizeLines right] := by
        rw [List.filter_eq_self]
        simp [leftSome, rightSome]
      rw [joinLines_append leftNone rightNone, both]
      rfl

theorem tidied_normalizeLines (text : Text) :
    tidied (normalizeLines text) = normalizeLines text := by
  rw [normalizeLines_eq]
  exact (dropNewline_dropNewline_tidied text).1

theorem normalizeLines_normalizeLines (text : Text) :
    normalizeLines (normalizeLines text) = normalizeLines text := by
  obtain ⟨tidy, dropped⟩ := dropNewline_dropNewline_tidied text
  rw [normalizeLines_eq text, normalizeLines_eq, tidy, dropped]

end ShaderCatalog
