import Mathlib.Data.List.DropRight
import ShaderCatalog.Text.Basic

namespace ShaderCatalog.Text

/-! The parts of a text between separators, its lines, counted from its start, and the
white space at their ends. -/

theorem split_eq_splitOn (separator : Char) (text : Text) :
    split separator text = text.splitOn separator := by
  induction text with
  | nil => rfl
  | cons c text induction =>
      rw [split, List.splitOn_cons_eq_if_modifyHead, induction]
      simp only [beq_iff_eq]
      split
      · rfl
      · cases parts : List.splitOn separator text with
        | nil => exact absurd parts (List.splitOn_ne_nil separator text)
        | cons first others => rfl

theorem join_eq_intercalate (separator : Char) (parts : List Text) :
    join separator parts = [separator].intercalate parts := by
  induction parts with
  | nil => rfl
  | cons first others induction =>
      cases others with
      | nil => simp [join]
      | cons second more =>
          rw [join_cons_of_ne_nil (List.cons_ne_nil second more), induction,
            List.intercalate_cons_cons, List.append_assoc, List.singleton_append]

theorem split_join {separator : Char} {parts : List Text} (nonempty : parts ≠ [])
    (free : ∀ part ∈ parts, separator ∉ part) : split separator (join separator parts) = parts := by
  rw [split_eq_splitOn, join_eq_intercalate]
  exact List.splitOn_intercalate separator free nonempty

theorem of_mem_split {separator : Char} {text part : Text} (member : part ∈ split separator text) :
    ∀ c ∈ part, c ∈ text ∧ c ≠ separator := by
  induction text generalizing part with
  | nil =>
      cases List.mem_singleton.mp member
      simp
  | cons c text induction =>
      have later {part : Text} (member : part ∈ split separator text) :
          ∀ d ∈ part, d ∈ c :: text ∧ d ≠ separator := by
        intro d inPart
        exact (induction member d inPart).imp_left (List.mem_cons_of_mem c)
      rw [split] at member
      split at member
      next =>
        rcases List.mem_cons.mp member with rfl | inRest
        · simp
        · exact later inRest
      next different =>
        split at member
        next empty => exact absurd empty (split_ne_nil separator text)
        next first others parts =>
          rw [parts] at later
          rcases List.mem_cons.mp member with rfl | inOthers
          · exact List.forall_mem_cons.mpr
              ⟨⟨List.mem_cons_self, different⟩, later List.mem_cons_self⟩
          · exact later (List.mem_cons_of_mem first inOthers)

theorem splitLines_newline (text : Text) : splitLines ('\n' :: text) = [] :: splitLines text := by
  rw [splitLines, split, if_pos rfl]
  rfl

theorem splitLines_of_not_mem {text : Text} (oneLine : '\n' ∉ text) : splitLines text = [text] := by
  rw [splitLines, split_eq_splitOn, List.splitOn_eq_singleton oneLine]

theorem splitLines_append_newline {left : Text} (oneLine : '\n' ∉ left) (right : Text) :
    splitLines (left ++ '\n' :: right) = left :: splitLines right := by
  rw [splitLines, split_eq_splitOn, List.splitOn_append_cons_self_of_not_mem oneLine,
    ← split_eq_splitOn, ← splitLines]

theorem splitLines_append_cons (left right : Text) :
    splitLines (left ++ '\n' :: right) = splitLines left ++ splitLines right := by
  simp only [splitLines, split_eq_splitOn]
  exact List.splitOn_append_cons_self left right

theorem splitLines_cons_of_ne {c : Char} (different : c ≠ '\n') {text first : Text}
    {others : List Text} (lines : splitLines text = first :: others) :
    splitLines (c :: text) = (c :: first) :: others := by
  rw [splitLines] at lines ⊢
  rw [split, if_neg different, lines]

theorem line_cons_of_ne {c : Char} (different : c ≠ '\n') (text : Text) :
    line (c :: text) = c :: line text :=
  List.takeWhile_cons_of_pos (by simpa using different)

theorem exists_splitLines_eq_cons (text : Text) :
    ∃ others, splitLines text = line text :: others := by
  induction text with
  | nil => exact ⟨[], rfl⟩
  | cons c text induction =>
      by_cases newline : c = '\n'
      · subst newline
        exact ⟨splitLines text, splitLines_newline text⟩
      · obtain ⟨others, lines⟩ := induction
        refine ⟨others, ?_⟩
        rw [splitLines_cons_of_ne newline lines, line_cons_of_ne newline]

theorem getElem?_zero_splitLines (text : Text) : (splitLines text)[0]? = some (line text) := by
  obtain ⟨others, lines⟩ := exists_splitLines_eq_cons text
  rw [lines]
  rfl

theorem getElem?_splitLines_append (left right : Text) (index : Nat) :
    (splitLines (left ++ right))[left.count '\n' + (index + 1)]? =
      (splitLines right)[index + 1]? := by
  induction left with
  | nil => rw [List.nil_append, List.count_nil, Nat.zero_add]
  | cons c left induction =>
      by_cases newline : c = '\n'
      · subst newline
        rw [List.cons_append, splitLines_newline, List.count_cons_self, ← induction,
          Nat.add_right_comm]
        rfl
      · obtain ⟨others, lines⟩ := exists_splitLines_eq_cons (left ++ right)
        rw [List.cons_append, splitLines_cons_of_ne newline lines, ← induction, lines,
          List.count_cons_of_ne newline]
        rfl

theorem newline_not_mem_line (text : Text) : '\n' ∉ line text := by
  intro member
  have different := List.all_eq_true.mp List.all_takeWhile _ member
  simp at different

theorem line_append_of_not_mem {left : Text} (oneLine : '\n' ∉ left) (right : Text) :
    line (left ++ right) = left ++ line right := by
  induction left with
  | nil => rfl
  | cons c left induction =>
      rw [List.mem_cons, not_or] at oneLine
      rw [List.cons_append, line_cons_of_ne (Ne.symm oneLine.1), induction oneLine.2]
      rfl

theorem line_append {left right : Text} (oneLine : '\n' ∉ left)
    (ends : right.head?.all (· == '\n') = true) : line (left ++ right) = left := by
  have nothing : line right = [] := by
    cases right with
    | nil => rfl
    | cons c right => exact List.takeWhile_cons_of_neg (by simpa using ends)
  rw [line_append_of_not_mem oneLine, nothing, List.append_nil]

theorem afterLine_append {left right : Text} (oneLine : '\n' ∉ left)
    (ends : right.head?.all (· == '\n') = true) : afterLine (left ++ right) = right := by
  have whole := line_append_afterLine (left ++ right)
  rw [line_append oneLine ends] at whole
  exact List.append_cancel_left whole

theorem head?_afterLine (text : Text) : (afterLine text).head?.all (· == '\n') = true := by
  cases first : (afterLine text).head? with
  | none => rfl
  | some c =>
      have stops := List.head?_dropWhile_not (fun c : Char => c != '\n') text
      rw [afterLine] at first
      rw [first] at stops
      simpa using stops

theorem eq_nil_or_of_head? {text : Text} (ends : text.head?.all (· == '\n') = true) :
    text = [] ∨ ∃ rest, text = '\n' :: rest := by
  cases text with
  | nil => exact Or.inl rfl
  | cons c rest =>
      have newline : c = '\n' := by simpa using ends
      exact Or.inr ⟨rest, by rw [newline]⟩

theorem trimEnd_eq_rdropWhile (text : Text) : trimEnd text = text.rdropWhile isBlank := rfl

@[simp] theorem trimEnd_nil : trimEnd [] = [] := rfl

theorem trimEnd_cons (c : Char) (text : Text) :
    trimEnd (c :: text) =
      if isBlank c && (trimEnd text).isEmpty then [] else c :: trimEnd text := by
  simp only [trimEnd, List.reverse_cons, List.dropWhile_append, List.isEmpty_iff]
  by_cases blank : text.reverse.dropWhile isBlank = []
  · cases visible : isBlank c with
    | true => simp [blank, visible]
    | false => simp [blank, visible]
  · simp [blank]

theorem trimEnd_append {c : Char} (visible : isBlank c = false) (left right : Text) :
    trimEnd (left ++ c :: right) = left ++ c :: trimEnd right := by
  induction left with
  | nil =>
      rw [List.nil_append, trimEnd_cons, visible]
      rfl
  | cons d left induction =>
      rw [List.cons_append, trimEnd_cons, induction]
      simp

theorem trimEnd_isPrefix (text : Text) : trimEnd text <+: text :=
  List.rdropWhile_prefix isBlank text

theorem trimEnd_trimEnd (text : Text) : trimEnd (trimEnd text) = trimEnd text :=
  List.rdropWhile_idempotent isBlank text

theorem trimEnd_eq_self_iff (text : Text) :
    trimEnd text = text ↔ ∀ last ∈ text.getLast?, isBlank last = false := by
  rw [trimEnd_eq_rdropWhile, List.rdropWhile_eq_self_iff]
  constructor
  · intro visible last isLast
    obtain ⟨nonempty, rfl⟩ := List.mem_getLast?_eq_getLast isLast
    exact eq_false_of_ne_true (visible nonempty)
  · intro visible nonempty
    exact ne_true_of_eq_false (visible _ (List.getLast?_eq_some_getLast nonempty))

theorem newline_not_mem_trimEnd {text : Text} (oneLine : '\n' ∉ text) :
    '\n' ∉ trimEnd text := by
  intro member
  exact oneLine ((trimEnd_isPrefix text).subset member)

theorem trim_of_visible {text : Text} (visible : ∀ c ∈ text, isBlank c = false) :
    trim text = text := by
  have nothing {text : Text} (visible : ∀ c ∈ text, isBlank c = false) :
      text.dropWhile isBlank = text := by
    cases text with
    | nil => rfl
    | cons c text => exact List.dropWhile_cons_of_neg (by simp [visible])
  rw [trim, trimStart, nothing visible, trimEnd,
    nothing (fun c member => visible c (List.mem_reverse.mp member)), List.reverse_reverse]

theorem trimStart_trimEnd (text : Text) :
    trimStart (trimEnd text) = trimEnd (trimStart text) := by
  induction text with
  | nil => rfl
  | cons c text induction =>
      rw [trimEnd_cons]
      cases visible : isBlank c with
      | true =>
          have dropped (rest : Text) : trimStart (c :: rest) = trimStart rest :=
            List.dropWhile_cons_of_pos visible
          rw [dropped, ← induction]
          cases trimEnd text with
          | nil => rfl
          | cons d rest => exact dropped (d :: rest)
      | false =>
          have kept (rest : Text) : trimStart (c :: rest) = c :: rest :=
            List.dropWhile_cons_of_neg (by simp [visible])
          rw [kept, trimEnd_cons, visible]
          exact kept (trimEnd text)

theorem isPrefix_trimEnd_iff {start : Text} {c : Char} (visible : isBlank c = false)
    (text : Text) : start ++ [c] <+: trimEnd text ↔ start ++ [c] <+: text := by
  constructor
  · intro words
    exact words.trans (trimEnd_isPrefix text)
  · rintro ⟨rest, rfl⟩
    rw [List.append_assoc, List.singleton_append, trimEnd_append visible]
    exact ⟨trimEnd rest, by simp⟩

end ShaderCatalog.Text
