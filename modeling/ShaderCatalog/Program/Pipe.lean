import ShaderCatalog.Command.Console

namespace ShaderCatalog

/-! The standard output when no terminal reads it: styles are taken out. A style is an escape
character and an opening bracket, then digits, semicolons and question marks, then a basic
Latin letter. -/

namespace Text

def isParameter (c : Char) : Bool :=
  c.isDigit || c == ';' || c == '?'

/-- What follows the control sequence that starts with an escape character before
`text`, if one does. -/
def afterControlSequence? : Text → Option Text
  | '[' :: rest =>
      match rest.dropWhile isParameter with
      | last :: behind => if last.isAlpha then some behind else none
      | [] => none
  | _ => none

theorem length_afterControlSequence?_lt {text behind : Text}
    (h : afterControlSequence? text = some behind) : behind.length < text.length := by
  unfold afterControlSequence? at h
  split at h
  next rest =>
    have shorter := (List.dropWhile_sublist isParameter (l := rest)).length_le
    split at h
    next last found dropped =>
      rw [dropped] at shorter
      split at h
      · cases h
        simp only [List.length_cons] at shorter ⊢
        omega
      · contradiction
    next => contradiction
  next => contradiction

def withoutControlSequences : Text → Text
  | [] => []
  | c :: rest =>
      if c = Console.escape then
        match _ : afterControlSequence? rest with
        | some behind => withoutControlSequences behind
        | none => c :: withoutControlSequences rest
      else
        c :: withoutControlSequences rest
termination_by text => text.length
decreasing_by
  · have := length_afterControlSequence?_lt ‹_›
    simp only [List.length_cons]
    omega
  · simp
  · simp

theorem withoutControlSequences_of_not_mem {text : Text} (plain : Console.escape ∉ text) :
    withoutControlSequences text = text := by
  induction text with
  | nil => rw [withoutControlSequences]
  | cons c rest induction =>
      rw [List.mem_cons, not_or] at plain
      rw [withoutControlSequences, if_neg (Ne.symm plain.1), induction plain.2]

end Text

def Console.pipe : Console :=
  ⟨Text.withoutControlSequences⟩

theorem Console.keepsPlainText_pipe : pipe.KeepsPlainText :=
  fun _ => Text.withoutControlSequences_of_not_mem

end ShaderCatalog
