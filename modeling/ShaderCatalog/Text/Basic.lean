namespace ShaderCatalog

/-! Texts as lists of characters, their lines, and the white space around them. -/

abbrev Text := List Char

/-- White space of all scripts: the characters that trimming removes. -/
def isBlank (c : Char) : Bool :=
  (9 ≤ c.toNat && c.toNat ≤ 13) || (28 ≤ c.toNat && c.toNat ≤ 32) ||
    c.toNat == 0x85 || c.toNat == 0xA0 || c.toNat == 0x1680 ||
    (0x2000 ≤ c.toNat && c.toNat ≤ 0x200A) || c.toNat == 0x2028 ||
    c.toNat == 0x2029 || c.toNat == 0x202F || c.toNat == 0x205F ||
    c.toNat == 0x3000

namespace Text

def trimStart (text : Text) : Text :=
  text.dropWhile isBlank

def trimEnd (text : Text) : Text :=
  (text.reverse.dropWhile isBlank).reverse

def trim (text : Text) : Text :=
  trimEnd (trimStart text)

def line (text : Text) : Text :=
  text.takeWhile (· != '\n')

/-- What follows the line that `text` begins in, from its newline on. -/
def afterLine (text : Text) : Text :=
  text.dropWhile (· != '\n')

theorem line_append_afterLine (text : Text) : line text ++ afterLine text = text :=
  List.takeWhile_append_dropWhile

/-- The parts between separators; a text without a separator is one part. -/
def split (separator : Char) : Text → List Text
  | [] => [[]]
  | c :: rest =>
      if c = separator then
        [] :: split separator rest
      else
        match split separator rest with
        | [] => [[c]]
        | first :: others => (c :: first) :: others

def join (separator : Char) : List Text → Text
  | [] => []
  | [last] => last
  | first :: others => first ++ separator :: join separator others

def splitLines (text : Text) : List Text :=
  split '\n' text

def joinLines (lines : List Text) : Text :=
  join '\n' lines

theorem split_ne_nil (separator : Char) (text : Text) : split separator text ≠ [] := by
  cases text with
  | nil => simp [split]
  | cons c rest =>
      simp only [split]
      split
      · simp
      · split <;> simp

theorem join_cons_of_ne_nil {separator : Char} {first : Text} {others : List Text}
    (h : others ≠ []) :
    join separator (first :: others) = first ++ separator :: join separator others := by
  cases others with
  | nil => contradiction
  | cons _ _ => rfl

theorem join_split (separator : Char) (text : Text) :
    join separator (split separator text) = text := by
  induction text with
  | nil => rfl
  | cons c rest induction =>
      have nonempty := split_ne_nil separator rest
      simp only [split]
      split
      next h =>
        rw [join_cons_of_ne_nil nonempty, induction, h]
        rfl
      next =>
        revert induction nonempty
        cases split separator rest with
        | nil => intro _ nonempty; contradiction
        | cons first others =>
            intro induction _
            cases others with
            | nil => simpa [join] using induction
            | cons second more => simpa [join] using induction

theorem joinLines_splitLines (text : Text) : joinLines (splitLines text) = text :=
  join_split '\n' text

def hexDigits (width n : Nat) : Text :=
  let digits := Nat.toDigits 16 n
  List.replicate (width - digits.length) '0' ++ digits

/-- Line endings of all styles as single newlines: a carriage return with a
newline after it, and one that stands alone. -/
def unifyNewlines : Text → Text
  | [] => []
  | '\r' :: '\n' :: rest => '\n' :: unifyNewlines rest
  | '\r' :: rest => '\n' :: unifyNewlines rest
  | c :: rest => c :: unifyNewlines rest

end Text

end ShaderCatalog
