import FalconAccount.Text.Ranges

/-!
# Blank characters

The property White_Space of Unicode, and what is done with it: trimming both ends of a text, cutting it
into words, and cutting it into lines at line feeds.
-/

namespace FalconAccount.Text

/-- The code points of white space. -/
def blankRanges : Ranges := [
    (0x9, 0xd), (0x20, 0x20), (0x85, 0x85), (0xa0, 0xa0), (0x1680, 0x1680), (0x2000, 0x200a),
    (0x2028, 0x2029), (0x202f, 0x202f), (0x205f, 0x205f), (0x3000, 0x3000)]

def isBlank (c : Char) : Bool :=
  blankRanges.contains c

/-- `xs` without the items at its end that satisfy `p`. -/
def dropEndWhile {α : Type} (p : α → Bool) (xs : List α) : List α :=
  (xs.reverse.dropWhile p).reverse

def trim (cs : List Char) : List Char :=
  dropEndWhile isBlank (cs.dropWhile isBlank)

/-- The stretches of `cs` between the characters that satisfy `p`; one more than there are of them. -/
def splitWhere (p : Char → Bool) : List Char → List (List Char)
  | [] => [[]]
  | c :: cs =>
    if p c then [] :: splitWhere p cs
    else match splitWhere p cs with
      | [] => [[c]]
      | word :: words => (c :: word) :: words

/-- The longest stretches of `cs` without white space. -/
def words (cs : List Char) : List (List Char) :=
  (splitWhere isBlank cs).filter (! ·.isEmpty)

/-- A line without the carriage return that belongs to its line feed. -/
def dropReturn (line : List Char) : List Char :=
  if line.getLast? = some '\r' then line.dropLast else line

/-- Line contents from stretches between line feeds: the last stretch is a line of its own only if it
holds a character, and no line feed ends it. -/
def linesOfStretches : List (List Char) → List (List Char)
  | [] => []
  | [last] => if last.isEmpty then [] else [last]
  | line :: rest => dropReturn line :: linesOfStretches rest

/-- The lines of `cs`, each without its line feed and the carriage return before that. -/
def lines (cs : List Char) : List (List Char) :=
  linesOfStretches (splitWhere (· == '\n') cs)

theorem splitWhere_ne_nil (p : Char → Bool) (cs : List Char) : splitWhere p cs ≠ [] := by
  cases cs with
  | nil => simp [splitWhere]
  | cons c cs =>
    rw [splitWhere]
    split
    · simp
    · split <;> simp

end FalconAccount.Text
