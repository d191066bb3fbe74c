/-!
# Words, lines and blanks

How a text is cut: `Text.trim` takes the blanks off both ends, `Text.words` gives the longest pieces
that hold no blank, and `Text.lines` the pieces between line ends. Each is defined on lists of
characters first; the functions on strings only convert.
-/

namespace TextAdventure.Text

/-- The characters that Unicode calls white space. -/
def isBlank (c : Char) : Bool :=
  let n := c.toNat
  (0x09 ≤ n && n ≤ 0x0D) || n == 0x20 || n == 0x85 || n == 0xA0 || n == 0x1680 ||
    (0x2000 ≤ n && n ≤ 0x200A) || n == 0x2028 || n == 0x2029 || n == 0x202F || n == 0x205F ||
    n == 0x3000

/-- The text without the blanks at its ends. -/
def trimList (cs : List Char) : List Char :=
  ((cs.dropWhile isBlank).reverse.dropWhile isBlank).reverse

/-- The longest pieces of a text that hold no blank, in order. -/
def wordList : List Char → List (List Char)
  | [] => []
  | c :: cs =>
    if isBlank c then wordList cs
    else match cs, wordList cs with
      | d :: _, w :: ws => if isBlank d then [c] :: w :: ws else (c :: w) :: ws
      | _, ws => [c] :: ws

/-- The lines of a text. A line ends at a line feed, and one carriage return before the line feed
goes with it; what follows the last line feed is a line if it is not empty. -/
def lineList : List Char → List (List Char)
  | [] => []
  | '\n' :: cs => [] :: lineList cs
  | '\r' :: '\n' :: cs => [] :: lineList cs
  | c :: cs =>
    match lineList cs with
    | [] => [[c]]
    | l :: ls => (c :: l) :: ls

/-- Whether the first text occurs in the second. -/
def occursIn (part : List Char) : List Char → Bool
  | [] => part.isEmpty
  | c :: cs => part.isPrefixOf (c :: cs) || occursIn part cs

/-- The string without the blanks at its ends. -/
def trim (s : String) : String := String.ofList (trimList s.toList)

/-- The longest pieces of a string that hold no blank, in order. -/
def words (s : String) : List String := (wordList s.toList).map String.ofList

/-- The lines of a string, as `lineList` cuts them. -/
def lines (s : String) : List String := (lineList s.toList).map String.ofList

/-- Whether a string is empty or holds blanks only. -/
def isBlankText (s : String) : Bool := s.toList.all isBlank

end TextAdventure.Text
