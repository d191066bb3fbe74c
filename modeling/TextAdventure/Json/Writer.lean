import TextAdventure.Json

/-!
# Writing JSON texts

A value has a compact text, without any space between tokens, and a pretty text, with a line for
each item and field. Strings are written raw, but for quotes, backslashes and control characters.
-/

namespace TextAdventure.Json.Writer

/-- A number below 16 as a hexadecimal digit. -/
def hexDigit (n : Nat) : Char := if n < 10 then Char.ofNat (n + 48) else Char.ofNat (n + 87)

/-- What is written for one character of a string. -/
def escape (c : Char) : List Char :=
  if c == '"' then ['\\', '"']
  else if c == '\\' then ['\\', '\\']
  else if c == '\x08' then ['\\', 'b']
  else if c == '\x0c' then ['\\', 'f']
  else if c == '\n' then ['\\', 'n']
  else if c == '\r' then ['\\', 'r']
  else if c == '\t' then ['\\', 't']
  else if c.toNat < 0x20 then
    ['\\', 'u', '0', '0', hexDigit (c.toNat / 16), hexDigit (c.toNat % 16)]
  else [c]

/-- What is written for a string. -/
def quote (s : String) : List Char := '"' :: s.toList.flatMap escape ++ ['"']

/-- What is written for a number. -/
def number : Number → List Char
  | .integer n => Decimal.integerList n
  | .real x => x.textList

/-- What is written for a truth value. -/
def bool (b : Bool) : List Char :=
  if b then ['t', 'r', 'u', 'e'] else ['f', 'a', 'l', 's', 'e']

mutual

/-- The compact text of a value. -/
def compact : Json → List Char
  | .null => ['n', 'u', 'l', 'l']
  | .bool b => bool b
  | .number n => number n
  | .string s => quote s
  | .array items => '[' :: compactItems items ++ [']']
  | .object fields => '{' :: compactFields fields ++ ['}']

/-- The compact texts of the items of an array, with commas between them. -/
def compactItems : List Json → List Char
  | [] => []
  | [x] => compact x
  | x :: y :: xs => compact x ++ ',' :: compactItems (y :: xs)

/-- The compact texts of the fields of an object, with commas between them. -/
def compactFields : List (String × Json) → List Char
  | [] => []
  | [(k, x)] => quote k ++ ':' :: compact x
  | (k, x) :: f :: fs => quote k ++ ':' :: (compact x ++ ',' :: compactFields (f :: fs))

end

/-- A new line at a level of indentation. -/
def newLine (level : Nat) : List Char := '\n' :: List.replicate (2 * level) ' '

mutual

/-- The pretty text of a value at a level of indentation. -/
def pretty (level : Nat) : Json → List Char
  | .null => ['n', 'u', 'l', 'l']
  | .bool b => bool b
  | .number n => number n
  | .string s => quote s
  | .array [] => ['[', ']']
  | .array (x :: xs) =>
    '[' :: newLine (level + 1) ++ prettyItems (level + 1) (x :: xs) ++ newLine level ++ [']']
  | .object [] => ['{', '}']
  | .object (f :: fs) =>
    '{' :: newLine (level + 1) ++ prettyFields (level + 1) (f :: fs) ++ newLine level ++ ['}']

/-- The pretty texts of the items of an array, each but the first on a new line. -/
def prettyItems (level : Nat) : List Json → List Char
  | [] => []
  | [x] => pretty level x
  | x :: y :: xs => pretty level x ++ ',' :: newLine level ++ prettyItems level (y :: xs)

/-- The pretty texts of the fields of an object, each but the first on a new line. -/
def prettyFields (level : Nat) : List (String × Json) → List Char
  | [] => []
  | [(k, x)] => quote k ++ ':' :: ' ' :: pretty level x
  | (k, x) :: f :: fs =>
    quote k ++ ':' :: ' ' :: (pretty level x ++ ',' :: newLine level ++
      prettyFields level (f :: fs))

end

end TextAdventure.Json.Writer

namespace TextAdventure.Json

/-- The text of a value without spaces. -/
def compactText (v : Json) : String := String.ofList (Writer.compact v)

/-- The text of a value with a line for each item and field. -/
def prettyText (v : Json) : String := String.ofList (Writer.pretty 0 v)

end TextAdventure.Json
