import TextAdventure.Json.Reader
import TextAdventure.Toml

/-!
# Reading TOML

`Toml.ofText?` accepts the documents of TOML 1.0. Every scanner takes the text from where it stands
and gives what follows; the document is built line by line.
-/

namespace TextAdventure.Toml.Reader

/-- What a scanner gives: a result and the text after it, unless the text does not fit. -/
abbrev Scan (α : Type) := List Char → Option (α × List Char)

/-- Blanks within a line. -/
def isSpace (c : Char) : Bool := c == ' ' || c == '\t'

/-- The text after the blanks at its beginning. -/
def skip (cs : List Char) : List Char := cs.dropWhile isSpace

/-- The text after the line end at its beginning. -/
def newLine? : List Char → Option (List Char)
  | '\n' :: cs => some cs
  | '\r' :: '\n' :: cs => some cs
  | _ => none

/-- Whether a character may stand in a comment. In strings the delimiters are taken out of these. -/
def isPrintable (c : Char) : Bool :=
  c == '\t' || (0x20 ≤ c.toNat && c.toNat ≤ 0x7E) || 0x80 ≤ c.toNat

/-- The text after blanks, line ends and comments. What a comment cannot hold ends it. -/
def skipLines (inComment : Bool) : List Char → List Char
  | [] => []
  | '\r' :: '\n' :: cs => skipLines false cs
  | c :: cs =>
    if c == '\n' then skipLines false cs
    else if inComment then
      if isPrintable c then skipLines true cs else c :: cs
    else if isSpace c then skipLines false cs
    else if c == '#' then skipLines true cs
    else c :: cs

/-- The text after the rest of a line, which may hold a comment. -/
def endLine? (cs : List Char) : Option (List Char) :=
  let rest := match skip cs with
    | '#' :: cs => cs.dropWhile isPrintable
    | cs => cs
  if rest.isEmpty then some [] else newLine? rest

/-- A result in front of what a scanner of a list gives. -/
def consTo {α : Type} (x : α) (r : Option (List α × List Char)) : Option (List α × List Char) :=
  r.map fun p => (x :: p.1, p.2)

/-- The character with a code point, if it is one. -/
def charOf? (n : Nat) : Option Char :=
  if n < 0xD800 ∨ (0xDFFF < n ∧ n < 0x110000) then some (Char.ofNat n) else none

/-- The character that a one-letter escape stands for. -/
def shortEscape? : Char → Option Char
  | 'b' => some '\x08'
  | 't' => some '\t'
  | 'n' => some '\n'
  | 'f' => some '\x0c'
  | 'r' => some '\r'
  | '"' => some '"'
  | '\\' => some '\\'
  | _ => none

/-- The character that four or eight hexadecimal digits stand for. -/
def hexEscape? (digits : List Char) : Option Char := do
  let values ← digits.mapM Json.Reader.hexValue?
  charOf? (values.foldl (fun n v => 16 * n + v) 0)

/-- A string between double quotes, from after the first quote. -/
def basic : Scan (List Char)
  | [] => none
  | '"' :: cs => some ([], cs)
  | '\\' :: 'u' :: a :: b :: c :: d :: cs => do consTo (← hexEscape? [a, b, c, d]) (basic cs)
  | '\\' :: 'U' :: a :: b :: c :: d :: e :: f :: g :: h :: cs => do
    consTo (← hexEscape? [a, b, c, d, e, f, g, h]) (basic cs)
  | '\\' :: e :: cs => do consTo (← shortEscape? e) (basic cs)
  | c :: cs => if isPrintable c && c != '\\' then consTo c (basic cs) else none

/-- A string between single quotes, from after the first quote. -/
def literal : Scan (List Char)
  | [] => none
  | '\'' :: cs => some ([], cs)
  | c :: cs => if isPrintable c then consTo c (literal cs) else none

/-- A string between triple double quotes, from after the line end that may follow the first quotes.
Up to two quotes may stand before the last ones. A backslash at the end of a line takes the blanks
and line ends after it away, which `trimming` does. -/
def longBasic (trimming : Bool) : Scan (List Char)
  | [] => none
  | '"' :: '"' :: '"' :: '"' :: '"' :: cs => some (['"', '"'], cs)
  | '"' :: '"' :: '"' :: '"' :: cs => some (['"'], cs)
  | '"' :: '"' :: '"' :: cs => some ([], cs)
  | '\r' :: '\n' :: cs =>
    if trimming then longBasic true cs else consTo '\n' (longBasic false cs)
  | '\\' :: cs =>
    -- Blanks may stand between the backslash and the end of its line.
    if (newLine? (skip cs)).isSome then longBasic true cs
    else match cs with
      | 'u' :: a :: b :: c :: d :: cs => do
        consTo (← hexEscape? [a, b, c, d]) (longBasic false cs)
      | 'U' :: a :: b :: c :: d :: e :: f :: g :: h :: cs => do
        consTo (← hexEscape? [a, b, c, d, e, f, g, h]) (longBasic false cs)
      | e :: cs => do consTo (← shortEscape? e) (longBasic false cs)
      | [] => none
  | c :: cs =>
    if trimming && (isSpace c || c == '\n') then longBasic true cs
    else if isPrintable c || c == '\n' then consTo c (longBasic false cs)
    else none

/-- A string between triple single quotes, from after the line end that may follow the first
quotes. -/
def longLiteral : Scan (List Char)
  | [] => none
  | '\'' :: '\'' :: '\'' :: '\'' :: '\'' :: cs => some (['\'', '\''], cs)
  | '\'' :: '\'' :: '\'' :: '\'' :: cs => some (['\''], cs)
  | '\'' :: '\'' :: '\'' :: cs => some ([], cs)
  | '\r' :: '\n' :: cs => consTo '\n' (longLiteral cs)
  | c :: cs => if isPrintable c || c == '\n' then consTo c (longLiteral cs) else none

/-- The text after the line end with which it may begin. -/
def dropNewLine (cs : List Char) : List Char := (newLine? cs).getD cs

/-- A string in any of its four forms. -/
def text : Scan String := fun cs =>
  let chars := match cs with
    | '"' :: '"' :: '"' :: cs => longBasic false (dropNewLine cs)
    | '\'' :: '\'' :: '\'' :: cs => longLiteral (dropNewLine cs)
    | '"' :: cs => basic cs
    | '\'' :: cs => literal cs
    | _ => none
  chars.map fun p => (String.ofList p.1, p.2)

/-- Whether a character may stand in a key without quotes. -/
def isBare (c : Char) : Bool := c.isAlphanum || c == '-' || c == '_'

/-- A key without dots. -/
def simpleKey : Scan String
  | '"' :: cs => (basic cs).map fun p => (String.ofList p.1, p.2)
  | '\'' :: cs => (literal cs).map fun p => (String.ofList p.1, p.2)
  | cs =>
    let name := cs.takeWhile isBare
    if name.isEmpty then none else some (String.ofList name, cs.dropWhile isBare)

/-- The parts of a key, between dots, at most `fuel` of them. -/
def keyParts : Nat → Scan (List String)
  | 0, _ => none
  | fuel + 1, cs => do
    let (part, rest) ← simpleKey (skip cs)
    match skip rest with
    | '.' :: rest => consTo part (keyParts fuel rest)
    | rest => return ([part], rest)

/-- How many parts a key may have, and how many values may stand inside each other. -/
def maxDepth : Nat := 79

/-- The parts of a key. -/
def key : Scan (List String) := keyParts maxDepth

/-- A number of exactly so many digits. -/
def digits (count : Nat) : Scan Nat := fun cs =>
  let ds := cs.take count
  if ds.length == count && ds.all Char.isDigit then some (Decimal.valueOf ds, cs.drop count)
  else none

/-- A character that has to be there. -/
def expect (c : Char) : List Char → Option (List Char)
  | d :: cs => if c == d then some cs else none
  | [] => none

/-- The number of days of a month. -/
def daysOf (year month : Nat) : Nat :=
  if month == 2 then
    if year % 4 == 0 && (year % 100 != 0 || year % 400 == 0) then 29 else 28
  else if month == 4 || month == 6 || month == 9 || month == 11 then 30
  else 31

/-- The text after a date. -/
def date? (cs : List Char) : Option (List Char) := do
  let (year, cs) ← digits 4 cs
  let (month, cs) ← digits 2 (← expect '-' cs)
  let (day, cs) ← digits 2 (← expect '-' cs)
  guard (1 ≤ month && month ≤ 12 && 1 ≤ day && day ≤ daysOf year month)
  return cs

/-- The text after a fraction of a second, which may be missing. -/
def secondFraction : List Char → List Char
  | '.' :: cs =>
    if (cs.takeWhile Char.isDigit).isEmpty then '.' :: cs else cs.dropWhile Char.isDigit
  | cs => cs

/-- The text after a time of day. -/
def time? (cs : List Char) : Option (List Char) := do
  let (hour, cs) ← digits 2 cs
  let (minute, cs) ← digits 2 (← expect ':' cs)
  let (second, cs) ← digits 2 (← expect ':' cs)
  guard (hour ≤ 23 && minute ≤ 59 && second ≤ 60)
  return secondFraction cs

/-- The text after the hours and minutes of a time zone. -/
def zoneOffset? (cs : List Char) : Option (List Char) := do
  let (hour, cs) ← digits 2 cs
  let (minute, cs) ← digits 2 (← expect ':' cs)
  guard (hour ≤ 23 && minute ≤ 59)
  return cs

/-- The text after a time zone, which may be missing. -/
def zone (cs : List Char) : List Char :=
  match cs with
  | c :: rest =>
    if c == 'Z' || c == 'z' then rest
    else if c == '+' || c == '-' then (zoneOffset? rest).getD cs
    else cs
  | [] => []

/-- The text after a date, a time of day, or both. -/
def moment? (cs : List Char) : Option (List Char) :=
  match date? cs with
  | some rest =>
    match rest with
    | c :: after =>
      if c == 'T' || c == 't' || c == ' ' then some (((time? after).map zone).getD rest)
      else some rest
    | [] => some []
  | none => time? cs

/-- The digits of a kind that go on after another, single underscores between them, and what
follows. -/
def moreDigits (isDigit : Char → Bool) : List Char → List Char × List Char
  | '_' :: d :: cs =>
    if isDigit d then
      let (ds, rest) := moreDigits isDigit cs
      (d :: ds, rest)
    else ([], '_' :: d :: cs)
  | c :: cs =>
    if isDigit c then
      let (ds, rest) := moreDigits isDigit cs
      (c :: ds, rest)
    else ([], c :: cs)
  | [] => ([], [])

/-- At least one digit of a kind, single underscores between them. -/
def spacedDigits (isDigit : Char → Bool) : Scan (List Char)
  | c :: cs =>
    if isDigit c then
      let (ds, rest) := moreDigits isDigit cs
      some (c :: ds, rest)
    else none
  | [] => none

/-- Whether a text begins with a minus sign, and the text after a sign at its beginning. -/
def sign : List Char → Bool × List Char
  | '-' :: cs => (true, cs)
  | '+' :: cs => (false, cs)
  | cs => (false, cs)

/-- The digits of a whole number, which begins with a zero only if that is its only digit. -/
def wholeDigits : Scan (List Char)
  | '0' :: cs => some (['0'], cs)
  | cs => spacedDigits Char.isDigit cs

/-- A fraction, from its point. -/
def fraction : Scan (List Char)
  | '.' :: cs => spacedDigits Char.isDigit cs
  | _ => none

/-- An exponent, from its letter. -/
def exponent : Scan Int
  | c :: cs =>
    if c == 'e' || c == 'E' then do
      let (negative, cs) := sign cs
      let (ds, rest) ← spacedDigits Char.isDigit cs
      let n : Int := Decimal.valueOf ds
      return (if negative then -n else n, rest)
    else none
  | [] => none

/-- The text after a fractional number, which has a fraction, an exponent or both. A positive number
that is too large for a floating-point number is none. -/
def float? (cs : List Char) : Option (List Char) := do
  let (negative, cs) := sign cs
  let (whole, cs) ← wholeDigits cs
  let (places, power, rest) ← match fraction cs with
    | some (places, rest) =>
      match exponent rest with
      | some (power, rest) => some (places, power, rest)
      | none => some (places, 0, rest)
    | none => (exponent cs).map fun p => ([], p.1, p.2)
  let value := Binary64.ofDecimal negative
    ⟨Decimal.valueOf (whole ++ places), power - places.length⟩
  guard (negative || value.isSome)
  return rest

/-- The text after infinity or after what is not a number. -/
def special? (cs : List Char) : Option (List Char) :=
  match (sign cs).2 with
  | 'i' :: 'n' :: 'f' :: rest => some rest
  | 'n' :: 'a' :: 'n' :: rest => some rest
  | _ => none

/-- Digits in a base from 2 to 16. -/
def basedDigits (base : Nat) : Scan Int := fun cs => do
  let isDigit (c : Char) := ((Json.Reader.hexValue? c).map fun v => decide (v < base)).getD false
  let (ds, rest) ← spacedDigits isDigit cs
  let values := ds.map fun c => (Json.Reader.hexValue? c).getD 0
  let n : Nat := values.foldl (fun n v => base * n + v) 0
  return ((n : Int), rest)

/-- An integer of any size. -/
def wholeNumber : Scan Int
  | '0' :: 'x' :: cs => basedDigits 16 cs
  | '0' :: 'o' :: cs => basedDigits 8 cs
  | '0' :: 'b' :: cs => basedDigits 2 cs
  | cs => do
    let (negative, cs) := sign cs
    let (ds, rest) ← wholeDigits cs
    let n : Int := Decimal.valueOf ds
    return (if negative then -n else n, rest)

/-- An integer of 64 bits. -/
def integer : Scan Int := fun cs => do
  let (n, rest) ← wholeNumber cs
  guard (Int64.minValue.toInt ≤ n && n ≤ Int64.maxValue.toInt)
  return (n, rest)

/-- A value that is not made of others. -/
def atom : Scan Toml
  | 't' :: 'r' :: 'u' :: 'e' :: rest => some (.boolean true, rest)
  | 'f' :: 'a' :: 'l' :: 's' :: 'e' :: rest => some (.boolean false, rest)
  | cs =>
    -- A date begins with the digits of an integer, and so does a fractional number.
    match (moment? cs <|> float? cs <|> special? cs) with
    | some rest => some (.other, rest)
    | none => (integer cs).map fun p => (.integer p.1, p.2)

/-- Fields with a key set that may have dots. -/
def setDotted (parts : List String) (value : Toml) (fields : Fields) : Option Fields := do
  let last ← parts.getLast?
  setKey parts.dropLast last value fields

mutual

/-- A value, in which others may stand inside each other `depth` deep. -/
def value : Nat → Nat → Scan Toml
  | 0, _, _ => none
  | fuel + 1, depth, cs =>
    match cs, depth with
    | '[' :: cs, depth + 1 => do
      let (items, rest) ← items fuel depth (skipLines false cs)
      return (.array items, rest)
    | '{' :: cs, depth + 1 =>
      match skip cs with
      | '}' :: rest => some (.table .inlined [], rest)
      | cs => do
        let (fields, rest) ← pairs fuel depth [] cs
        return (.table .inlined fields, rest)
    | '"' :: _, _ | '\'' :: _, _ => (text cs).map fun p => (.string p.1, p.2)
    | cs, _ => atom cs

/-- The items of an array, from where an item or the end of the array may stand. -/
def items : Nat → Nat → Scan (List Toml)
  | 0, _, _ => none
  | fuel + 1, depth, cs =>
    match cs with
    | ']' :: rest => some ([], rest)
    | cs => do
      let (item, rest) ← value fuel depth cs
      match skipLines false rest with
      | ',' :: rest => consTo item (items fuel depth (skipLines false rest))
      | ']' :: rest => return ([item], rest)
      | _ => none

/-- The fields between braces after those that were read before. -/
def pairs : Nat → Nat → Fields → Scan Fields
  | 0, _, _, _ => none
  | fuel + 1, depth, before, cs => do
    let (parts, rest) ← key cs
    let (v, rest) ← value fuel depth (skip (← expect '=' rest))
    let fields ← setDotted parts v before
    match skip rest with
    | ',' :: rest => pairs fuel depth fields rest
    | '}' :: rest => return (fields, rest)
    | _ => none

end

/-- A header, from after its opening brackets to after its closing ones. -/
def header (closing : List Char) : Scan (List String) := fun cs => do
  let (parts, rest) ← key cs
  guard (closing.isPrefixOf rest)
  return (parts, rest.drop closing.length)

/-- The rest of a document, at the beginning of a line. `current` is the header under which the line
stands. -/
def lines : Nat → List String → Fields → List Char → Option Fields
  | 0, _, _, _ => none
  | fuel + 1, current, fields, cs =>
    match skip cs with
    | [] => some fields
    | '[' :: '[' :: cs => do
      let (parts, rest) ← header [']', ']'] cs
      lines fuel parts (← openHeader openRow parts fields) (← endLine? rest)
    | '[' :: cs => do
      let (parts, rest) ← header [']'] cs
      lines fuel parts (← openHeader openTable parts fields) (← endLine? rest)
    | c :: cs =>
      if c == '#' || c == '\n' || c == '\r' then do
        lines fuel current fields (← endLine? (c :: cs))
      else do
        let (parts, rest) ← key (c :: cs)
        let (v, rest) ← value (2 * rest.length + 2) maxDepth (skip (← expect '=' rest))
        let fields ← changeAt (setDotted parts v) current fields
        lines fuel current fields (← endLine? rest)

/-- The text after the mark of its encoding, with which it may begin. -/
def dropMark : List Char → List Char
  | c :: cs => if c.toNat == 0xFEFF then cs else c :: cs
  | [] => []

end TextAdventure.Toml.Reader

namespace TextAdventure.Toml

/-- The fields of the document that a text holds. -/
def ofText? (text : String) : Option Fields :=
  let cs := Reader.dropMark text.toList
  Reader.lines (cs.length + 1) [] [] cs

end TextAdventure.Toml
