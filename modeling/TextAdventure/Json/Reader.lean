import TextAdventure.Json.Tree

/-!
# Reading JSON texts

`Json.Tree.ofText?` accepts exactly the texts of the JSON grammar. What the grammar admits and no
value corresponds to becomes `Tree.refused`: strings with half a surrogate pair, numbers that round
to no finite number, objects with a key of the first sort, and arrays and objects inside
`maxNesting` others.
-/

namespace TextAdventure.Json.Reader

/-- How many arrays and objects may lie inside each other. -/
def maxNesting : Nat := 127

/-- The characters that may stand between tokens. -/
def isSpace (c : Char) : Bool := c == ' ' || c == '\n' || c == '\r' || c == '\t'

/-- The text after the spaces at its beginning. -/
def skip (cs : List Char) : List Char := cs.dropWhile isSpace

/-- The number that a hexadecimal digit stands for. -/
def hexValue? (c : Char) : Option Nat :=
  let n := c.toNat
  if 48 ≤ n ∧ n ≤ 57 then some (n - 48)
  else if 97 ≤ n ∧ n ≤ 102 then some (n - 87)
  else if 65 ≤ n ∧ n ≤ 70 then some (n - 55)
  else none

/-- The number that four hexadecimal digits stand for. -/
def hexValue4? (a b c d : Char) : Option Nat := do
  return ((← hexValue? a) * 16 + (← hexValue? b)) * 256 + (← hexValue? c) * 16 + (← hexValue? d)

/-- The character that a short escape stands for. -/
def shortEscape? : Char → Option Char
  | '"' => some '"'
  | '\\' => some '\\'
  | '/' => some '/'
  | 'b' => some '\x08'
  | 'f' => some '\x0c'
  | 'n' => some '\n'
  | 'r' => some '\r'
  | 't' => some '\t'
  | _ => none

/-- A piece of a string: a character, or a 16-bit unit that was written as an escape. -/
inductive Piece where
  | char (c : Char)
  | unit (n : Nat)
  deriving DecidableEq

/-- The pieces of a string whose opening quote has been read, and the text after its closing
quote. -/
def scanString : List Char → Option (List Piece × List Char)
  | [] => none
  | '"' :: cs => some ([], cs)
  | '\\' :: 'u' :: a :: b :: c :: d :: cs => do
    let n ← hexValue4? a b c d
    let (ps, rest) ← scanString cs
    return (.unit n :: ps, rest)
  | '\\' :: e :: cs => do
    -- Here `u` is not followed by four digits, and no short escape is called `u`.
    let c ← shortEscape? e
    let (ps, rest) ← scanString cs
    return (.char c :: ps, rest)
  | c :: cs =>
    if c.toNat < 0x20 || c == '\\' then none
    else do
      let (ps, rest) ← scanString cs
      return (.char c :: ps, rest)

/-- Whether a unit is the first half of a surrogate pair. -/
def isHighSurrogate (n : Nat) : Bool := 0xD800 ≤ n && n ≤ 0xDBFF

/-- Whether a unit is the second half of a surrogate pair. -/
def isLowSurrogate (n : Nat) : Bool := 0xDC00 ≤ n && n ≤ 0xDFFF

/-- The characters that pieces stand for, if every surrogate is half of a pair. -/
def joinPieces : List Piece → Option (List Char)
  | [] => some []
  | .char c :: ps => (joinPieces ps).map (c :: ·)
  | .unit n :: .unit m :: ps =>
    if isHighSurrogate n && isLowSurrogate m then
      (joinPieces ps).map (Char.ofNat (0x10000 + (n - 0xD800) * 0x400 + (m - 0xDC00)) :: ·)
    else if isHighSurrogate n || isLowSurrogate n then none
    else (joinPieces (.unit m :: ps)).map (Char.ofNat n :: ·)
  | .unit n :: ps =>
    if isHighSurrogate n || isLowSurrogate n then none
    else (joinPieces ps).map (Char.ofNat n :: ·)

/-- The string that pieces stand for. -/
def stringOf? (ps : List Piece) : Option String := (joinPieces ps).map String.ofList

/-- A number as it was written: its sign, the digits before and after the point, and the exponent,
if it has one. -/
structure Literal where
  negative : Bool
  whole : List Char
  fraction : List Char
  exponent : Option Int
  deriving DecidableEq

/-- The longest run of digits at the beginning of a text, and what follows. -/
def scanDigits (cs : List Char) : List Char × List Char :=
  (cs.takeWhile Char.isDigit, cs.dropWhile Char.isDigit)

/-- The fraction of a number and the text after it. A text that does not begin with a point has the
empty fraction. -/
def scanFraction : List Char → Option (List Char × List Char)
  | '.' :: cs =>
    let (ds, rest) := scanDigits cs
    if ds.isEmpty then none else some (ds, rest)
  | cs => some ([], cs)

/-- The digits of an exponent, taken with a sign, and the text after it. -/
def scanExponentDigits (negative : Bool) (cs : List Char) : Option (Option Int × List Char) :=
  let (ds, rest) := scanDigits cs
  let n : Int := Decimal.valueOf ds
  if ds.isEmpty then none else some (some (if negative then -n else n), rest)

/-- The exponent of a number, if it has one, and the text after it. -/
def scanExponent : List Char → Option (Option Int × List Char)
  | c :: cs =>
    if c == 'e' || c == 'E' then
      match cs with
      | '-' :: cs => scanExponentDigits true cs
      | '+' :: cs => scanExponentDigits false cs
      | cs => scanExponentDigits false cs
    else some (none, c :: cs)
  | [] => some (none, [])

/-- The unsigned part of a number, and the text after it. -/
def scanUnsigned (negative : Bool) (cs : List Char) : Option (Literal × List Char) := do
  let (whole, rest) := scanDigits cs
  guard (!whole.isEmpty && (whole.head? != some '0' || whole.length == 1))
  let (fraction, rest) ← scanFraction rest
  let (exponent, rest) ← scanExponent rest
  return (⟨negative, whole, fraction, exponent⟩, rest)

/-- A number and the text after it. -/
def scanNumber : List Char → Option (Literal × List Char)
  | '-' :: cs => scanUnsigned true cs
  | cs => scanUnsigned false cs

/-- Digits taken behind others that stand for `start`, up to the first for which there is no room in
64 bits: what they stand for, and how many are left. -/
def gather (start : Nat) : List Char → Nat × Nat
  | [] => (start, 0)
  | d :: ds =>
    let n := 10 * start + Decimal.digitValue d
    if n < UInt64.size then gather n ds else (start, ds.length + 1)

/-- The decimal that is taken from a literal. A digit before the point for which there is no room
still counts in the exponent; behind the point, it and all digits after it are left out. -/
def Literal.taken (l : Literal) : Decimal :=
  let (whole, left) := gather 0 l.whole
  let (digits, left') := gather whole l.fraction
  ⟨digits, l.exponent.getD 0 + left - (l.fraction.length - left')⟩

/-- The number that a literal stands for, if it is finite. -/
def Literal.number? (l : Literal) : Option Number :=
  let n : Nat := Decimal.valueOf l.whole
  let i : Int := if l.negative then -n else n
  -- No integer tells minus zero from zero, so minus zero is a floating-point number.
  if l.fraction.isEmpty && l.exponent.isNone &&
      (Int64.minValue.toInt ≤ i && i < UInt64.size && !(l.negative && n == 0)) then
    some (.integer i)
  else (Binary64.ofScaled l.negative l.taken.digits l.taken.exponent).map .real

/-- The tree of an array or object with so many levels left. -/
def contained (levels : Nat) (t : Tree) : Tree := if levels == 0 then .refused else t

/-- The tree of an object whose keys may have no value. -/
def objectOf (fields : List (Option String × Tree)) : Tree :=
  match fields.mapM fun f => f.1.map (·, f.2) with
  | some fs => .object fs
  | none => .refused

mutual

/-- The value at the beginning of a text, and what follows. -/
def scanValue : Nat → Nat → List Char → Option (Tree × List Char)
  | 0, _, _ => none
  | fuel + 1, levels, cs =>
    match cs with
    | 'n' :: 'u' :: 'l' :: 'l' :: rest => some (.null, rest)
    | 't' :: 'r' :: 'u' :: 'e' :: rest => some (.bool true, rest)
    | 'f' :: 'a' :: 'l' :: 's' :: 'e' :: rest => some (.bool false, rest)
    | '"' :: rest => do
      let (ps, rest) ← scanString rest
      return (((stringOf? ps).map Tree.string).getD .refused, rest)
    | '[' :: rest =>
      match skip rest with
      | ']' :: rest => some (contained levels (.array []), rest)
      | rest => do
        let (items, rest) ← scanItems fuel (levels - 1) rest
        return (contained levels (.array items), rest)
    | '{' :: rest =>
      match skip rest with
      | '}' :: rest => some (contained levels (.object []), rest)
      | rest => do
        let (fields, rest) ← scanFields fuel (levels - 1) rest
        return (contained levels (objectOf fields), rest)
    | cs => do
      let (l, rest) ← scanNumber cs
      return ((l.number?.map Tree.number).getD .refused, rest)

/-- The items of an array, of which there is at least one, and the text after its end. -/
def scanItems : Nat → Nat → List Char → Option (List Tree × List Char)
  | 0, _, _ => none
  | fuel + 1, levels, cs => do
    let (item, rest) ← scanValue fuel levels cs
    match skip rest with
    | ']' :: rest => return ([item], rest)
    | ',' :: rest =>
      let (items, rest) ← scanItems fuel levels (skip rest)
      return (item :: items, rest)
    | _ => none

/-- The fields of an object, of which there is at least one, and the text after its end. -/
def scanFields : Nat → Nat → List Char → Option (List (Option String × Tree) × List Char)
  | 0, _, _ => none
  | fuel + 1, levels, cs =>
    match cs with
    | '"' :: rest => do
      let (ps, rest) ← scanString rest
      match skip rest with
      | ':' :: rest =>
        let (value, rest) ← scanValue fuel levels (skip rest)
        match skip rest with
        | '}' :: rest => return ([(stringOf? ps, value)], rest)
        | ',' :: rest =>
          let (fields, rest) ← scanFields fuel levels (skip rest)
          return ((stringOf? ps, value) :: fields, rest)
        | _ => none
      | _ => none
    | _ => none

end

/-- The tree of a text that holds one value and nothing else. Every second step of the scanner takes
a character, which bounds the number of steps. -/
def read (cs : List Char) : Option Tree :=
  match scanValue (2 * cs.length + 2) maxNesting (skip cs) with
  | some (t, rest) => if (skip rest).isEmpty then some t else none
  | none => none

end TextAdventure.Json.Reader

namespace TextAdventure.Json

/-- What a text says, if it is a JSON text. -/
def Tree.ofText? (text : String) : Option Tree := Reader.read text.toList

/-- The canonical value of a text, if it is a JSON text and no part of it is refused. -/
def ofText? (text : String) : Option Json := (Tree.ofText? text).bind Tree.toJson?

end TextAdventure.Json
