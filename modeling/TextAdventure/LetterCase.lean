import TextAdventure.LetterCase.Table

/-!
# Lower case

`LetterCase.lower` maps a text to lower case by the full Unicode rules. Only two of them go beyond
the table of single letters: the dotted capital I becomes two characters, and a capital sigma at the
end of a word becomes the final form of the small letter.
-/

namespace TextAdventure.LetterCase

/-- Whether one of the ranges holds the code point of the character. -/
def within (ranges : List (Nat × Nat)) (c : Char) : Bool :=
  ranges.any fun r => r.1 ≤ c.toNat && c.toNat ≤ r.2

/-- The lower-case form of a character outside ASCII that has a form of one character. -/
def lowerByTable (c : Char) : Char :=
  let n := c.toNat
  match lowerShifts.find? fun s => s.first ≤ n && n ≤ s.last && (n - s.first) % s.step == 0 with
  | some s => Char.ofNat (n + s.shift).toNat
  | none => c

/-- The lower-case form of a character that stands alone. -/
def lowerChar (c : Char) : List Char :=
  if c.toNat < 128 then [c.toLower]
  else if c.toNat == 0x130 then ['i', Char.ofNat 0x307]
  else [lowerByTable c]

/-- Whether a text begins, after characters that do not separate letters, with a letter that has
case. -/
def meetsLetter (cs : List Char) : Bool :=
  ((cs.dropWhile (within skippedRanges)).head?.map (within casedRanges)).getD false

/-- The lower-case form of a capital sigma between two texts, the first of them read backwards. It
is the final form when a letter comes before it and none after it. -/
def lowerSigma (before after : List Char) : Char :=
  if meetsLetter before && !meetsLetter after then 'ς' else 'σ'

/-- The lower-case form of a text that follows another, which is given backwards. -/
def lowerAfter (before : List Char) : List Char → List Char
  | [] => []
  | c :: cs =>
    -- The form of a sigma depends on the characters around it as they were written.
    (if c == 'Σ' then [lowerSigma before cs] else lowerChar c) ++ lowerAfter (c :: before) cs

/-- The lower-case form of a text. -/
def lowerList (cs : List Char) : List Char := lowerAfter [] cs

/-- The lower-case form of a string. -/
def lower (s : String) : String := String.ofList (lowerList s.toList)

end TextAdventure.LetterCase
