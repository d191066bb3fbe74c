import TextAdventure.Decimal

/-!
# Binary floating-point numbers

The finite numbers of the 64-bit binary format, as a sign, a significand and an exponent of two.
`Binary64.round` takes a quotient to the nearest such number, a tie to the even significand.
`Binary64.shortest` gives the shortest decimal that rounds back to a number, and `Binary64.textList`
writes it with a fraction or, far from one, with an exponent.

Decimals are read in two ways. `Binary64.ofDecimal` rounds once and finds the nearest number.
`Binary64.ofScaled` does what a machine does that has no more room than a number: it rounds the
digits, and rounds again when it multiplies or divides them by a power of ten. Its result may be a
neighbour of the nearest number.
-/

namespace TextAdventure

/-- A finite 64-bit binary floating-point number, `significand · 2 ^ exponent` with a sign. The
exponent is as small as the format allows, so that a number and its sign have one representation. -/
structure Binary64 where
  negative : Bool
  significand : Nat
  exponent : Int
  /-- The significand fits into 53 bits and uses the first of them, unless the exponent is least. -/
  canonical : significand < Nat.pow 2 53 ∧ -1074 ≤ exponent ∧ exponent ≤ 971 ∧
    (Nat.pow 2 52 ≤ significand ∨ exponent = -1074)
  deriving DecidableEq

namespace Binary64

/-- Zero with a sign. -/
def zero (negative : Bool) : Binary64 := ⟨negative, 0, -1074, by decide⟩

/-- The number with these parts, if they are canonical. -/
def ofParts? (negative : Bool) (significand : Nat) (exponent : Int) : Option Binary64 :=
  if h : significand < Nat.pow 2 53 ∧ -1074 ≤ exponent ∧ exponent ≤ 971 ∧
      (Nat.pow 2 52 ≤ significand ∨ exponent = -1074) then
    some ⟨negative, significand, exponent, h⟩
  else none

/-- The numerator and the denominator of a quotient times `base ^ exponent`. -/
def scale (base num den : Nat) (exponent : Int) : Nat × Nat :=
  if exponent < 0 then (num, den * Nat.pow base (-exponent).toNat)
  else (num * Nat.pow base exponent.toNat, den)

/-- The least exponent of two, not below that of the format, at which the quotient has at most 53
bits before the binary point. -/
def gridExponent (num den : Nat) : Int :=
  let low : Int := (num.log2 : Int) - (den.log2 : Int) - 53
  let (a, b) := scale 2 num den (-low)
  -- The logarithms are rounded down, so the quotient has 53 or 54 bits on the grid of `low`.
  max (-1074) (if a / b < Nat.pow 2 53 then low else low + 1)

/-- The whole number nearest to a quotient, and the even one of two that are equally near. -/
def divideToEven (num den : Nat) : Nat :=
  let q := num / den
  let r := num % den
  if 2 * r < den || (2 * r == den && q % 2 == 0) then q else q + 1

/-- The number nearest to a quotient, or none if it is beyond the largest finite number. -/
def round (negative : Bool) (num den : Nat) : Option Binary64 :=
  if num == 0 then some (zero negative)
  else
    let e := gridExponent num den
    let (a, b) := scale 2 num den (-e)
    let m := divideToEven a b
    -- Rounding up may carry into one bit more, and then the number is a power of two.
    if m < Nat.pow 2 53 then ofParts? negative m e else ofParts? negative (Nat.pow 2 52) (e + 1)

/-- The number nearest to a decimal. Exponents far outside the format need no arithmetic. -/
def ofDecimal (negative : Bool) (d : Decimal) : Option Binary64 :=
  if d.digits == 0 then some (zero negative)
  else if 400 < d.exponent then none
  else if d.exponent + (Decimal.digitList d.digits).length < -400 then some (zero negative)
  else
    let (a, b) := scale 10 d.digits 1 d.exponent
    round negative a b

/-- The absolute value as a quotient. -/
def quotient (x : Binary64) : Nat × Nat := scale 2 x.significand 1 x.exponent

/-- The number nearest to a power of ten, of which there is none beyond `10 ^ 308`. -/
def tenPower (n : Nat) : Option Binary64 := round false (Nat.pow 10 n) 1

/-- The number times a power of ten, or none if it becomes too large. -/
def timesTenPower (x : Binary64) (n : Nat) : Option Binary64 := do
  let (a, b) := x.quotient
  let (c, d) := (← tenPower n).quotient
  round x.negative (a * c) (b * d)

/-- The number divided by a power of ten. -/
def overTenPower (x : Binary64) (n : Nat) : Option Binary64 := do
  let (a, b) := x.quotient
  let (c, d) := (← tenPower n).quotient
  round x.negative (a * d) (b * c)

/-- The number divided by a power of ten in steps of `10 ^ 308`, until nothing of it is left. -/
def shrink (x : Binary64) (n : Nat) : Option Binary64 :=
  if n ≤ 308 then x.overTenPower n
  else if x.significand == 0 then some x
  else (x.overTenPower 308).bind fun y => y.shrink (n - 308)
termination_by n

/-- A whole number times a power of ten, rounded at every step, or none if it becomes too large. -/
def ofScaled (negative : Bool) (digits : Nat) (exponent : Int) : Option Binary64 :=
  (round negative digits 1).bind fun x =>
    if exponent < 0 then x.shrink (-exponent).toNat
    else if exponent ≤ 308 then x.timesTenPower exponent.toNat
    else if x.significand == 0 then some x
    else none

/-- The absolute value, written out in full. -/
def exactDecimal (x : Binary64) : Decimal :=
  if x.exponent < 0 then ⟨x.significand * Nat.pow 5 (-x.exponent).toNat, x.exponent⟩
  else ⟨x.significand * Nat.pow 2 x.exponent.toNat, 0⟩

/-- The exponent of ten of the first digit of a quotient that is not below `10 ^ -400`. -/
def leadingExponent (num den : Nat) : Int :=
  ((Decimal.digitList (num * Nat.pow 10 400 / den)).length : Int) - 401

/-- Whether a decimal, with the sign of the number, is read back as the number. -/
def readsBack (x : Binary64) (d : Decimal) : Bool := ofDecimal x.negative d == some x

/-- The multiple of `10 ^ exponent` that is nearest to a number, of those next to it that are read
back as the number; the even one of two that are equally near. -/
def nearestAt? (x : Binary64) (exponent : Int) : Option Decimal :=
  let (num, den) := x.quotient
  let (a, b) := scale 10 num den (-exponent)
  let below : Decimal := ⟨a / b, exponent⟩
  let above : Decimal := ⟨a / b + 1, exponent⟩
  match readsBack x below, readsBack x above with
  | true, true => some (if divideToEven a b == a / b then below else above)
  | true, false => some below
  | false, true => some above
  | false, false => none

/-- The shortest decimal that is read back as the number, and of these the nearest. Seventeen digits
are always enough; the number itself stands behind them. -/
def shortest (x : Binary64) : Decimal :=
  let first := leadingExponent x.quotient.1 x.quotient.2
  let found := (List.range 17).findSome? fun n : Nat => nearestAt? x (first - n)
  (found.getD x.exactDecimal).strip

/-- An exponent with its sign, which is always written. -/
def exponentList (n : Int) : List Char :=
  if n < 0 then '-' :: Decimal.digitList n.natAbs else '+' :: Decimal.digitList n.natAbs

/-- A positive decimal. It is written with a fraction if the exponent of its first digit is at least
-5 and less than 16, and otherwise with one digit, the rest as a fraction and an exponent. -/
def decimalList (d : Decimal) : List Char :=
  let ds := Decimal.digitList d.digits
  let leading : Int := d.exponent + ds.length - 1
  if -5 ≤ leading ∧ leading < 16 then
    if leading < 0 then
      '0' :: '.' :: List.replicate (-leading - 1).toNat '0' ++ ds
    else if 0 ≤ d.exponent then
      ds ++ List.replicate d.exponent.toNat '0' ++ ['.', '0']
    else
      ds.take (leading + 1).toNat ++ '.' :: ds.drop (leading + 1).toNat
  else
    let rest := ds.drop 1
    ds.take 1 ++ (if rest.isEmpty then [] else '.' :: rest) ++ 'e' :: exponentList leading

/-- The text of a number: its sign, and the shortest decimal that is read back as the number. -/
def textList (x : Binary64) : List Char :=
  (if x.negative then ['-'] else []) ++
    if x.significand == 0 then ['0', '.', '0'] else decimalList x.shortest

/-- Whether two numbers are equal as numbers: the sign of zero does not count. -/
def same (x y : Binary64) : Bool := x == y || (x.significand == 0 && y.significand == 0)

end Binary64

end TextAdventure
