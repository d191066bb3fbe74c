/-!
# Decimal digits

Natural numbers as lists of decimal digits, and decimal fractions: a whole number times a power of
ten. The digits of a number never begin with a zero, except that zero has the one digit zero.
-/

namespace TextAdventure

/-- The number `digits · 10 ^ exponent`. -/
structure Decimal where
  digits : Nat
  exponent : Int
  deriving DecidableEq, Repr

namespace Decimal

/-- A number below ten as a digit. -/
def digitChar (n : Nat) : Char := Char.ofNat (n + 48)

/-- The number that a digit stands for. -/
def digitValue (c : Char) : Nat := c.toNat - 48

/-- The decimal digits of a number. -/
def digitList (n : Nat) : List Char :=
  if n < 10 then [digitChar n] else digitList (n / 10) ++ [digitChar (n % 10)]

/-- The number that a list of digits stands for, after others that stand for `start`. -/
def valueFrom (start : Nat) (ds : List Char) : Nat :=
  ds.foldl (fun n d => 10 * n + digitValue d) start

/-- The number that a list of digits stands for. -/
def valueOf (ds : List Char) : Nat := valueFrom 0 ds

/-- The decimal digits of an integer, after a minus sign if it is negative. -/
def integerList (n : Int) : List Char :=
  if n < 0 then '-' :: digitList n.natAbs else digitList n.natAbs

/-- An integer as a string. -/
def text (n : Int) : String := String.ofList (integerList n)

/-- Zeros at the end of the digits moved into the exponent, at most `fuel` of them. -/
def stripZeros : Nat → Decimal → Decimal
  | 0, d => d
  | fuel + 1, d =>
    if d.digits % 10 == 0 && d.digits != 0 then stripZeros fuel ⟨d.digits / 10, d.exponent + 1⟩
    else d

/-- The same number with as few digits as possible. -/
def strip (d : Decimal) : Decimal := stripZeros (digitList d.digits).length d

end Decimal

end TextAdventure
