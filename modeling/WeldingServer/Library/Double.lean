import Mathlib.Algebra.Group.Nat.Defs
import Mathlib.Data.Rat.Defs

/-!
# Doubles

A `double` is represented by its exact value.  The doubles here are those that a number in
a JSON text can become, so there is no NaN, and the two zeros are not told apart.

An integer of any size becomes the nearest double, and of two nearest ones that with the
even significand (`ofInt`).  A double becomes an `int` by cutting off the fraction and
keeping to the range (`intValue`).
-/

/-- A `double`, by its exact value. -/
inductive Double where
  | finite (value : Rat)
  | infinite (negative : Bool)
deriving DecidableEq

namespace Double

/-- The nearest number with a significand of 53 bits. -/
def roundNat (n : Nat) : Nat :=
  if n < 2 ^ 53 then n
  else
    let unit := 2 ^ (n.log2 - 52)
    let q := n / unit
    let r := n % unit
    if 2 * r < unit ∨ 2 * r = unit ∧ q % 2 = 0 then q * unit else (q + 1) * unit

/-- `doubleValue()` of an integer; a number of more than 1024 bits is infinite. -/
def ofInt (n : Int) : Double :=
  if (roundNat n.natAbs).log2 < 1024 then .finite (n.sign * roundNat n.natAbs : Int)
  else .infinite (n < 0)

/-- `intValue()` of a double. -/
def intValue : Double → Int32
  | .finite v => Int32.ofIntClamp (v.num.tdiv v.den)
  | .infinite negative => if negative then Int32.minValue else Int32.maxValue

/-- `d >= n` -/
def atLeast (n : Nat) : Double → Bool
  | .finite v => decide ((n : Rat) ≤ v)
  | .infinite negative => !negative

example : ofInt (2 ^ 53 + 1) = .finite (2 ^ 53) := by decide +kernel

end Double
