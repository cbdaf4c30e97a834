import GuestCompiler.Double

/-!
# Numbers as written

A number by its digits: a whole number of 64 bits and a power of ten. Digits that the 64 bits have no
room for only count as places.
-/
namespace GuestCompiler.Json

/-- The decimal `mantissa * 10 ^ exponent`; `integral` when written as digits alone, and all of them
kept. -/
structure Number where
  negative : Bool
  mantissa : Nat
  exponent : Int
  integral : Bool
  deriving DecidableEq

namespace Number

def ofNat (n : Nat) : Number := ⟨false, n, 0, true⟩

/-- The bound that mantissas stay below. -/
def mantissaBound : Nat := 18446744073709551616

/-- Digits put behind a mantissa as long as there is room, and those left over. -/
def extend (n : Nat) : List Nat → Nat × List Nat
  | [] => (n, [])
  | d :: rest =>
    if 10 * n + d < mantissaBound then extend (10 * n + d) rest else (n, d :: rest)

/-- The number with some digits before the point, some after it and an exponent. -/
def ofDigits (negative : Bool) (whole fraction : List Nat) (exponent : Option Int) : Number :=
  let (n, surplus) := extend 0 whole
  let (mantissa, dropped) := extend n fraction
  let places := fraction.length - dropped.length
  ⟨negative, mantissa, exponent.getD 0 + surplus.length - places,
    surplus.isEmpty && fraction.isEmpty && exponent.isNone⟩

/-- The natural number that plain digits write; a sign, a point, an exponent or a digit left out makes
it none. -/
def toNat? (n : Number) : Option Nat :=
  if n.integral ∧ n.negative = false then some n.mantissa else none

/-- The exponent of the greatest power of ten among the doubles. -/
def maxExponent : Int := 308

/-- Whether a number has a finite value. It is taken as a product of two doubles, the mantissa and
the power of ten, and rounding each of them can carry the product over the bound or keep it below. -/
def isFinite (n : Number) : Bool :=
  n.mantissa = 0 || n.exponent < 0 ||
    n.exponent ≤ maxExponent &&
      Double.nearest n.mantissa * Double.nearest (Nat.pow 10 n.exponent.toNat) < Double.bound

end Number

end GuestCompiler.Json
