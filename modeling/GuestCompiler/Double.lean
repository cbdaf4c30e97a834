/-!
# Doubles

Whole numbers as 64-bit floating point holds them: 53 significant bits, and magnitudes below a
bound. Rounding goes to the nearest such number.
-/
namespace GuestCompiler.Double

/-- The distance of the doubles around a whole number: the least power of two that leaves no more
than 53 significant bits. -/
def spacing (n : Nat) : Nat := Nat.pow 2 (n.log2 + 1 - 53)

/-- The double nearest to a whole number; a half goes to the even neighbour. -/
def nearest (n : Nat) : Nat :=
  let below := n / spacing n
  let rest := n % spacing n
  if 2 * rest < spacing n ∨ 2 * rest = spacing n ∧ below % 2 = 0 then below * spacing n
  else (below + 1) * spacing n

/-- The least whole number too great to round to a double: half way from the greatest one to where
the next would be. -/
def bound : Nat := Nat.pow 2 1024 - Nat.pow 2 970

/-- A number of no more than 53 bits is a double itself. -/
theorem nearest_of_lt {n : Nat} (h : n < 9007199254740992) : nearest n = n := by
  have hlog : n.log2 < 53 := by
    by_cases hn : n = 0
    · subst hn; decide
    · exact (Nat.log2_lt hn).2 h
  have hs : spacing n = 1 := by
    rw [spacing, Nat.sub_eq_zero_of_le hlog]
  simp [nearest, hs, Nat.mod_one]

end GuestCompiler.Double
