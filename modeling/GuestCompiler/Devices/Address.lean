import GuestCompiler.NameMap

/-!
# Ids, addresses and boot positions

Devices are named by family and number, and placed by position: the functions of the root complex
are given out eight to a slot, from slot 1 on.
-/
namespace GuestCompiler

/-- How many ids each family has given out. -/
abbrev FamilyCounts := NameMap Nat

namespace FamilyCounts

def count (c : FamilyCounts) (family : String) : Nat := (c.get? family).getD 0

def next (c : FamilyCounts) (family : String) : String := family ++ "." ++ toString (c.count family)

def advance (c : FamilyCounts) (family : String) : FamilyCounts :=
  c.insert family (c.count family + 1)

end FamilyCounts

structure PciAddress where
  slot : Nat
  function : Nat
  deriving DecidableEq

namespace PciAddress

def functionsPerSlot : Nat := 8

/-- The place of the device of a number, from 0. -/
def ofIndex (n : Nat) : PciAddress := ⟨n / functionsPerSlot + 1, n % functionsPerSlot⟩

/-- The slot is written in hexadecimal digits. -/
def text (a : PciAddress) : String :=
  String.ofList (Nat.toDigits 16 a.slot) ++ "." ++ toString a.function

end PciAddress

/-- How many boot positions have been given out; the first one is 1. -/
structure BootOrder where
  used : Nat := 0
  deriving DecidableEq

end GuestCompiler
