import GuestCompiler.Text.Utf8

/-!
# Octet strings

Byte strings of a length fixed by their type, the form of every hardware identity.
-/
namespace GuestCompiler

structure Octets (n : Nat) where
  toList : List UInt8
  length_toList : toList.length = n
  deriving DecidableEq

namespace Octets

variable {n : Nat}

def ofList? (n : Nat) (bytes : List UInt8) : Option (Octets n) :=
  if h : bytes.length = n then some ⟨bytes, h⟩ else none

def zero (n : Nat) : Octets n := ⟨List.replicate n 0, List.length_replicate⟩

/-- The first `n` bytes, filled up with zeros. -/
def take (n : Nat) (bytes : List UInt8) : Octets n :=
  ⟨(bytes ++ List.replicate n 0).take n, by simp⟩

/-- The string with its byte at one place changed. -/
def modify (o : Octets n) (i : Nat) (f : UInt8 → UInt8) : Octets n :=
  ⟨o.toList.modify i f, by rw [List.length_modify, o.length_toList]⟩

def bits (o : Octets n) : Nat := Text.ofBigEndian o.toList

end Octets

end GuestCompiler
