import GuestCompiler.Identity.Octets
import GuestCompiler.Text.Hex

/-!
# Universally unique identifiers

Written as 32 lower-case digits in groups of 8, 4, 4, 4 and 12 with hyphens between. Read in any
letter case in four forms: the digits alone, the written form, the written form in braces, and the
written form after `urn:uuid:`.
-/
namespace GuestCompiler

structure Uuid where
  octets : Octets 16
  deriving DecidableEq

namespace Uuid

def nil : Uuid := ⟨Octets.zero 16⟩

instance : Inhabited Uuid := ⟨nil⟩

def isNil (u : Uuid) : Bool := u == nil

def hyphenate (digits : List Char) : List Char :=
  digits.take 8 ++ '-' :: ((digits.drop 8).take 4 ++ '-' :: ((digits.drop 12).take 4 ++
    '-' :: ((digits.drop 16).take 4 ++ '-' :: digits.drop 20)))

def toString (u : Uuid) : String :=
  String.ofList (hyphenate (Text.Hex.encode Text.Hex.lower u.octets.toList))

instance : ToString Uuid := ⟨toString⟩

def ofDigits? (digits : List Char) : Option Uuid := do
  let bytes ← Text.Hex.decode? digits
  let octets ← Octets.ofList? 16 bytes
  return ⟨octets⟩

/-- Hyphens stand after the groups and nowhere else. -/
def ofHyphenated? (cs : List Char) : Option Uuid :=
  let digits := cs.filter (· ≠ '-')
  if hyphenate digits = cs then ofDigits? digits else none

def urn : List Char := "urn:uuid:".toList

def parse? (text : String) : Option Uuid :=
  let cs := text.toList
  match cs.length with
  | 32 => ofDigits? cs
  | 36 => ofHyphenated? cs
  | 38 =>
    if cs.head? = some '\x7b' ∧ cs.getLast? = some '\x7d' then ofHyphenated? (cs.drop 1).dropLast
    else none
  | 45 => if (cs.take 9).map Char.toLower = urn then ofHyphenated? (cs.drop 9) else none
  | _ => none

end Uuid

end GuestCompiler
