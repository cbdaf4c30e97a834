import GuestCompiler.Identity.Octets
import GuestCompiler.Text.Hex

/-!
# Hardware addresses

Six octets, written as pairs of lower-case digits with colons between. Read as six parts of two
bytes each, with a colon or a hyphen between; a part is two digits, or a plus sign and a digit.
-/
namespace GuestCompiler

structure MacAddress where
  octets : Octets 6
  deriving DecidableEq

namespace MacAddress

def toString (m : MacAddress) : String :=
  String.ofList ([':'].intercalate (m.octets.toList.map fun b => Text.Hex.encode Text.Hex.lower [b]))

instance : ToString MacAddress := ⟨toString⟩

/-- The parts between separators; there is always one more part than separators. -/
def parts : List Char → List (List Char)
  | [] => [[]]
  | c :: rest =>
    if c = ':' ∨ c = '-' then [] :: parts rest
    else
      match parts rest with
      | part :: more => (c :: part) :: more
      | [] => [[c]]

def ofPart? : List Char → Option UInt8
  | ['+', lo] => (Text.Hex.value? lo).map UInt8.ofNat
  | [hi, lo] => do
    let h ← Text.Hex.value? hi
    let l ← Text.Hex.value? lo
    return UInt8.ofNat (16 * h + l)
  | _ => none

def parse? (text : String) : Option MacAddress := do
  let bytes ← (parts text.toList).mapM ofPart?
  let octets ← Octets.ofList? 6 bytes
  return ⟨octets⟩

end MacAddress

end GuestCompiler
