/-!
# Base-32 with the extended hexadecimal alphabet

Five bits a character, over the digits and the letters `A` to `V`, without padding: the last
character holds what bits remain, filled with zeros on the right.
-/
namespace GuestCompiler.Text.Base32Hex

def digit (n : Nat) : Char := Char.ofNat (if n < 10 then n + 48 else n + 55)

def bitsOfByte (b : UInt8) : List Bool := (List.range 8).map fun i => b.toNat.testBit (7 - i)

def bits (bytes : List UInt8) : List Bool := bytes.flatMap bitsOfByte

def number (bs : List Bool) : Nat := bs.foldl (fun n b => 2 * n + b.toNat) 0

/-- Bits cut into groups of five, the last one filled up with zeros. -/
def groups : List Bool → List (List Bool)
  | [] => []
  | a :: b :: c :: d :: e :: rest => [a, b, c, d, e] :: groups rest
  | few => [(few ++ List.replicate 5 false).take 5]

def encode (bytes : List UInt8) : List Char := (groups (bits bytes)).map fun g => digit (number g)

end GuestCompiler.Text.Base32Hex
