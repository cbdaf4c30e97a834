import GuestCompiler.Identity.Keccak
import GuestCompiler.Identity.Octets

/-!
# SHAKE128

The extendable-output function over the Keccak permutation: a message is padded and absorbed in
blocks of 168 bytes, and any number of bytes is squeezed out. A longer output begins with the
shorter one.
-/
namespace GuestCompiler.Shake128

/-- The bytes that a block takes in or gives out. -/
def rate : Nat := 168

/-- The lane that eight bytes write, lowest first. -/
def laneOfBytes (bytes : List UInt8) : UInt64 :=
  bytes.foldr (fun b w => (w <<< 8) ||| b.toUInt64) 0

def bytesOfLane (w : UInt64) : List UInt8 :=
  (List.range 8).map fun i => (w >>> (8 * i).toUInt64).toUInt8

/-- A message with the domain bits of the function and the closing bit, up to the end of a block. -/
def pad (message : List UInt8) : List UInt8 :=
  let gap := rate - message.length % rate
  if gap = 1 then message ++ [0x9F] else message ++ 0x1F :: (List.replicate (gap - 2) 0 ++ [0x80])

def blocks (bytes : List UInt8) : List (List UInt8) :=
  (List.range (bytes.length / rate)).map fun i => (bytes.drop (rate * i)).take rate

def absorbBlock (s : Keccak.State) (block : List UInt8) : Keccak.State :=
  Keccak.permute (Vector.ofFn fun i : Fin 25 =>
    s.get i ^^^ laneOfBytes ((block.drop (8 * i.val)).take 8))

def absorb (message : List UInt8) : Keccak.State :=
  (blocks (pad message)).foldl absorbBlock Keccak.State.zero

def blockOf (s : Keccak.State) : List UInt8 := (s.toList.take 21).flatMap bytesOfLane

/-- The bytes of some number of blocks. -/
def squeeze : Nat → Keccak.State → List UInt8
  | 0, _ => []
  | n + 1, s => blockOf s ++ squeeze n (Keccak.permute s)

def hash (message : List UInt8) (n : Nat) : Octets n :=
  .take n (squeeze ((n + rate - 1) / rate) (absorb message))

end GuestCompiler.Shake128
