import GuestCompiler.Identity.Octets
import GuestCompiler.Text.Hex

/-!
# World Wide Names

A name of 64 or 128 bits, written as `0x` and upper-case digits. Its first digit is its network
address authority, which fixes its length.
-/
namespace GuestCompiler

inductive Wwn
  | w64 (octets : Octets 8)
  | w128 (octets : Octets 16)
  deriving DecidableEq

namespace Wwn

inductive Fault
  | oddLength
  | badCharacter (byte : UInt8) (position : Nat)
  | noBytes
  | unknownAuthority (naa : Nat)
  | wrongLength (naa wanted got : Nat)
  deriving DecidableEq

def bytes : Wwn → List UInt8
  | w64 o => o.toList
  | w128 o => o.toList

def size : Wwn → Nat
  | w64 _ => 64
  | w128 _ => 128

/-- The network address authority: the high half of the first byte. -/
def naa (w : Wwn) : Nat := (w.bytes.headD 0).toNat / 16

def toString (w : Wwn) : String := String.ofList ('0' :: 'x' :: Text.Hex.encode Text.Hex.upper w.bytes)

instance : ToString Wwn := ⟨toString⟩

/-- The bytes that a name of some authority has. -/
def wanted? (naa : Nat) : Option Nat :=
  if naa = 6 then some 16
  else if naa = 1 ∨ naa = 2 ∨ naa = 5 ∨ 12 ≤ naa ∧ naa ≤ 15 then some 8
  else none

/-- What is left of a text without its colons and then one leading `0x` or `0X`. -/
def digitsOf (cs : List Char) : List Char :=
  match cs.filter (· ≠ ':') with
  | '0' :: 'x' :: rest => rest
  | '0' :: 'X' :: rest => rest
  | rest => rest

def digitOfByte? (b : UInt8) : Option Nat := Text.Hex.value? (Char.ofNat b.toNat)

/-- The bytes that pairs of digits write, or the first byte of text that is no digit. -/
def decode : Nat → List UInt8 → Except Fault (List UInt8)
  | _, [] => .ok []
  | _, [_] => .error .oddLength
  | i, hi :: lo :: rest =>
    match digitOfByte? hi, digitOfByte? lo with
    | none, _ => .error (.badCharacter hi i)
    | _, none => .error (.badCharacter lo (i + 1))
    | some h, some l => (decode (i + 2) rest).map (UInt8.ofNat (16 * h + l) :: ·)

def ofBytes (bytes : List UInt8) : Except Fault Wwn :=
  match bytes with
  | [] => .error .noBytes
  | first :: _ =>
    let naa := first.toNat / 16
    match wanted? naa with
    | none => .error (.unknownAuthority naa)
    | some wanted =>
      if h : bytes.length = 16 ∧ wanted = 16 then .ok (.w128 ⟨bytes, h.1⟩)
      else if h : bytes.length = 8 ∧ wanted = 8 then .ok (.w64 ⟨bytes, h.1⟩)
      else .error (.wrongLength naa wanted bytes.length)

def parse (text : String) : Except Fault Wwn :=
  let digits := (digitsOf text.toList).flatMap String.utf8EncodeChar
  if digits.length % 2 = 1 then .error .oddLength else decode 0 digits >>= ofBytes

end Wwn

end GuestCompiler
