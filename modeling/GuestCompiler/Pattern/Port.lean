import GuestCompiler.Pattern.Basic
import GuestCompiler.Text.Blank

/-!
# Ports from patterns

The expansion of a port pattern is a decimal numeral with an optional sign and blanks around it. It
has to be a 64-bit number and then a port, from 1 to 65535.
-/
namespace GuestCompiler.Pattern

inductive PortFault
  | empty
  | invalidDigit
  | tooLarge
  | tooSmall
  | outOfRange (value : Int)
  deriving DecidableEq

def digit? (c : Char) : Option Nat :=
  if 48 ≤ c.toNat ∧ c.toNat ≤ 57 then some (c.toNat - 48) else none

/-- The number that some digits write, read from the left onto those read before; it has to stay
within the limit after every digit. -/
def magnitude (limit : Nat) (overflow : PortFault) : Nat → List Char → Except PortFault Nat
  | n, [] => .ok n
  | n, c :: rest =>
    match digit? c with
    | none => .error .invalidDigit
    | some d =>
      if 10 * n + d ≤ limit then magnitude limit overflow (10 * n + d) rest else .error overflow

/-- The greatest signed 64-bit number; the least one lies one further from zero. -/
def maxInteger : Nat := 9223372036854775807

def readInteger (cs : List Char) : Except PortFault Int :=
  match cs with
  | [] => .error .empty
  | ['+'] => .error .invalidDigit
  | ['-'] => .error .invalidDigit
  | '-' :: digits => (magnitude (maxInteger + 1) .tooSmall 0 digits).map fun n => -Int.ofNat n
  | '+' :: digits => (magnitude maxInteger .tooLarge 0 digits).map Int.ofNat
  | digits => (magnitude maxInteger .tooLarge 0 digits).map Int.ofNat

def readPort (text : String) : Except PortFault Nat := do
  let value ← readInteger (Text.trim text.toList)
  if 1 ≤ value ∧ value ≤ 65535 then return value.toNat else throw (.outOfRange value)

def expandPort (lookup : String → String) (pattern : String) : Except PortFault Nat :=
  readPort (expand lookup pattern)

def PortFault.message : PortFault → String
  | empty => "cannot parse integer from empty string"
  | invalidDigit => "invalid digit found in string"
  | tooLarge => "number too large to fit in target type"
  | tooSmall => "number too small to fit in target type"
  | outOfRange value => s!"invalid resulting port number {value}"

end GuestCompiler.Pattern
