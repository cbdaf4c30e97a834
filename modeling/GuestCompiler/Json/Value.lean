import GuestCompiler.Json.Number

/-!
# JSON values

A value as it was written: the entries of an object in the order of the text, repeated keys
included, and a number by its digits. Two parts of a text may be less than JSON. A quoted text that
ends in its place but denotes no characters (half a surrogate pair, bytes that are not UTF-8) is
`none`. Where a text stops being JSON at all, the value holds `broken` in the place where the next
value should be, so that whatever reads a value in order meets the break at its place.
-/
namespace GuestCompiler.Json

inductive Value
  | null
  | bool (b : Bool)
  | number (n : Number)
  | text (s : Option String)
  | array (items : List Value)
  | object (entries : List (Option String × Value))
  | broken

namespace Value

def ofString (s : String) : Value := .text (some s)

def ofNat (n : Nat) : Value := .number (.ofNat n)

def ofEntries (entries : List (String × Value)) : Value :=
  .object (entries.map fun e => (some e.1, e.2))

mutual

/-- Whether a text goes on to the end of this value. -/
def isWhole : Value → Bool
  | .array items => areWhole items
  | .object entries => entriesAreWhole entries
  | .broken => false
  | _ => true

def areWhole : List Value → Bool
  | [] => true
  | v :: rest => isWhole v && areWhole rest

def entriesAreWhole : List (Option String × Value) → Bool
  | [] => true
  | (_, v) :: rest => isWhole v && entriesAreWhole rest

end

mutual

/-- Whether a value can be kept: whole, every text one of characters, every number finite, and no
deeper than the limit. -/
def isSound : Nat → Value → Bool
  | _, .number n => n.isFinite
  | _, .text s => s.isSome
  | depth + 1, .array items => areSound depth items
  | depth + 1, .object entries => entriesAreSound depth entries
  | 0, .array _ => false
  | 0, .object _ => false
  | _, .broken => false
  | _, _ => true

def areSound : Nat → List Value → Bool
  | _, [] => true
  | depth, v :: rest => isSound depth v && areSound depth rest

def entriesAreSound : Nat → List (Option String × Value) → Bool
  | _, [] => true
  | depth, (k, v) :: rest => k.isSome && isSound depth v && entriesAreSound depth rest

end

end Value

end GuestCompiler.Json
