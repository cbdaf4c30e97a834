import GuestCompiler.Json.Value
import GuestCompiler.Text.Hex
import GuestCompiler.Text.Utf8

/-!
# Reading JSON

The reader takes bytes off the front of a text and never fails: where the text stops being JSON it
writes `Value.broken` and gives up the rest.
-/
namespace GuestCompiler.Json

/-- A piece of a quoted text: a byte as it stands, or the number of a `\u` escape. -/
inductive Piece
  | byte (b : UInt8)
  | unit (n : Nat)

def isBlank (b : UInt8) : Bool := b == 32 || b == 9 || b == 10 || b == 13

def skipBlanks (s : List UInt8) : List UInt8 := s.dropWhile isBlank

def hexValue? (b : UInt8) : Option Nat := Text.Hex.value? (Char.ofNat b.toNat)

def fourDigits? (a b c d : UInt8) : Option Nat := do
  let a ← hexValue? a
  let b ← hexValue? b
  let c ← hexValue? c
  let d ← hexValue? d
  return ((a * 16 + b) * 16 + c) * 16 + d

def escaped? (b : UInt8) : Option UInt8 :=
  if b = 34 ∨ b = 92 ∨ b = 47 then some b
  else if b = 98 then some 8
  else if b = 102 then some 12
  else if b = 110 then some 10
  else if b = 114 then some 13
  else if b = 116 then some 9
  else none

/-- The pieces up to the closing quote, and what follows it. -/
def pieces : List UInt8 → Option (List Piece × List UInt8)
  | [] => none
  | 34 :: rest => some ([], rest)
  | 92 :: 117 :: a :: b :: c :: d :: rest => do
    let n ← fourDigits? a b c d
    let (ps, after) ← pieces rest
    return (.unit n :: ps, after)
  | 92 :: e :: rest => do
    let b ← escaped? e
    let (ps, after) ← pieces rest
    return (.byte b :: ps, after)
  | b :: rest =>
    if b < 32 then none else (pieces rest).map fun (ps, after) => (.byte b :: ps, after)

def isHigh (n : Nat) : Bool := 0xD800 ≤ n && n < 0xDC00

def isLow (n : Nat) : Bool := 0xDC00 ≤ n && n < 0xE000

/-- The bytes of a quoted text; half a surrogate pair has none. -/
def denoted : List Piece → Option (List UInt8)
  | [] => some []
  | .byte b :: rest => (denoted rest).map (b :: ·)
  | .unit h :: .unit l :: rest =>
    if isHigh h && isLow l then
      let c := Char.ofNat (0x10000 + (h - 0xD800) * 0x400 + (l - 0xDC00))
      (denoted rest).map (String.utf8EncodeChar c ++ ·)
    else if isHigh h || isLow h then none
    else (denoted (.unit l :: rest)).map (String.utf8EncodeChar (Char.ofNat h) ++ ·)
  | .unit n :: rest =>
    if isHigh n || isLow n then none
    else (denoted rest).map (String.utf8EncodeChar (Char.ofNat n) ++ ·)

/-- A quoted text after its opening quote. -/
def readText (s : List UInt8) : Option (Option String × List UInt8) :=
  (pieces s).map fun (ps, after) => (denoted ps >>= Text.ofUtf8?, after)

def isDigit (b : UInt8) : Bool := 48 ≤ b && b ≤ 57

def digitValue (b : UInt8) : Nat := b.toNat - 48

/-- Digits at the head of a text, at least one, and what follows them. -/
def readDigits (s : List UInt8) : Option (List Nat × List UInt8) :=
  match s.takeWhile isDigit with
  | [] => none
  | digits => some (digits.map digitValue, s.dropWhile isDigit)

/-- Digits before the point: one zero, or digits that begin with no zero. -/
def readWhole : List UInt8 → Option (List Nat × List UInt8)
  | 48 :: rest => if rest.head?.any isDigit then none else some ([0], rest)
  | s => readDigits s

/-- The digits after a point, none where there is no point. -/
def readFraction : List UInt8 → Option (List Nat × List UInt8)
  | 46 :: rest => readDigits rest
  | s => some ([], s)

def decimal (digits : List Nat) : Nat := digits.foldl (fun n d => 10 * n + d) 0

def readExponent : List UInt8 → Option (Option Int × List UInt8)
  | e :: rest =>
    if e = 101 ∨ e = 69 then
      match rest with
      | 43 :: rest => (readDigits rest).map fun (ds, after) => (some ↑(decimal ds), after)
      | 45 :: rest => (readDigits rest).map fun (ds, after) => (some (-↑(decimal ds)), after)
      | rest => (readDigits rest).map fun (ds, after) => (some ↑(decimal ds), after)
    else some (none, e :: rest)
  | [] => some (none, [])

def readNumber (s : List UInt8) : Option (Number × List UInt8) := do
  let negative := s.head? == some 45
  let (whole, s) ← readWhole (if negative then s.drop 1 else s)
  let (fraction, s) ← readFraction s
  let (exponent, s) ← readExponent s
  return (.ofDigits negative whole fraction exponent, s)

def readScalar : List UInt8 → Value × Option (List UInt8)
  | 110 :: 117 :: 108 :: 108 :: rest => (.null, some rest)
  | 116 :: 114 :: 117 :: 101 :: rest => (.bool true, some rest)
  | 102 :: 97 :: 108 :: 115 :: 101 :: rest => (.bool false, some rest)
  | 34 :: rest =>
    match readText rest with
    | some (s, after) => (.text s, some after)
    | none => (.broken, none)
  | s =>
    match readNumber s with
    | some (n, after) => (.number n, some after)
    | none => (.broken, none)

mutual

/-- A value and what follows it; nothing follows a value that breaks off. The first argument bounds
the depth of the calls. -/
def readValue : Nat → List UInt8 → Value × Option (List UInt8)
  | 0, _ => (.broken, none)
  | fuel + 1, s =>
    match skipBlanks s with
    | 91 :: rest =>
      match skipBlanks rest with
      | 93 :: after => (.array [], some after)
      | rest => let (items, after) := readItems fuel rest; (.array items, after)
    | 123 :: rest =>
      match skipBlanks rest with
      | 125 :: after => (.object [], some after)
      | rest => let (entries, after) := readEntries fuel rest; (.object entries, after)
    | s => readScalar s

def readItems : Nat → List UInt8 → List Value × Option (List UInt8)
  | 0, _ => ([.broken], none)
  | fuel + 1, s =>
    match readValue fuel s with
    | (v, none) => ([v], none)
    | (v, some s) =>
      match skipBlanks s with
      | 44 :: rest => let (vs, after) := readItems fuel rest; (v :: vs, after)
      | 93 :: after => ([v], some after)
      | _ => ([v, .broken], none)

def readEntries : Nat → List UInt8 → List (Option String × Value) × Option (List UInt8)
  | 0, _ => ([(none, .broken)], none)
  | fuel + 1, s =>
    match skipBlanks s with
    | 34 :: rest =>
      match readText rest with
      | none => ([(none, .broken)], none)
      | some (key, s) =>
        match skipBlanks s with
        | 58 :: rest =>
          match readValue fuel rest with
          | (v, none) => ([(key, v)], none)
          | (v, some s) =>
            match skipBlanks s with
            | 44 :: rest => let (es, after) := readEntries fuel rest; ((key, v) :: es, after)
            | 125 :: after => ([(key, v)], some after)
            | _ => ([(key, v), (none, .broken)], none)
        | _ => ([(key, .broken)], none)
    | _ => ([(none, .broken)], none)

end

/-- A text read as one value; `ends` when only blanks follow it. -/
structure Document where
  value : Value
  ends : Bool

def Document.ofBytes (bytes : List UInt8) : Document :=
  match readValue (2 * bytes.length + 2) bytes with
  | (v, some rest) => ⟨v, skipBlanks rest = []⟩
  | (v, none) => ⟨v, false⟩

def Document.ofString (text : String) : Document := .ofBytes (Text.utf8 text)

end GuestCompiler.Json
