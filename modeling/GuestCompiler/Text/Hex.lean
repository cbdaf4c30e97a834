/-!
# Hexadecimal digits

Digits are read in either case and written in the case asked for; bytes are two digits each, high
nibble first.
-/
namespace GuestCompiler.Text.Hex

def lower (n : Nat) : Char := Char.ofNat (if n < 10 then n + 48 else n + 87)

def upper (n : Nat) : Char := Char.ofNat (if n < 10 then n + 48 else n + 55)

def value? (c : Char) : Option Nat :=
  let n := c.toNat
  if 48 ≤ n ∧ n ≤ 57 then some (n - 48)
  else if 65 ≤ n ∧ n ≤ 70 then some (n - 55)
  else if 97 ≤ n ∧ n ≤ 102 then some (n - 87)
  else none

theorem value?_lower : ∀ n < 16, value? (lower n) = some n := by decide

theorem value?_upper : ∀ n < 16, value? (upper n) = some n := by decide

theorem value?_lt {c : Char} {n : Nat} (h : value? c = some n) : n < 16 := by
  simp only [value?] at h
  repeat' split at h
  all_goals simp at h
  all_goals omega

/-- Two digits a byte. -/
def encode (digit : Nat → Char) (bytes : List UInt8) : List Char :=
  bytes.flatMap fun b => [digit (b.toNat / 16), digit (b.toNat % 16)]

/-- The bytes of an even number of digits; nothing for any other text. -/
def decode? : List Char → Option (List UInt8)
  | [] => some []
  | [_] => none
  | hi :: lo :: rest => do
    let h ← value? hi
    let l ← value? lo
    let bytes ← decode? rest
    return UInt8.ofNat (16 * h + l) :: bytes

theorem decode?_encode {digit : Nat → Char} (hd : ∀ n < 16, value? (digit n) = some n)
    (bytes : List UInt8) : decode? (encode digit bytes) = some bytes := by
  induction bytes with
  | nil => rfl
  | cons b rest ih =>
    have hb := b.toNat_lt
    have hval : UInt8.ofNat (16 * (b.toNat / 16) + b.toNat % 16) = b := by
      rw [Nat.div_add_mod, UInt8.ofNat_toNat]
    simp only [encode, List.flatMap_cons, List.cons_append, List.nil_append, decode?]
    rw [hd _ (by omega), hd _ (by omega)]
    change (do let bytes ← decode? (encode digit rest); return _) = _
    rw [ih]
    simp [hval]

end GuestCompiler.Text.Hex
