/-!
# The Keccak permutation

Twenty-five lanes of 64 bits, lane `x + 5 * y` in column `x` of row `y`, and the permutation of 24
rounds on them.
-/
namespace GuestCompiler.Keccak

abbrev State := Vector UInt64 25

def State.zero : State := Vector.replicate 25 0

/-- The lane in a column and a row, both counted round the sheet. -/
def lane (s : State) (x y : Nat) : UInt64 :=
  s.get ⟨x % 5 + 5 * (y % 5), by omega⟩

def rotate (w : UInt64) (n : Nat) : UInt64 :=
  if n = 0 then w else (w <<< n.toUInt64) ||| (w >>> (64 - n).toUInt64)

def parity (s : State) (x : Nat) : UInt64 :=
  lane s x 0 ^^^ lane s x 1 ^^^ lane s x 2 ^^^ lane s x 3 ^^^ lane s x 4

def theta (s : State) : State :=
  let columns := Vector.ofFn fun x : Fin 5 =>
    parity s (x.val + 4) ^^^ rotate (parity s (x.val + 1)) 1
  Vector.ofFn fun i : Fin 25 => s.get i ^^^ columns.get ⟨i.val % 5, by omega⟩

/-- How far each lane turns. -/
def offsets : Vector Nat 25 := #v[
  0, 1, 62, 28, 27,
  36, 44, 6, 55, 20,
  3, 10, 43, 25, 39,
  41, 45, 15, 21, 8,
  18, 2, 61, 56, 14]

/-- Turn every lane and move it to its new place. -/
def rhoPi (s : State) : State :=
  Vector.ofFn fun i : Fin 25 =>
    let x := i.val % 5
    let y := i.val / 5
    let from_ : Fin 25 := ⟨(x + 3 * y) % 5 + 5 * x, by omega⟩
    rotate (s.get from_) (offsets.get from_)

def chi (s : State) : State :=
  Vector.ofFn fun i : Fin 25 =>
    let x := i.val % 5
    let y := i.val / 5
    s.get i ^^^ (~~~(lane s (x + 1) y) &&& lane s (x + 2) y)

def roundConstants : List UInt64 := [
  0x0000000000000001, 0x0000000000008082, 0x800000000000808A, 0x8000000080008000,
  0x000000000000808B, 0x0000000080000001, 0x8000000080008081, 0x8000000000008009,
  0x000000000000008A, 0x0000000000000088, 0x0000000080008009, 0x000000008000000A,
  0x000000008000808B, 0x800000000000008B, 0x8000000000008089, 0x8000000000008003,
  0x8000000000008002, 0x8000000000000080, 0x000000000000800A, 0x800000008000000A,
  0x8000000080008081, 0x8000000000008080, 0x0000000080000001, 0x8000000080008008]

def round (s : State) (constant : UInt64) : State :=
  let s := chi (rhoPi (theta s))
  s.set 0 (s.get 0 ^^^ constant)

def permute (s : State) : State := roundConstants.foldl round s

end GuestCompiler.Keccak
