import GuestCompiler.Text.Base32Hex
import Mathlib.Data.List.Forall2

/-!
# Bytes as bits

Bits are written highest first, those of a number in a width of their own. A mask on a byte puts
fixed bits over its first ones (`bits_modify`), and changes side by side are one change
(`overlay_overlay`). Text in base 32 is read back by its alphabet, five bits a character: it writes
the bits of the bytes and fewer than five zeros after them (`Base32Hex.writes_encode`), so that the
bytes can be told from it.
-/
namespace GuestCompiler.Text

open Base32Hex

/-- The lowest bits of a number, highest first. -/
def bitsOf (width n : Nat) : List Bool := (List.range width).map fun i => n.testBit (width - 1 - i)

/-- Bits with others put in their place from some position on. -/
def overlay (start : Nat) (field bs : List Bool) : List Bool :=
  bs.take start ++ field ++ bs.drop (start + field.length)

section Overlays

variable {start : Nat} {field more bs : List Bool}

@[simp] theorem overlay_zero : overlay 0 field bs = field ++ bs.drop field.length := by
  rw [overlay, List.take_zero, List.nil_append, Nat.zero_add]

theorem length_overlay_zero : (overlay 0 field bs).length = max field.length bs.length := by
  rw [overlay_zero, List.length_append, List.length_drop]
  omega

/-- Bits in front are not touched. -/
theorem overlay_append (start : Nat) (field front bs : List Bool) :
    overlay (front.length + start) field (front ++ bs) = front ++ overlay start field bs := by
  have htake : (front ++ bs).take (front.length + start) = front ++ bs.take start :=
    List.take_length_add_append start
  have hdrop : (front ++ bs).drop (front.length + start + field.length) =
      bs.drop (start + field.length) := by
    rw [Nat.add_assoc, List.drop_append, List.drop_eq_nil_of_le (by omega), List.nil_append,
      Nat.add_sub_cancel_left]
  rw [overlay, htake, hdrop, overlay, List.append_assoc, List.append_assoc, List.append_assoc]

/-- Two changes side by side are one. -/
theorem overlay_overlay (h : start + field.length ≤ bs.length) :
    overlay (start + field.length) more (overlay start field bs) =
      overlay start (field ++ more) bs := by
  have hfront : (bs.take start ++ field).length = start + field.length := by
    rw [List.length_append, List.length_take, Nat.min_eq_left (by omega)]
  have hbehind : (bs.drop (start + field.length)).drop more.length =
      bs.drop (start + (field ++ more).length) := by
    rw [List.drop_drop, List.length_append, Nat.add_assoc]
  have hsplit := overlay_append 0 more (bs.take start ++ field) (bs.drop (start + field.length))
  rw [Nat.add_zero, hfront] at hsplit
  change overlay (start + field.length) more _ = _ at hsplit
  rw [overlay.eq_def start field bs, hsplit, overlay_zero, hbehind, overlay, List.append_assoc,
    List.append_assoc, List.append_assoc]

end Overlays

section Bytes

@[simp] theorem length_bitsOf (width n : Nat) : (bitsOf width n).length = width := by
  rw [bitsOf, List.length_map, List.length_range]

@[simp] theorem length_bitsOfByte (b : UInt8) : (bitsOfByte b).length = 8 := length_bitsOf 8 b.toNat

@[simp] theorem bits_cons (b : UInt8) (bytes : List UInt8) :
    bits (b :: bytes) = bitsOfByte b ++ bits bytes := List.flatMap_cons

theorem length_bits (bytes : List UInt8) : (bits bytes).length = 8 * bytes.length := by
  induction bytes with
  | nil => rfl
  | cons b bytes ih =>
    rw [bits_cons, List.length_append, length_bitsOfByte, ih, List.length_cons]
    omega

/-- A byte whose first bits are set by a mask has the others as they are. -/
theorem bits_modify (bytes : List UInt8) (i : Nat) {f : UInt8 → UInt8} {field : List Bool}
    (hf : ∀ b, bitsOfByte (f b) = overlay 0 field (bitsOfByte b)) (hi : i < bytes.length) :
    bits (bytes.modify i f) = overlay (8 * i) field (bits bytes) := by
  induction i generalizing bytes with
  | zero =>
    obtain ⟨b, bytes, rfl⟩ := List.exists_cons_of_length_pos hi
    have hlength := congrArg List.length (hf b)
    rw [length_overlay_zero, length_bitsOfByte, length_bitsOfByte] at hlength
    have hfit : field.length ≤ (bitsOfByte b).length := by
      rw [length_bitsOfByte]
      omega
    rw [List.modify_zero_cons, bits_cons, bits_cons, hf, Nat.mul_zero, overlay_zero, overlay_zero,
      List.drop_append_of_le_length hfit, List.append_assoc]
  | succ i ih =>
    obtain ⟨b, bytes, rfl⟩ := List.exists_cons_of_length_pos (Nat.zero_lt_of_lt hi)
    have hstart : 8 * (i + 1) = (bitsOfByte b).length + 8 * i := by
      rw [length_bitsOfByte]
      omega
    rw [List.modify_succ_cons, bits_cons, bits_cons, hstart, overlay_append,
      ih bytes (Nat.lt_of_succ_lt_succ hi)]

/-- What holds of the numbers of all bytes holds of all bytes. -/
theorem forall_byte {P : UInt8 → Prop} (h : ∀ n < 256, P (UInt8.ofNat n)) (b : UInt8) : P b := by
  have hb := h b.toNat b.toNat_lt
  rw [UInt8.ofNat_toNat] at hb
  exact hb

/-- Another byte in the place of one. -/
theorem bitsOfByte_const (c b : UInt8) : bitsOfByte c = overlay 0 (bitsOfByte c) (bitsOfByte b) := by
  have hlength : (bitsOfByte b).length ≤ (bitsOfByte c).length := by simp
  rw [overlay_zero, List.drop_eq_nil_of_le hlength, List.append_nil]

theorem bitsOfByte_low : ∀ b : UInt8,
    bitsOfByte (b &&& 0x0F) = overlay 0 (bitsOf 4 0) (bitsOfByte b) :=
  forall_byte (by decide +kernel)

theorem bitsOfByte_version : ∀ b : UInt8,
    bitsOfByte ((b &&& 0x0F) ||| 0x40) = overlay 0 (bitsOf 4 4) (bitsOfByte b) :=
  forall_byte (by decide +kernel)

theorem bitsOfByte_variant : ∀ b : UInt8,
    bitsOfByte ((b &&& 0x3F) ||| 0x80) = overlay 0 (bitsOf 2 2) (bitsOfByte b) :=
  forall_byte (by decide +kernel)

/-- A byte is known by its bits. -/
theorem bitsOfByte_injective : Function.Injective bitsOfByte := by
  intro b c h
  refine UInt8.toNat_inj.1 (Nat.eq_of_testBit_eq fun i => ?_)
  by_cases hi : i < 8
  · have hbit := congrArg (·[7 - i]?) h
    have hswap : 7 - (7 - i) = i := by omega
    have hlt : 7 - i < 8 := by omega
    simpa [bitsOfByte, hlt, hswap] using hbit
  · have hlarge : 2 ^ 8 ≤ 2 ^ i := Nat.pow_le_pow_right (by decide) (by omega)
    have hb := b.toNat_lt
    have hc := c.toNat_lt
    rw [Nat.testBit_lt_two_pow (by omega), Nat.testBit_lt_two_pow (by omega)]

theorem bits_injective : Function.Injective bits := by
  intro xs ys h
  induction xs generalizing ys with
  | nil =>
    have hlength := congrArg List.length h
    rw [length_bits, length_bits, List.length_nil] at hlength
    exact (List.eq_nil_of_length_eq_zero (by omega)).symm
  | cons x xs ih =>
    have hlength := congrArg List.length h
    rw [length_bits, length_bits, List.length_cons] at hlength
    obtain ⟨y, ys, rfl⟩ := List.exists_cons_of_length_pos (l := ys) (by omega)
    rw [bits_cons, bits_cons] at h
    obtain ⟨hbyte, hrest⟩ := List.append_inj h (by simp)
    rw [bitsOfByte_injective hbyte, ih hrest]

end Bytes

namespace Base32Hex

/-- The characters for the numbers of five bits. -/
def alphabet : List Char := "0123456789ABCDEFGHIJKLMNOPQRSTUV".toList

/-- Characters that write some bits, five each. -/
def Writes (cs : List Char) (bs : List Bool) : Prop :=
  ∃ ns, List.Forall₂ (fun c n => alphabet[n]? = some c) cs ns ∧ ns.flatMap (bitsOf 5) = bs

theorem alphabet_digit : ∀ n < 32, alphabet[n]? = some (digit n) := by decide

theorem nodup_alphabet : alphabet.Nodup := by decide

/-- From `0` to `9` or from `A` to `V`. -/
def InRange (c : Char) : Prop :=
  ('0'.toNat ≤ c.toNat ∧ c.toNat ≤ '9'.toNat) ∨ ('A'.toNat ≤ c.toNat ∧ c.toNat ≤ 'V'.toNat)

instance : DecidablePred InRange := fun _ => inferInstanceAs (Decidable (_ ∨ _))

theorem alphabet_range : ∀ c ∈ alphabet, InRange c := by
  have hall : alphabet.all (InRange ·) := by decide
  simpa using hall

theorem number_five : ∀ a b c d e : Bool,
    number [a, b, c, d, e] < 32 ∧ bitsOf 5 (number [a, b, c, d, e]) = [a, b, c, d, e] := by decide

/-- A group of five bits is the number of its character. -/
theorem number_of_length {g : List Bool} (h : g.length = 5) :
    number g < 32 ∧ bitsOf 5 (number g) = g := by
  match g, h with
  | [a, b, c, d, e], _ => exact number_five a b c d e

/-- The groups are the bits, with zeros to fill up the last one. -/
theorem exists_flatten_groups (bs : List Bool) : (∀ g ∈ groups bs, g.length = 5) ∧
    ∃ k < 5, (groups bs).flatten = bs ++ List.replicate k false := by
  fun_induction groups bs with
  | case1 => exact ⟨nofun, 0, by decide, rfl⟩
  | case2 a b c d e rest ih =>
    obtain ⟨hgroups, k, hk, hflatten⟩ := ih
    refine ⟨List.forall_mem_cons.2 ⟨rfl, hgroups⟩, k, hk, ?_⟩
    rw [List.flatten_cons, hflatten]
    rfl
  | case3 few hne hfew =>
    have hpos : 0 < few.length := List.length_pos_iff.2 hne
    have hlt : few.length < 5 := by
      rcases few with _ | ⟨a, _ | ⟨b, _ | ⟨c, _ | ⟨d, _ | ⟨e, rest⟩⟩⟩⟩⟩
      case cons.cons.cons.cons.cons => exact absurd rfl (hfew a b c d e rest)
      all_goals simp
    have hfilled : (few ++ List.replicate 5 false).take 5 =
        few ++ List.replicate (5 - few.length) false := by
      rw [List.take_append, List.take_of_length_le (by omega), List.take_replicate,
        Nat.min_eq_left (by omega)]
    refine ⟨?_, 5 - few.length, by omega, ?_⟩
    · rintro g hg
      rw [List.mem_singleton.1 hg, hfilled, List.length_append, List.length_replicate]
      omega
    · rw [List.flatten_singleton, hfilled]

/-- What is written is the bits of the bytes and zeros that fill up the last character. -/
theorem writes_encode (bytes : List UInt8) :
    ∃ k < 5, Writes (encode bytes) (bits bytes ++ List.replicate k false) := by
  obtain ⟨hgroups, k, hk, hflatten⟩ := exists_flatten_groups (bits bytes)
  refine ⟨k, hk, (groups (bits bytes)).map number, ?_, ?_⟩
  · rw [encode, List.forall₂_map_left_iff, List.forall₂_map_right_iff, List.forall₂_same]
    exact fun g hg => alphabet_digit _ (number_of_length (hgroups g hg)).1
  · rw [← hflatten, List.flatMap_map, List.flatMap_def]
    congr 1
    conv_rhs => rw [← List.map_id (groups (bits bytes))]
    exact List.map_congr_left fun g hg => (number_of_length (hgroups g hg)).2

namespace Writes

variable {cs : List Char} {bs bs' : List Bool}

theorem length_eq (h : Writes cs bs) : bs.length = 5 * cs.length := by
  obtain ⟨ns, hns, rfl⟩ := h
  rw [hns.length_eq, List.length_flatMap]
  simp [Nat.mul_comm]

theorem mem_alphabet (h : Writes cs bs) : ∀ c ∈ cs, c ∈ alphabet := by
  obtain ⟨ns, hns, -⟩ := h
  induction hns with
  | nil => exact nofun
  | cons hc _ ih => exact List.forall_mem_cons.2 ⟨List.mem_of_getElem? hc, ih⟩

/-- Characters write nothing else. -/
theorem bits_unique (h : Writes cs bs) (h' : Writes cs bs') : bs = bs' := by
  obtain ⟨ns, hns, rfl⟩ := h
  obtain ⟨ms, hms, rfl⟩ := h'
  have hsame : ns = ms := by
    induction hns generalizing ms with
    | nil => exact (List.forall₂_nil_left_iff.1 hms).symm
    | cons hn _ ih =>
      obtain ⟨m, ms, hm, hrest, rfl⟩ := List.forall₂_cons_left_iff.1 hms
      have hlt := (List.getElem?_eq_some_iff.1 hn).1
      rw [(List.getElem?_inj hlt nodup_alphabet).1 (hn.trans hm.symm), ih ms hrest]
  rw [hsame]

end Writes

/-- There is room for all bits. -/
theorem length_bits_le (bytes : List UInt8) : 8 * bytes.length ≤ 5 * (encode bytes).length := by
  obtain ⟨k, -, hwrites⟩ := writes_encode bytes
  have hlength := hwrites.length_eq
  rw [List.length_append, length_bits] at hlength
  omega

/-- Fewer than five zeros are less than a byte, so that the text tells how many there are. -/
theorem encode_injective : Function.Injective encode := by
  intro xs ys h
  obtain ⟨k, hk, hxs⟩ := writes_encode xs
  obtain ⟨l, hl, hys⟩ := writes_encode ys
  have hboth := hxs.bits_unique (h ▸ hys)
  have hlength := congrArg List.length hboth
  simp only [List.length_append, length_bits, List.length_replicate] at hlength
  have hbits := List.append_inj_left hboth (by rw [length_bits, length_bits]; omega)
  exact bits_injective hbits

end Base32Hex

end GuestCompiler.Text
