import GuestCompiler.Pattern.Port
import GuestCompiler.Proofs.Edit
import GuestCompiler.Proofs.Tokens
import Mathlib.Data.Nat.Digits.Defs

/-!
# Numerals

A numeral is a row of decimal digits with or without a sign before it (`Numeral`). Blanks may stand
around it, and the expansion of a port pattern is read as the number that it writes, however many
digits it has: what is read from the left never grows past a limit, so that a port is read exactly
where the numeral writes one (`readPort_eq_ok_iff`).
-/
namespace GuestCompiler.Pattern

/-- A decimal digit and its value. -/
def Digit (c : Char) (d : Nat) : Prop := d < 10 ∧ c = Nat.digitChar d

/-- A row of digits and the number that it writes; the last digit counts ones. -/
def Decimal (cs : List Char) (n : Nat) : Prop :=
  ∃ digits, digits ≠ [] ∧ List.Forall₂ Digit cs digits ∧ n = Nat.ofDigits 10 digits.reverse

inductive Numeral : List Char → Int → Prop
  | unsigned {cs : List Char} {n : Nat} : Decimal cs n → Numeral cs n
  | plus {cs : List Char} {n : Nat} : Decimal cs n → Numeral ('+' :: cs) n
  | minus {cs : List Char} {n : Nat} : Decimal cs n → Numeral ('-' :: cs) (-n)

/-- A signed 64-bit number. -/
def FitsInteger (v : Int) : Prop := -(maxInteger + 1 : Int) ≤ v ∧ v ≤ maxInteger

/-- A text that is the numeral of a port, apart from blanks around it. -/
def NamesPort (text : String) (p : Nat) : Prop :=
  1 ≤ p ∧ p ≤ 65535 ∧ ∃ before numeral after, text.toList = before ++ numeral ++ after ∧
    (∀ c ∈ before, Text.isBlank c = true) ∧ (∀ c ∈ after, Text.isBlank c = true) ∧
    Numeral numeral p

section Digits

variable {c : Char} {d n m limit : Nat} {cs : List Char}

theorem digit?_eq_some_iff : digit? c = some d ↔ Digit c d := by
  constructor
  · intro h
    unfold digit? at h
    split at h <;> cases h
    rename_i hrange
    have hd : c.toNat - 48 < 10 := by omega
    have hchar : ∀ k < 10, Nat.digitChar k = Char.ofNat (48 + k) := by decide
    refine ⟨hd, ?_⟩
    rw [hchar _ hd, Nat.add_sub_cancel' hrange.1, Char.ofNat_toNat]
  · rintro ⟨hd, rfl⟩
    have hall : ∀ k < 10, digit? (Nat.digitChar k) = some k := by decide
    exact hall d hd

theorem le_ofDigits_concat (digits : List Nat) (n : Nat) :
    n ≤ Nat.ofDigits 10 (digits ++ [n]) := by
  rw [Nat.ofDigits_append, Nat.ofDigits_singleton]
  have hpow := Nat.one_le_pow digits.length 10 (by omega)
  calc n = 1 * n := (Nat.one_mul n).symm
    _ ≤ 10 ^ digits.length * n := Nat.mul_le_mul_right n hpow
    _ ≤ _ := Nat.le_add_left _ _

/-- One digit more is one step of the reading. -/
theorem ofDigits_step (digits : List Nat) (d n : Nat) :
    Nat.ofDigits 10 ((d :: digits).reverse ++ [n]) =
      Nat.ofDigits 10 (digits.reverse ++ [10 * n + d]) := by
  have htwo : Nat.ofDigits 10 [d, n] = 10 * n + d := by
    rw [Nat.ofDigits_cons, Nat.ofDigits_singleton, Nat.add_comm]
  rw [List.reverse_cons, List.append_assoc, List.singleton_append, Nat.ofDigits_append, htwo,
    Nat.ofDigits_append, Nat.ofDigits_singleton]

/-- Digits are read onto a number where all of them together stay within the limit. -/
theorem magnitude_eq_ok_iff {overflow : PortFault} (hn : n ≤ limit) :
    magnitude limit overflow n cs = .ok m ↔ m ≤ limit ∧
      ∃ digits, List.Forall₂ Digit cs digits ∧ m = Nat.ofDigits 10 (digits.reverse ++ [n]) := by
  induction cs generalizing n with
  | nil =>
    constructor
    · intro h
      cases h
      exact ⟨hn, [], .nil, Nat.ofDigits_singleton.symm⟩
    · rintro ⟨-, digits, hdigits, rfl⟩
      cases hdigits
      rw [magnitude, List.reverse_nil, List.nil_append, Nat.ofDigits_singleton]
  | cons c cs ih =>
    constructor
    · intro h
      rw [magnitude] at h
      split at h
      · cases h
      · rename_i d hd
        split at h
        · rename_i hle
          obtain ⟨hm, digits, hdigits, rfl⟩ := (ih hle).1 h
          exact ⟨hm, d :: digits, .cons (digit?_eq_some_iff.1 hd) hdigits,
            (ofDigits_step digits d n).symm⟩
        · cases h
    · rintro ⟨hm, digits, hall, hvalue⟩
      obtain ⟨d, digits, hd, hdigits, rfl⟩ := List.forall₂_cons_left_iff.1 hall
      rw [ofDigits_step] at hvalue
      have hle : 10 * n + d ≤ limit := by
        have hleast := le_ofDigits_concat digits.reverse (10 * n + d)
        omega
      simp only [magnitude, digit?_eq_some_iff.2 hd, if_pos hle]
      exact (ih hle).2 ⟨hm, digits, hdigits, hvalue⟩

/-- A row of digits is read, however long it is, as the number that it writes. -/
theorem magnitude_decimal {overflow : PortFault} (hcs : cs ≠ []) :
    magnitude limit overflow 0 cs = .ok m ↔ Decimal cs m ∧ m ≤ limit := by
  have hzero (digits : List Nat) : Nat.ofDigits 10 (digits ++ [0]) = Nat.ofDigits 10 digits := by
    rw [Nat.ofDigits_append, Nat.ofDigits_singleton, Nat.mul_zero, Nat.add_zero]
  rw [magnitude_eq_ok_iff (Nat.zero_le limit), and_comm]
  refine and_congr_left fun _ => exists_congr fun digits => ?_
  rw [hzero]
  refine ⟨fun ⟨hdigits, hm⟩ => ⟨?_, hdigits, hm⟩, fun ⟨_, hdigits, hm⟩ => ⟨hdigits, hm⟩⟩
  rintro rfl
  cases hdigits
  exact hcs rfl

theorem Decimal.ne_nil (h : Decimal cs n) : cs ≠ [] := by
  obtain ⟨digits, hne, hdigits, -⟩ := h
  rintro rfl
  cases hdigits
  exact hne rfl

theorem Decimal.digit (h : Decimal cs n) : ∀ c ∈ cs, ∃ d, Digit c d := by
  obtain ⟨digits, -, hdigits, -⟩ := h
  intro c hc
  induction hdigits with
  | nil => cases hc
  | cons hd _ ih =>
    rcases List.mem_cons.1 hc with rfl | hc
    · exact ⟨_, hd⟩
    · exact ih hc

theorem not_digit {c : Char} (h : digit? c = none) (d : Nat) : ¬ Digit c d := by
  intro hd
  rw [digit?_eq_some_iff.2 hd] at h
  cases h

end Digits

section Signs

variable {cs : List Char} {v : Int}

theorem Numeral.ne_nil (h : Numeral cs v) : cs ≠ [] := by
  cases h with
  | unsigned hn => exact hn.ne_nil
  | plus _ => exact List.cons_ne_nil _ _
  | minus _ => exact List.cons_ne_nil _ _

theorem numeral_plus : Numeral ('+' :: cs) v ↔ ∃ n : Nat, Decimal cs n ∧ v = n := by
  constructor
  · intro h
    cases h with
    | unsigned hn =>
      obtain ⟨d, hd⟩ := hn.digit '+' List.mem_cons_self
      exact absurd hd (not_digit rfl d)
    | plus hn => exact ⟨_, hn, rfl⟩
  · rintro ⟨n, hn, rfl⟩
    exact .plus hn

theorem numeral_minus : Numeral ('-' :: cs) v ↔ ∃ n : Nat, Decimal cs n ∧ v = -n := by
  constructor
  · intro h
    cases h with
    | unsigned hn =>
      obtain ⟨d, hd⟩ := hn.digit '-' List.mem_cons_self
      exact absurd hd (not_digit rfl d)
    | minus hn => exact ⟨_, hn, rfl⟩
  · rintro ⟨n, hn, rfl⟩
    exact .minus hn

theorem numeral_unsigned (hplus : ∀ rest, cs ≠ '+' :: rest) (hminus : ∀ rest, cs ≠ '-' :: rest) :
    Numeral cs v ↔ ∃ n : Nat, Decimal cs n ∧ v = n := by
  constructor
  · intro h
    cases h with
    | unsigned hn => exact ⟨_, hn, rfl⟩
    | plus => exact absurd rfl (hplus _)
    | minus => exact absurd rfl (hminus _)
  · rintro ⟨n, hn, rfl⟩
    exact .unsigned hn

/-- Digits are read with a sign where the signed number fits in 64 bits. -/
theorem readSigned_eq_ok_iff {limit : Nat} {overflow : PortFault} {sign : Nat → Int}
    (hsign : ∀ n, n ≤ limit ↔ FitsInteger (sign n)) (hcs : cs ≠ []) :
    (magnitude limit overflow 0 cs).map sign = .ok v ↔
      (∃ n, Decimal cs n ∧ v = sign n) ∧ FitsInteger v := by
  simp only [Edit.exceptMap_eq_ok, magnitude_decimal hcs]
  constructor
  · rintro ⟨n, ⟨hn, hle⟩, rfl⟩
    exact ⟨⟨n, hn, rfl⟩, (hsign n).1 hle⟩
  · rintro ⟨⟨n, hn, rfl⟩, hfits⟩
    exact ⟨n, ⟨hn, (hsign n).2 hfits⟩, rfl⟩

theorem fitsInteger_ofNat (n : Nat) : n ≤ maxInteger ↔ FitsInteger (Int.ofNat n) := by
  simp only [FitsInteger, Int.ofNat_eq_natCast]
  omega

theorem fitsInteger_neg (n : Nat) : n ≤ maxInteger + 1 ↔ FitsInteger (-Int.ofNat n) := by
  simp only [FitsInteger, Int.ofNat_eq_natCast]
  omega

/-- A numeral is read where its number fits in 64 bits. -/
theorem readInteger_eq_ok_iff : readInteger cs = .ok v ↔ Numeral cs v ∧ FitsInteger v := by
  have hempty (n : Nat) : ¬ Decimal [] n := fun h => h.ne_nil rfl
  unfold readInteger
  split
  case h_1 => simp [numeral_unsigned, hempty]
  case h_2 => simp [numeral_plus, hempty]
  case h_3 => simp [numeral_minus, hempty]
  case h_4 digits hdigits =>
    rw [numeral_minus, readSigned_eq_ok_iff fitsInteger_neg fun h => hdigits (by rw [h])]
    rfl
  case h_5 digits hdigits =>
    rw [numeral_plus, readSigned_eq_ok_iff fitsInteger_ofNat fun h => hdigits (by rw [h])]
    rfl
  case h_6 hne _ _ hminus hplus =>
    rw [numeral_unsigned hplus hminus, readSigned_eq_ok_iff fitsInteger_ofNat hne]
    rfl

end Signs

section Blanks

variable {cs : List Char}

/-- No character of a numeral is blank. -/
theorem Numeral.not_blank {v : Int} (h : Numeral cs v) : ∀ c ∈ cs, Text.isBlank c = false := by
  have hdigits {cs : List Char} {n : Nat} (h : Decimal cs n) :
      ∀ c ∈ cs, Text.isBlank c = false := by
    have hall : ∀ d < 10, Text.isBlank (Nat.digitChar d) = false := by decide
    intro c hc
    obtain ⟨d, hd, rfl⟩ := h.digit c hc
    exact hall d hd
  cases h with
  | unsigned hn => exact hdigits hn
  | plus hn => exact List.forall_mem_cons.2 ⟨by decide, hdigits hn⟩
  | minus hn => exact List.forall_mem_cons.2 ⟨by decide, hdigits hn⟩

theorem goesOn_of_forall {p : Char → Prop} (h : ∀ c ∈ cs, p c) (hne : cs ≠ [])
    (rest : List Char) : GoesOn p (cs ++ rest) := by
  obtain ⟨c, cs, rfl⟩ := List.exists_cons_of_ne_nil hne
  exact goesOn_cons.2 (h c List.mem_cons_self)

/-- Blanks around a text are what is cut off, where there are none in it. -/
theorem trim_append {before after : List Char} (hbefore : ∀ c ∈ before, Text.isBlank c = true)
    (hafter : ∀ c ∈ after, Text.isBlank c = true) (hcs : ∀ c ∈ cs, Text.isBlank c = false)
    (hne : cs ≠ []) : Text.trim (before ++ cs ++ after) = cs := by
  have hfirst : GoesOn (fun c => ¬ Text.isBlank c = true) (cs ++ after) :=
    goesOn_of_forall (fun c hc => Bool.eq_false_iff.1 (hcs c hc)) hne after
  have hlast : GoesOn (fun c => ¬ Text.isBlank c = true) (cs.reverse ++ []) :=
    goesOn_of_forall (fun c hc => Bool.eq_false_iff.1 (hcs c (List.mem_reverse.1 hc)))
      (mt List.reverse_eq_nil_iff.1 hne) []
  rw [List.append_nil] at hlast
  have hend : ∀ c ∈ after.reverse, Text.isBlank c = true := fun c hc =>
    hafter c (List.mem_reverse.1 hc)
  rw [Text.trim, List.append_assoc, dropWhile_front hbefore hfirst, List.reverse_append,
    dropWhile_front hend hlast, List.reverse_reverse]

/-- What is cut off is blank. -/
theorem exists_trim (cs : List Char) : ∃ before after, cs = before ++ Text.trim cs ++ after ∧
    (∀ c ∈ before, Text.isBlank c = true) ∧ ∀ c ∈ after, Text.isBlank c = true := by
  obtain ⟨before, rest, rfl, hbefore, hrest⟩ := exists_front Text.isBlank cs
  obtain ⟨after, middle, hsplit, hafter, hmiddle⟩ := exists_front Text.isBlank rest.reverse
  have htrim : Text.trim (before ++ rest) = middle.reverse := by
    rw [Text.trim, dropWhile_front hbefore hrest, hsplit, dropWhile_front hafter hmiddle]
  refine ⟨before, after.reverse, ?_, hbefore, fun c hc => hafter c (List.mem_reverse.1 hc)⟩
  rw [htrim, List.append_assoc, ← List.reverse_append, ← hsplit, List.reverse_reverse]

end Blanks

theorem namesPort_iff {text : String} {p : Nat} :
    NamesPort text p ↔ 1 ≤ p ∧ p ≤ 65535 ∧ Numeral (Text.trim text.toList) p := by
  refine and_congr_right fun _ => and_congr_right fun _ => ⟨?_, fun h => ?_⟩
  · rintro ⟨before, numeral, after, htext, hbefore, hafter, h⟩
    rw [htext, trim_append hbefore hafter h.not_blank h.ne_nil]
    exact h
  · obtain ⟨before, after, htext, hbefore, hafter⟩ := exists_trim text.toList
    exact ⟨before, _, after, htext, hbefore, hafter, h⟩

/-- A text is read as a port exactly where it is the numeral of one. -/
theorem readPort_eq_ok_iff {text : String} {p : Nat} :
    readPort text = .ok p ↔ NamesPort text p := by
  rw [namesPort_iff, readPort, Edit.exceptBind_eq_ok]
  simp only [readInteger_eq_ok_iff]
  constructor
  · rintro ⟨v, ⟨hnumeral, -⟩, h⟩
    split at h <;> cases h
    rename_i hport
    obtain ⟨p, rfl⟩ := Int.eq_ofNat_of_zero_le (by omega : 0 ≤ v)
    exact ⟨by simpa using hport.1, by simpa using hport.2, hnumeral⟩
  · rintro ⟨hone, hmost, hnumeral⟩
    have hport : (1 : Int) ≤ p ∧ (p : Int) ≤ 65535 := by omega
    have hfits : FitsInteger p := by
      unfold FitsInteger maxInteger
      omega
    refine ⟨p, ⟨hnumeral, hfits⟩, ?_⟩
    rw [if_pos hport]
    rfl

/-- Zeros do not fill up a number, and one that is too large for 64 bits is not cut. -/
example : readPort " +00000000000000000000000080\n" = .ok 80 ∧
    readPort "590000" = .error (.outOfRange 590000) ∧
    readPort "18446744073709551696" = .error .tooLarge := by decide

end GuestCompiler.Pattern
