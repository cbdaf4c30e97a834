import GuestCompiler.Proofs.HardwareAddresses

/-!
# The grammar of World Wide Names

A name in writing has colons anywhere, one `0x` or `0X` in front or none, and besides these only its
digits: sixteen that begin with an authority of names of 64 bits, or thirty-two that begin with 6
(`Wwn.Spells`). All such texts are read and no others, to the bytes that their digits write, and
what is written for a name is its digits in upper case, which read as that name again
(`Wwn.parse_grammar`).
-/
namespace GuestCompiler

namespace Text.Hex

/-- The values of the two digits of a byte. -/
def halves (b : UInt8) : List Nat := [b.toNat / 16, b.toNat % 16]

/-- Digits that write some bytes, in either case. -/
def Writes (ds : List Char) (bytes : List UInt8) : Prop :=
  List.Forall₂ Digit ds (bytes.flatMap halves)

theorem encode_eq_map (digit : Nat → Char) (bytes : List UInt8) :
    encode digit bytes = (bytes.flatMap halves).map digit := by
  rw [List.map_flatMap]
  rfl

theorem halves_ofNat {h l : Nat} (hh : h < 16) (hl : l < 16) :
    halves (UInt8.ofNat (16 * h + l)) = [h, l] := by
  have hhigh : (16 * h + l) / 16 = h := by omega
  have hlow : (16 * h + l) % 16 = l := by omega
  rw [halves, toNat_digits hh hl, hhigh, hlow]

theorem toUpper_lower : ∀ n < 16, (lower n).toUpper = upper n := by decide

theorem toUpper_upper : ∀ n < 16, (upper n).toUpper = upper n := by decide

theorem Digit.value_unique {c : Char} {m n : Nat} (hm : Digit c m) (hn : Digit c n) : m = n :=
  Option.some.inj ((value?_eq_some_iff.2 hm).symm.trans (value?_eq_some_iff.2 hn))

theorem Digit.toUpper_eq {c : Char} {n : Nat} (h : Digit c n) : c.toUpper = upper n := by
  have hn := h.lt
  rcases eq_of_value? (value?_eq_some_iff.2 h) with rfl | rfl
  · exact toUpper_lower n hn
  · exact toUpper_upper n hn

theorem Digit.toNat_lt {c : Char} {n : Nat} (h : Digit c n) : c.toNat < 128 := by
  have hvalue := value?_eq_some_iff.2 h
  simp only [value?] at hvalue
  repeat' split at hvalue
  · omega
  · omega
  · omega
  · cases hvalue

section Writing

variable {ds : List Char} {bytes : List UInt8}

theorem length_flatMap_halves (bytes : List UInt8) :
    (bytes.flatMap halves).length = 2 * bytes.length := by
  have hlength := congrArg List.length (encode_eq_map upper bytes)
  rw [length_encode, List.length_map] at hlength
  exact hlength.symm

theorem Writes.length_eq (h : Writes ds bytes) : ds.length = 2 * bytes.length :=
  (List.Forall₂.length_eq h).trans (length_flatMap_halves bytes)

theorem Writes.digits (h : Writes ds bytes) : ∀ d ∈ ds, ∃ n, Digit d n := by
  unfold Writes at h
  generalize bytes.flatMap halves = ns at h
  induction h with
  | nil => exact nofun
  | cons hdigit _ ih => exact List.forall_mem_cons.2 ⟨⟨_, hdigit⟩, ih⟩

/-- Upper case leaves the digits that are written. -/
theorem Writes.map_toUpper (h : Writes ds bytes) : ds.map Char.toUpper = encode upper bytes := by
  rw [encode_eq_map]
  unfold Writes at h
  generalize bytes.flatMap halves = ns at h
  induction h with
  | nil => rfl
  | cons hdigit _ ih => rw [List.map_cons, List.map_cons, hdigit.toUpper_eq, ih]

/-- The first digit is the high half of the first byte. -/
theorem Writes.head (h : Writes ds bytes) {n : Nat} :
    (∃ d ∈ ds.head?, Digit d n) ↔ ∃ b ∈ bytes.head?, b.toNat / 16 = n := by
  cases bytes with
  | nil =>
    cases h
    simp
  | cons b bytes =>
    obtain ⟨d, ds, hdigit, -, rfl⟩ := List.forall₂_cons_right_iff.1 h
    simp only [List.head?_cons, Option.mem_some_iff, exists_eq_left']
    constructor
    · exact hdigit.value_unique
    · rintro rfl
      exact hdigit

/-- An even number of digits writes half as many bytes. -/
theorem exists_writes (count : Nat) (hlength : ds.length = 2 * count)
    (hdigits : ∀ d ∈ ds, ∃ n, Digit d n) :
    ∃ bytes : List UInt8, bytes.length = count ∧ Writes ds bytes := by
  induction count generalizing ds with
  | zero =>
    have hnil : ds = [] := List.eq_nil_of_length_eq_zero hlength
    subst hnil
    exact ⟨[], rfl, .nil⟩
  | succ count ih =>
    obtain ⟨hi, ds, rfl⟩ := List.exists_cons_of_length_pos (l := ds) (by omega)
    obtain ⟨lo, ds, rfl⟩ := List.exists_cons_of_length_pos (l := ds) (by simp at hlength; omega)
    obtain ⟨⟨h, hhi⟩, hrest⟩ := List.forall_mem_cons.1 hdigits
    obtain ⟨⟨l, hlo⟩, hrest⟩ := List.forall_mem_cons.1 hrest
    obtain ⟨bytes, hbytes, hwrites⟩ := ih (by simp at hlength; omega) hrest
    refine ⟨UInt8.ofNat (16 * h + l) :: bytes, by rw [List.length_cons, hbytes], ?_⟩
    rw [Writes, List.flatMap_cons, halves_ofNat hhi.lt hlo.lt]
    exact .cons hhi (.cons hlo hwrites)

end Writing

end Text.Hex

namespace Wwn

open Text.Hex

section Bytes

/-- A character is one byte, its number, or it begins with a byte beyond all digits. -/
theorem utf8EncodeChar_cases (c : Char) :
    (c.toNat < 128 ∧ String.utf8EncodeChar c = [UInt8.ofNat c.toNat]) ∨
      (128 ≤ c.toNat ∧ ∃ b bs, String.utf8EncodeChar c = b :: bs ∧ 128 ≤ b.toNat) := by
  have hlead {m k : Nat} (hm : 128 ≤ m) (hk : m + k < 256) : 128 ≤ (UInt8.ofNat (k + m)).toNat := by
    rw [UInt8.toNat_ofNat_of_lt' (by simp only [UInt8.size]; omega)]
    omega
  have hvalue : c.val.toNat = c.toNat := rfl
  simp only [String.utf8EncodeChar, hvalue]
  split
  · exact .inl ⟨by omega, rfl⟩
  · refine .inr ⟨by omega, ?_⟩
    split
    · exact ⟨_, _, rfl, hlead (by decide) (by omega)⟩
    · split
      · exact ⟨_, _, rfl, hlead (by decide) (by omega)⟩
      · exact ⟨_, _, rfl, hlead (by decide) (by omega)⟩

theorem toNat_ofNat_byte (b : UInt8) : (Char.ofNat b.toNat).toNat = b.toNat := by
  have hb := b.toNat_lt
  rw [Char.ofNat, dif_pos (.inl (by omega))]
  rfl

theorem digitOfByte?_ofNat {c : Char} (hc : c.toNat < 128) :
    digitOfByte? (UInt8.ofNat c.toNat) = value? c := by
  rw [digitOfByte?, UInt8.toNat_ofNat_of_lt' (by simp only [UInt8.size]; omega), Char.ofNat_toNat]

theorem digitOfByte?_eq_none {b : UInt8} (hb : 128 ≤ b.toNat) : digitOfByte? b = none := by
  rw [digitOfByte?, value?, toNat_ofNat_byte, if_neg (by omega), if_neg (by omega),
    if_neg (by omega)]

/-- The bytes of a text are digits just where its characters are. -/
theorem forall₂_digitOfByte?_iff {ds : List Char} {ns : List Nat} :
    List.Forall₂ (fun b n => digitOfByte? b = some n) (ds.flatMap String.utf8EncodeChar) ns ↔
      List.Forall₂ Digit ds ns := by
  induction ds generalizing ns with
  | nil => rw [List.flatMap_nil, List.forall₂_nil_left_iff, List.forall₂_nil_left_iff]
  | cons d ds ih =>
    rw [List.flatMap_cons]
    rcases utf8EncodeChar_cases d with ⟨hd, hbytes⟩ | ⟨hd, b, bs, hbytes, hb⟩
    · rw [hbytes, List.singleton_append]
      simp only [List.forall₂_cons_left_iff, ih, digitOfByte?_ofNat hd, value?_eq_some_iff]
    · rw [hbytes, List.cons_append]
      simp only [List.forall₂_cons_left_iff, digitOfByte?_eq_none hb]
      constructor
      · rintro ⟨n, _, hnone, -, -⟩
        cases hnone
      · rintro ⟨n, _, hdigit, -, -⟩
        have hlt := hdigit.toNat_lt
        omega

/-- What goes with the digits of some bytes goes with two of them for each byte. -/
theorem forall₂_halves_iff {α : Type} {R : α → Nat → Prop} {hi lo : α} {rest : List α}
    {bytes : List UInt8} : List.Forall₂ R (hi :: lo :: rest) (bytes.flatMap halves) ↔
      ∃ b bs, bytes = b :: bs ∧ R hi (b.toNat / 16) ∧ R lo (b.toNat % 16) ∧
        List.Forall₂ R rest (bs.flatMap halves) := by
  cases bytes with
  | nil => simp
  | cons b bs =>
    rw [List.flatMap_cons, halves, List.cons_append, List.cons_append, List.nil_append,
      List.forall₂_cons, List.forall₂_cons]
    constructor
    · rintro ⟨hhi, hlo, hrest⟩
      exact ⟨b, bs, rfl, hhi, hlo, hrest⟩
    · rintro ⟨_, _, heq, hhi, hlo, hrest⟩
      cases heq
      exact ⟨hhi, hlo, hrest⟩

/-- Bytes are decoded where they are digits, two for each byte that comes out. -/
theorem decode_eq_ok_iff {i : Nat} {bs bytes : List UInt8} : decode i bs = .ok bytes ↔
    List.Forall₂ (fun b n => digitOfByte? b = some n) bs (bytes.flatMap halves) := by
  fun_induction decode i bs generalizing bytes with
  | case1 =>
    rw [List.forall₂_nil_left_iff]
    cases bytes <;> simp [halves]
  | case2 i b =>
    refine ⟨nofun, fun h => ?_⟩
    have hlength := h.length_eq
    rw [length_flatMap_halves, List.length_singleton] at hlength
    omega
  | case3 i hi lo rest hnone =>
    refine ⟨nofun, fun h => ?_⟩
    obtain ⟨b, bs, -, hhi, -, -⟩ := forall₂_halves_iff.1 h
    rw [hnone] at hhi
    cases hhi
  | case4 i hi lo rest hnone =>
    refine ⟨nofun, fun h => ?_⟩
    obtain ⟨b, bs, -, -, hlo, -⟩ := forall₂_halves_iff.1 h
    rw [hnone] at hlo
    cases hlo
  | case5 i hi lo rest h l hlo hhi ih =>
    have hh : h < 16 := value?_lt hhi
    have hl : l < 16 := value?_lt hlo
    rw [Edit.exceptMap_eq_ok, forall₂_halves_iff]
    constructor
    · rintro ⟨bs, hbs, rfl⟩
      have hboth := halves_ofNat hh hl
      simp only [halves, List.cons.injEq, and_true] at hboth
      refine ⟨_, bs, rfl, ?_, ?_, ih.1 hbs⟩
      · rw [hboth.1, hhi]
      · rw [hboth.2, hlo]
    · rintro ⟨b, bs, rfl, hhigh, hlow, hrest⟩
      rw [hhi, Option.some_inj] at hhigh
      rw [hlo, Option.some_inj] at hlow
      exact ⟨bs, ih.2 hrest, by rw [hhigh, hlow, ofNat_digits]⟩

end Bytes

section Digits

/-- A text, and what remains of it without one `0x` or `0X` in front. -/
inductive Bare : List Char → List Char → Prop
  | marked {x : Char} {ds : List Char} : x = 'x' ∨ x = 'X' → Bare ('0' :: x :: ds) ds
  | plain {ds : List Char} : (∀ x rest, ds = '0' :: x :: rest → ¬ (x = 'x' ∨ x = 'X')) → Bare ds ds

/-- So many digits, the first of which has one of some values. -/
structure Spells (count : Nat) (firsts : List Nat) (ds : List Char) : Prop where
  length : ds.length = count
  digits : ∀ d ∈ ds, ∃ n, Digit d n
  first : ∃ n ∈ firsts, ∃ d ∈ ds.head?, Digit d n

theorem bare_iff {cs ds : List Char} : Bare (cs.filter (· ≠ ':')) ds ↔ ds = digitsOf cs := by
  unfold digitsOf
  generalize cs.filter (· ≠ ':') = text
  constructor
  · intro h
    cases h with
    | marked hx => rcases hx with rfl | rfl <;> rfl
    | plain hplain =>
      split
      · exact absurd (.inl rfl) (hplain _ _ rfl)
      · exact absurd (.inr rfl) (hplain _ _ rfl)
      · rfl
  · rintro rfl
    split
    · exact .marked (.inl rfl)
    · exact .marked (.inr rfl)
    · rename_i hlower hupper
      refine .plain ?_
      rintro x rest rfl (rfl | rfl)
      · exact hlower rest rfl
      · exact hupper rest rfl

/-- The digits of a name write its bytes. -/
theorem Spells.exists_octets {n : Nat} {firsts : List Nat} {ds : List Char}
    (h : Spells (2 * n) firsts ds) : ∃ o : Octets n, Writes ds o.toList ∧
      ∃ b ∈ o.toList.head?, b.toNat / 16 ∈ firsts := by
  obtain ⟨bytes, hbytes, hwrites⟩ := exists_writes n h.length h.digits
  obtain ⟨value, hvalue, hdigit⟩ := h.first
  obtain ⟨b, hb, rfl⟩ := hwrites.head.1 hdigit
  exact ⟨⟨bytes, hbytes⟩, hwrites, b, hb, hvalue⟩

end Digits

section Reading

variable {w : Wwn} {ds : List Char}

/-- The authorities that give names of a length. -/
def authorities : Wwn → List Nat
  | w64 _ => [1, 2, 5, 12, 13, 14, 15]
  | w128 _ => [6]

theorem wanted?_eq_some_iff {naa n : Nat} : wanted? naa = some n ↔
    (n = 8 ∧ naa ∈ [1, 2, 5, 12, 13, 14, 15]) ∨ (n = 16 ∧ naa ∈ [6]) := by
  simp only [wanted?, List.mem_cons, List.not_mem_nil, or_false]
  split
  · simp only [Option.some.injEq]
    omega
  · split
    · simp only [Option.some.injEq]
      omega
    · simp only [reduceCtorEq, false_iff]
      omega

theorem naa_eq {b : UInt8} (h : b ∈ w.bytes.head?) : w.naa = b.toNat / 16 := by
  rw [naa, List.headD_eq_head?_getD, Option.mem_def.1 h]
  rfl

theorem length_bytes (w : Wwn) : 8 * w.bytes.length = w.size := by
  cases w with
  | w64 o => rw [bytes, o.length_toList, size]
  | w128 o => rw [bytes, o.length_toList, size]

theorem exists_head (w : Wwn) : ∃ b, b ∈ w.bytes.head? := by
  have hlength := length_bytes w
  cases hbytes : w.bytes with
  | nil => cases w <;> simp [hbytes, size] at hlength
  | cons b rest => exact ⟨b, rfl⟩

/-- Bytes are a name where their authority wants as many as there are. -/
theorem ofBytes_bytes_iff : ofBytes w.bytes = .ok w ↔ wanted? w.naa = some w.bytes.length := by
  obtain ⟨b, hb⟩ := exists_head w
  obtain ⟨rest, hbytes⟩ := List.head?_eq_some_iff.1 hb
  rw [naa_eq hb, hbytes, ofBytes]
  cases hwanted : wanted? (b.toNat / 16) with
  | none => simp
  | some n =>
    simp only [Option.some.injEq]
    clear hb
    cases w with
    | w64 o =>
      obtain ⟨bytes, hcount⟩ := o
      change bytes = b :: rest at hbytes
      subst hbytes
      rw [dif_neg (by omega)]
      by_cases hn : n = (b :: rest).length
      · rw [dif_pos ⟨hcount, hn.trans hcount⟩]
        exact iff_of_true rfl hn
      · rw [dif_neg (by omega)]
        exact iff_of_false (by simp) hn
    | w128 o =>
      obtain ⟨bytes, hcount⟩ := o
      change bytes = b :: rest at hbytes
      subst hbytes
      by_cases hn : n = (b :: rest).length
      · rw [dif_pos ⟨hcount, hn.trans hcount⟩]
        exact iff_of_true rfl hn
      · rw [dif_neg (by omega), dif_neg (by omega)]
        exact iff_of_false (by simp) hn

theorem wanted?_naa_iff : wanted? w.naa = some w.bytes.length ↔ w.naa ∈ w.authorities := by
  rw [wanted?_eq_some_iff]
  cases w with
  | w64 o => simp [bytes, o.length_toList, authorities]
  | w128 o => simp [bytes, o.length_toList, authorities]

/-- A text reads as a name whose bytes its digits write and whose authority fits its length. -/
theorem parse_eq_ok_iff {text : String} : parse text = .ok w ↔
    Writes (digitsOf text.toList) w.bytes ∧ w.naa ∈ w.authorities := by
  rw [← wanted?_naa_iff, ← ofBytes_bytes_iff, Writes, ← forall₂_digitOfByte?_iff,
    ← decode_eq_ok_iff (i := 0), parse]
  constructor
  · intro h
    split at h
    · cases h
    · obtain ⟨bytes, hdecode, hbytes⟩ := Edit.exceptBind_eq_ok.1 h
      have hsame := bytes_of_ofBytes hbytes
      subst hsame
      exact ⟨hdecode, hbytes⟩
  · rintro ⟨hdecode, hbytes⟩
    have hlength := (decode_eq_ok_iff.1 hdecode).length_eq
    rw [length_flatMap_halves] at hlength
    rw [if_neg (by omega)]
    exact Edit.exceptBind_eq_ok.2 ⟨w.bytes, hdecode, hbytes⟩

/-- What a name is that is read from some digits. -/
structure ReadFrom (ds : List Char) (w : Wwn) : Prop where
  form : (Spells 16 [1, 2, 5, 12, 13, 14, 15] ds ∧ w.size = 64) ∨ (Spells 32 [6] ds ∧ w.size = 128)
  value : Writes ds w.bytes
  written : w.toString = String.ofList ('0' :: 'x' :: ds.map Char.toUpper)
  restored : parse w.toString = .ok w

theorem spells_of_writes (hwrites : Writes ds w.bytes) (hnaa : w.naa ∈ w.authorities) :
    Spells (2 * w.bytes.length) w.authorities ds where
  length := hwrites.length_eq
  digits := hwrites.digits
  first := by
    obtain ⟨b, hb⟩ := exists_head w
    exact ⟨w.naa, hnaa, hwrites.head.2 ⟨b, hb, (naa_eq hb).symm⟩⟩

theorem readFrom {text : String} (h : parse text = .ok w) :
    ReadFrom (digitsOf text.toList) w := by
  obtain ⟨hwrites, hnaa⟩ := parse_eq_ok_iff.1 h
  have hspells := spells_of_writes hwrites hnaa
  refine ⟨?_, hwrites, ?_, Readable.parse_toString ⟨text, h⟩⟩
  · cases w with
    | w64 o =>
      rw [bytes, o.length_toList] at hspells
      exact .inl ⟨hspells, rfl⟩
    | w128 o =>
      rw [bytes, o.length_toList] at hspells
      exact .inr ⟨hspells, rfl⟩
  · rw [toString, hwrites.map_toUpper]

theorem exists_parse_of_spells {n : Nat} {firsts : List Nat} (make : Octets n → Wwn) {text : String}
    (hbytes : ∀ o, (make o).bytes = o.toList) (hfirsts : ∀ o, (make o).authorities = firsts)
    (h : Spells (2 * n) firsts (digitsOf text.toList)) : ∃ w, parse text = .ok w := by
  obtain ⟨o, hwrites, b, hb, hvalue⟩ := h.exists_octets
  rw [← hbytes o] at hwrites hb
  refine ⟨make o, parse_eq_ok_iff.2 ⟨hwrites, ?_⟩⟩
  rw [naa_eq hb, hfirsts]
  exact hvalue

end Reading

/-- What remains of a text without its colons and then without one `0x` or `0X` in front decides
whether it reads as a name: it does just where that is sixteen digits, the first of which is 1, 2, 5
or from `c` to `f`, or thirty-two, the first of which is 6. The name has 64 bits in the one case and
128 in the other, its bytes are the ones that the digits write, and it is written as these digits in
upper case behind `0x`, which reads as the name again. -/
theorem parse_grammar (text : String) : ∃ ds,
    (∀ ds', Bare (text.toList.filter (· ≠ ':')) ds' ↔ ds' = ds) ∧
    ((∃ w, parse text = .ok w) ↔ Spells 16 [1, 2, 5, 12, 13, 14, 15] ds ∨ Spells 32 [6] ds) ∧
    ∀ w, parse text = .ok w → ReadFrom ds w := by
  refine ⟨digitsOf text.toList, fun _ => bare_iff, ⟨?_, ?_⟩, fun w => readFrom⟩
  · rintro ⟨w, hw⟩
    exact (readFrom hw).form.imp And.left And.left
  · rintro (hshort | hlong)
    · exact exists_parse_of_spells w64 (fun _ => rfl) (fun _ => rfl) hshort
    · exact exists_parse_of_spells w128 (fun _ => rfl) (fun _ => rfl) hlong

/-- Colons and the case of letters are not kept. -/
theorem parse_separated :
    let w : Wwn := .w64 ⟨[0x52, 0x54, 0, 0, 0, 0, 0, 0xfe], rfl⟩
    parse "0X52:54:00:00:00:00:00:fe" = .ok w ∧ w.toString = "0x52540000000000FE" ∧
      parse "0x52540000000000FE" = .ok w := by
  intro w
  have hparse : parse "0X52:54:00:00:00:00:00:fe" = .ok w := by decide
  obtain ⟨ds, hbare, -, hread⟩ := parse_grammar "0X52:54:00:00:00:00:00:fe"
  have hds : "52540000000000fe".toList = ds := (hbare _).1 (.marked (.inr rfl))
  obtain ⟨-, -, hwritten, hrestored⟩ := hread w hparse
  rw [← hds] at hwritten
  have htext : w.toString = "0x52540000000000FE" := hwritten
  exact ⟨hparse, htext, htext ▸ hrestored⟩

end Wwn

end GuestCompiler
