import GuestCompiler.Proofs.Edit
import GuestCompiler.Definition.Basic

/-!
# Identities in writing

The text that an identity is written as reads back as that identity: any id and any hardware
address does, and a World Wide Name does whose authority fits its length, which are those that any
text reads as (`Wwn.Readable.parse_toString`).
-/
namespace GuestCompiler

namespace Text.Hex

variable {digit : Nat → Char} {c : Char}

theorem exists_of_mem_encode {bytes : List UInt8} {d : Char} (hd : d ∈ encode digit bytes) :
    ∃ n < 16, d = digit n := by
  obtain ⟨b, -, hb⟩ := List.mem_flatMap.1 hd
  have hbound := b.toNat_lt
  simp only [List.mem_cons, List.not_mem_nil, or_false] at hb
  exact hb.elim (⟨_, by omega, ·⟩) (⟨_, by omega, ·⟩)

/-- A sign that is no digit is in nothing that is written in digits. -/
theorem ne_of_mem_encode (hdigit : ∀ n < 16, value? (digit n) = some n) (hc : value? c = none)
    {bytes : List UInt8} {d : Char} (hd : d ∈ encode digit bytes) : d ≠ c := by
  obtain ⟨n, hn, rfl⟩ := exists_of_mem_encode hd
  rintro rfl
  rw [hdigit n hn] at hc
  cases hc

/-- A byte by its two digits. -/
theorem ofNat_digits (b : UInt8) : UInt8.ofNat (16 * (b.toNat / 16) + b.toNat % 16) = b := by
  rw [Nat.div_add_mod, UInt8.ofNat_toNat]

theorem length_encode (digit : Nat → Char) (bytes : List UInt8) :
    (encode digit bytes).length = 2 * bytes.length := by
  induction bytes with
  | nil => rfl
  | cons b bytes ih =>
    rw [encode, List.flatMap_cons, List.length_append, ← encode, ih, List.length_cons]
    simp only [List.length_cons, List.length_nil]
    omega

end Text.Hex

open Text.Hex

theorem Octets.ofList?_toList {n : Nat} (o : Octets n) : Octets.ofList? n o.toList = some o :=
  dif_pos o.length_toList

namespace Uuid

theorem filter_hyphenate {digits : List Char} (h : ∀ d ∈ digits, d ≠ '-') :
    (hyphenate digits).filter (· ≠ '-') = digits := by
  have hkeep {ds : List Char} (hds : ds ⊆ digits) : ds.filter (· ≠ '-') = ds :=
    List.filter_eq_self.2 fun d hd => by simpa using h d (hds hd)
  have hgroup (k n : Nat) : (digits.drop k).take n ⊆ digits := fun d hd =>
    List.mem_of_mem_drop (List.mem_of_mem_take hd)
  have hjoin (k n : Nat) : (digits.drop k).take n ++ digits.drop (k + n) = digits.drop k := by
    rw [← List.drop_drop, List.take_append_drop]
  have hskip (ds : List Char) : ('-' :: ds).filter (· ≠ '-') = ds.filter (· ≠ '-') :=
    List.filter_cons_of_neg (by simp)
  rw [hyphenate]
  simp only [List.filter_append, hskip]
  rw [hkeep (List.take_subset _ _), hkeep (hgroup 8 4), hkeep (hgroup 12 4), hkeep (hgroup 16 4),
    hkeep (List.drop_subset _ _), hjoin 16 4, hjoin 12 4, hjoin 8 4, List.take_append_drop]

theorem parse?_toString (u : Uuid) : parse? u.toString = some u := by
  have hlower : ∀ d ∈ encode lower u.octets.toList, d ≠ '-' := fun d hd =>
    ne_of_mem_encode value?_lower rfl hd
  have hlength : (hyphenate (encode lower u.octets.toList)).length = 36 := by
    simp [hyphenate, length_encode, u.octets.length_toList]
  rw [parse?, toString, String.toList_ofList]
  simp only [hlength]
  rw [ofHyphenated?, filter_hyphenate hlower, if_pos rfl, ofDigits?, decode?_encode value?_lower]
  change (Octets.ofList? 16 u.octets.toList >>= fun o => some (⟨o⟩ : Uuid)) = some u
  rw [Octets.ofList?_toList]
  rfl

end Uuid

namespace MacAddress

theorem parts_append {part : List Char} (h : ∀ c ∈ part, ¬ (c = ':' ∨ c = '-')) {sep : Char}
    (hsep : sep = ':' ∨ sep = '-') (rest : List Char) :
    parts (part ++ sep :: rest) = part :: parts rest := by
  induction part with
  | nil => exact if_pos hsep
  | cons c part ih =>
    obtain ⟨hc, hpart⟩ := List.forall_mem_cons.1 h
    rw [List.cons_append, parts, if_neg hc, ih hpart]

theorem parts_eq_self {part : List Char} (h : ∀ c ∈ part, ¬ (c = ':' ∨ c = '-')) :
    parts part = [part] := by
  induction part with
  | nil => rfl
  | cons c part ih =>
    obtain ⟨hc, hpart⟩ := List.forall_mem_cons.1 h
    rw [parts, if_neg hc, ih hpart]

theorem parts_intercalate {ps : List (List Char)} (hps : ps ≠ [])
    (h : ∀ part ∈ ps, ∀ c ∈ part, ¬ (c = ':' ∨ c = '-')) : parts ([':'].intercalate ps) = ps := by
  induction ps with
  | nil => exact absurd rfl hps
  | cons part ps ih =>
    obtain ⟨hpart, hrest⟩ := List.forall_mem_cons.1 h
    cases ps with
    | nil =>
      rw [List.intercalate_singleton]
      exact parts_eq_self hpart
    | cons q qs =>
      rw [List.intercalate_cons_cons, List.append_assoc, List.singleton_append,
        parts_append hpart (.inl rfl), ih (List.cons_ne_nil q qs) hrest]

theorem ofPart?_encode (b : UInt8) : ofPart? (encode lower [b]) = some b := by
  have hb := b.toNat_lt
  have hmem : lower (b.toNat / 16) ∈ encode lower [b] := by simp [encode]
  have hplus : lower (b.toNat / 16) ≠ '+' := ne_of_mem_encode value?_lower rfl hmem
  rw [encode, List.flatMap_singleton, ofPart?.eq_2 _ _ hplus, value?_lower _ (by omega),
    value?_lower _ (by omega)]
  exact congrArg some (ofNat_digits b)

theorem mapM_ofPart? (bytes : List UInt8) :
    (bytes.map fun b => encode lower [b]).mapM ofPart? = some bytes := by
  induction bytes with
  | nil => rfl
  | cons b bytes ih =>
    rw [List.map_cons, List.mapM_cons, ofPart?_encode, ih]
    rfl

theorem parse?_toString (m : MacAddress) : parse? m.toString = some m := by
  have hne : m.octets.toList.map (fun b => encode lower [b]) ≠ [] := by
    intro h
    have hlength := m.octets.length_toList
    rw [List.map_eq_nil_iff.1 h] at hlength
    cases hlength
  have hdigits : ∀ part ∈ m.octets.toList.map (fun b => encode lower [b]),
      ∀ c ∈ part, ¬ (c = ':' ∨ c = '-') := by
    refine List.forall_mem_map.2 fun b _ c hc => not_or.2 ⟨?_, ?_⟩
    · exact ne_of_mem_encode value?_lower rfl hc
    · exact ne_of_mem_encode value?_lower rfl hc
  rw [parse?, toString, String.toList_ofList, parts_intercalate hne hdigits, mapM_ofPart?]
  change (Octets.ofList? 6 m.octets.toList >>= fun o => some (⟨o⟩ : MacAddress)) = some m
  rw [Octets.ofList?_toList]
  rfl

end MacAddress

namespace Wwn

/-- Whether some text reads as this name. -/
def Readable (w : Wwn) : Prop := ∃ text, parse text = .ok w

theorem bytes_of_ofBytes {bytes : List UInt8} {w : Wwn} (h : ofBytes bytes = .ok w) :
    w.bytes = bytes := by
  cases bytes with
  | nil => cases h
  | cons first rest =>
    simp only [ofBytes] at h
    split at h
    · cases h
    · split at h
      · cases h
        rfl
      · split at h <;> cases h
        rfl

theorem utf8EncodeChar_upper :
    ∀ n < 16, String.utf8EncodeChar (upper n) = [UInt8.ofNat (upper n).toNat] := by
  decide

theorem digitOfByte?_upper : ∀ n < 16, digitOfByte? (UInt8.ofNat (upper n).toNat) = some n := by
  decide

/-- A digit is one byte of the text. -/
theorem utf8_encode (bytes : List UInt8) : (encode upper bytes).flatMap String.utf8EncodeChar =
    (encode upper bytes).map fun c => UInt8.ofNat c.toNat := by
  rw [List.map_eq_flatMap]
  refine List.flatMap_congr fun c hc => ?_
  obtain ⟨n, hn, rfl⟩ := exists_of_mem_encode hc
  exact utf8EncodeChar_upper n hn

theorem decode_encode (i : Nat) (bytes : List UInt8) :
    decode i ((encode upper bytes).map fun c => UInt8.ofNat c.toNat) = .ok bytes := by
  induction bytes generalizing i with
  | nil => rfl
  | cons b bytes ih =>
    have hb := b.toNat_lt
    have hhigh : b.toNat / 16 < 16 := by omega
    have hlow : b.toNat % 16 < 16 := Nat.mod_lt _ (by decide)
    rw [encode, List.flatMap_cons, List.map_append, ← encode]
    simp only [List.map_cons, List.map_nil, List.cons_append, List.nil_append, decode,
      digitOfByte?_upper _ hhigh, digitOfByte?_upper _ hlow, ih, ofNat_digits]
    rfl

/-- What is written is read by its bytes alone. -/
theorem parse_toString (w : Wwn) : parse w.toString = ofBytes w.bytes := by
  have hcolon : (encode upper w.bytes).filter (· ≠ ':') = encode upper w.bytes :=
    List.filter_eq_self.2 fun c hc => by simpa using ne_of_mem_encode value?_upper rfl hc
  have hdigits : digitsOf ('0' :: 'x' :: encode upper w.bytes) = encode upper w.bytes := by
    rw [digitsOf, List.filter_cons_of_pos (by decide), List.filter_cons_of_pos (by decide), hcolon]
    rfl
  have heven : ¬ ((encode upper w.bytes).map fun c => UInt8.ofNat c.toNat).length % 2 = 1 := by
    rw [List.length_map, length_encode, Nat.mul_mod_right]
    decide
  rw [parse, toString, String.toList_ofList, hdigits, utf8_encode]
  simp only [if_neg heven, decode_encode]
  rfl

theorem Readable.parse_toString {w : Wwn} (h : w.Readable) : parse w.toString = .ok w := by
  obtain ⟨text, htext⟩ := h
  have hbytes : ∃ bytes, ofBytes bytes = .ok w := by
    rw [parse] at htext
    split at htext
    · cases htext
    · obtain ⟨bytes, -, hbytes⟩ := Edit.exceptBind_eq_ok.1 htext
      exact ⟨bytes, hbytes⟩
  obtain ⟨bytes, hbytes⟩ := hbytes
  rw [Wwn.parse_toString, bytes_of_ofBytes hbytes, hbytes]

end Wwn

end GuestCompiler
