import GuestCompiler.Proofs.Framing
import GuestCompiler.Proofs.Resolved
import GuestCompiler.Proofs.WorldWideNames

/-!
# Seeded identities are well formed

Whatever bytes a seed's hash yields, the identities made of them are of their form: the fixed bits
stand in front or in their place, all other bits are the hashed ones, and what is written reads as
the identity again (`Seed.WellFormed`). A serial number tells which bytes were hashed, and a group
id is computed without overflow.
-/
namespace GuestCompiler

open Text Text.Base32Hex

theorem Text.ofBigEndian_lt (bytes : List UInt8) : ofBigEndian bytes < 256 ^ bytes.length := by
  induction bytes using List.reverseRecOn with
  | nil => decide
  | append_singleton bytes b ih =>
    have hb := b.toNat_lt
    rw [ofBigEndian_append, List.length_append, List.length_singleton, Nat.pow_succ]
    omega

theorem Octets.bits_lt {n : Nat} (o : Octets n) : o.bits < 256 ^ n := by
  have hlt := ofBigEndian_lt o.toList
  rw [o.length_toList] at hlt
  exact hlt

namespace Seed

section Brands

/-- Fixed bits go on from one byte to the next. -/
theorem bits_modify_next {bytes : List UInt8} (i : Nat) {f : UInt8 → UInt8}
    {field more bs : List Bool} (h : bits bytes = overlay 0 field bs) (hfield : field.length = 8 * i)
    (hf : ∀ b, bitsOfByte (f b) = overlay 0 more (bitsOfByte b)) (hi : i < bytes.length) :
    bits (bytes.modify i f) = overlay 0 (field ++ more) bs := by
  have hlength := congrArg List.length h
  rw [length_bits, length_overlay_zero] at hlength
  have hjoin : overlay (0 + field.length) more (overlay 0 field bs) = overlay 0 (field ++ more) bs :=
    overlay_overlay (by omega)
  rw [Nat.zero_add] at hjoin
  rw [bits_modify bytes i hf hi, h, ← hfield, hjoin]

/-- The authority 5 and the organisation stand before the hashed bits. -/
theorem bits_brandWwn (o : Octets 8) : bits (brandWwn o).bytes =
    overlay 0 (bitsOf 4 5 ++ bitsOf 24 0x525400) (bits o.toList) := by
  have hlength := o.length_toList
  have h₀ := bits_modify o.toList 0 (bitsOfByte_const 0x55) (by omega)
  have h₁ := bits_modify_next 1 h₀ rfl (bitsOfByte_const 0x25) (by rw [List.length_modify]; omega)
  have h₂ := bits_modify_next 2 h₁ rfl (bitsOfByte_const 0x40)
    (by rw [List.length_modify, List.length_modify]; omega)
  have h₃ := bits_modify_next 3 h₂ rfl bitsOfByte_low
    (by rw [List.length_modify, List.length_modify, List.length_modify]; omega)
  have hfixed : bitsOfByte 0x55 ++ bitsOfByte 0x25 ++ bitsOfByte 0x40 ++ bitsOf 4 0 =
      bitsOf 4 5 ++ bitsOf 24 0x525400 := by decide
  rw [hfixed] at h₃
  exact h₃

theorem bits_brandMac (o : Octets 6) :
    bits (brandMac o).octets.toList = overlay 0 (bitsOf 24 0x525400) (bits o.toList) := by
  have hlength := o.length_toList
  have h₀ := bits_modify o.toList 0 (bitsOfByte_const 0x52) (by omega)
  have h₁ := bits_modify_next 1 h₀ rfl (bitsOfByte_const 0x54) (by rw [List.length_modify]; omega)
  have h₂ := bits_modify_next 2 h₁ rfl (bitsOfByte_const 0)
    (by rw [List.length_modify, List.length_modify]; omega)
  have hfixed : bitsOfByte 0x52 ++ bitsOfByte 0x54 ++ bitsOfByte 0 = bitsOf 24 0x525400 := by decide
  rw [hfixed] at h₂
  exact h₂

theorem bits_brandUuid (o : Octets 16) : bits (brandUuid o).octets.toList =
    overlay 64 (bitsOf 2 2) (overlay 48 (bitsOf 4 4) (bits o.toList)) := by
  have hlength := o.length_toList
  have h₆ := bits_modify o.toList 6 bitsOfByte_version (by omega)
  have h₈ := bits_modify (o.toList.modify 6 fun b => (b &&& 0x0F) ||| 0x40) 8 bitsOfByte_variant
    (by rw [List.length_modify]; omega)
  rw [h₆] at h₈
  exact h₈

theorem naa_brandWwn (o : Octets 8) : (brandWwn o).naa = 5 := by
  obtain ⟨bytes, hbytes⟩ := o
  obtain ⟨b, bytes, rfl⟩ := List.exists_cons_of_length_pos (l := bytes) (by omega)
  simp [brandWwn, Octets.modify, Wwn.naa, Wwn.bytes]

theorem parse_brandWwn (o : Octets 8) : Wwn.parse (brandWwn o).toString = .ok (brandWwn o) := by
  have hnaa : (brandWwn o).naa ∈ (brandWwn o).authorities := by
    rw [naa_brandWwn, brandWwn, Wwn.authorities]
    decide
  rw [Wwn.parse_toString]
  exact Wwn.ofBytes_bytes_iff.2 (Wwn.wanted?_naa_iff.2 hnaa)

theorem toNat_groupOfBytes_eq (o : Octets 4) :
    (groupOfBytes o).toNat = 65536 + o.bits % (2147483647 - 65536) := by
  have hmod : o.bits % 4294967296 = o.bits := Nat.mod_eq_of_lt o.bits_lt
  rw [toNat_groupOfBytes, hmod]

end Brands

/-- The identities of an entity and the group id of a round. -/
structure Identities where
  wwn : Wwn
  serial : String
  mac : MacAddress
  uuid : Uuid
  group : UInt32

/-- The identities of a seed, by the function that hashes. -/
def identitiesBy (hash : List UInt8 → (n : Nat) → Octets n) (seed : Seed) (domain : Domain)
    (entity : String) (round : UInt64) : Identities where
  wwn := brandWwn (hash (seed.framed (parts domain entity)) 8)
  serial := String.ofList (encode (hash (seed.framed (parts domain entity)) 16).toList)
  mac := brandMac (hash (seed.framed (parts domain entity)) 6)
  uuid := brandUuid (hash (seed.framed (parts domain entity)) 16)
  group := groupOfBytes
    (hash (seed.framed (domain.map Text.utf8 ++ [Text.bigEndian 8 round.toNat])) 4)

/-- Identities and the bytes that were hashed for them: as many as each one takes, and four for the
group. The bits of a number are written highest first, so that `bitsOf 24 0x525400` are those of the
octets 52:54:00. -/
structure WellFormed (bytes : (n : Nat) → Octets n) (group : Octets 4) (i : Identities) : Prop where
  wwn_form : i.wwn.size = 64 ∧ i.wwn.naa = 5
  wwn_bits : bits i.wwn.bytes =
    overlay 0 (bitsOf 4 5 ++ bitsOf 24 0x525400) (bits (bytes 8).toList)
  wwn_restored : Wwn.parse i.wwn.toString = .ok i.wwn
  mac_bits : bits i.mac.octets.toList = overlay 0 (bitsOf 24 0x525400) (bits (bytes 6).toList)
  mac_restored : MacAddress.parse? i.mac.toString = some i.mac
  /-- Version 4 and the variant with the bits 10. -/
  uuid_bits : bits i.uuid.octets.toList =
    overlay 64 (bitsOf 2 2) (overlay 48 (bitsOf 4 4) (bits (bytes 16).toList))
  /-- Five bits a character, in the alphabet of base 32 with extended digits. -/
  serial_written : Base32Hex.Writes i.serial.toList
    (bits (bytes 16).toList ++ List.replicate 2 false)
  serial_length : i.serial.length = 26
  serial_alphabet : ∀ c ∈ i.serial.toList, Base32Hex.InRange c
  serial_unique : ∀ o : Octets 16, String.ofList (encode o.toList) = i.serial → o = bytes 16
  /-- In numbers without a bound, so that nothing overflows. -/
  group_value : i.group.toNat = 65536 + group.bits % (2147483647 - 65536)
  group_range : 65536 ≤ i.group.toNat ∧ i.group.toNat ≤ 2147483646

section Serials

variable (o : Octets 16)

theorem writes_serial :
    Base32Hex.Writes (encode o.toList) (bits o.toList ++ List.replicate 2 false) := by
  obtain ⟨k, hk, hwrites⟩ := writes_encode o.toList
  have hlength := hwrites.length_eq
  rw [List.length_append, length_bits, o.length_toList, List.length_replicate] at hlength
  have htwo : k = 2 := by omega
  rw [← htwo]
  exact hwrites

theorem length_serial : (encode o.toList).length = 26 := by
  have hlength := (writes_serial o).length_eq
  rw [List.length_append, length_bits, o.length_toList, List.length_replicate] at hlength
  omega

end Serials

/-- Whatever function hashes, the identities of a seed are well formed; and SHAKE128 is the one that
the seed's own are hashed by. -/
theorem identities_wellFormed (hash : List UInt8 → (n : Nat) → Octets n) (seed : Seed)
    (domain : Domain) (entity : String) (round : UInt64) :
    WellFormed (hash (seed.framed (parts domain entity)))
      (hash (seed.framed (domain.map Text.utf8 ++ [Text.bigEndian 8 round.toNat])) 4)
      (seed.identitiesBy hash domain entity round) ∧
    seed.identitiesBy Shake128.hash domain entity round =
      ⟨seed.wwn domain entity, seed.serial domain entity, seed.mac domain entity,
        seed.uuid domain entity, seed.groupId domain round⟩ := by
  refine ⟨?_, rfl⟩
  generalize hbytes : hash (seed.framed (parts domain entity)) = bytes
  generalize hgroup : hash (seed.framed (domain.map Text.utf8 ++
    [Text.bigEndian 8 round.toNat])) 4 = group
  have hidentities : seed.identitiesBy hash domain entity round =
      ⟨brandWwn (bytes 8), String.ofList (encode (bytes 16).toList), brandMac (bytes 6),
        brandUuid (bytes 16), groupOfBytes group⟩ := by
    rw [← hbytes, ← hgroup]
    rfl
  rw [hidentities]
  have hserial := writes_serial (bytes 16)
  refine {
    wwn_form := ⟨rfl, naa_brandWwn _⟩
    wwn_bits := bits_brandWwn _
    wwn_restored := parse_brandWwn _
    mac_bits := bits_brandMac _
    mac_restored := MacAddress.parse?_toString _
    uuid_bits := bits_brandUuid _
    serial_written := ?_
    serial_length := ?_
    serial_alphabet := ?_
    serial_unique := ?_
    group_value := toNat_groupOfBytes_eq group
    group_range := ?_ }
  · rw [String.toList_ofList]
    exact hserial
  · rw [String.length_ofList]
    exact length_serial _
  · rw [String.toList_ofList]
    exact fun c hc => alphabet_range c (hserial.mem_alphabet c hc)
  · intro o ho
    exact Octets.toList_injective (encode_injective (String.ofList_injective ho))
  · rw [toNat_groupOfBytes_eq]
    omega

end Seed

end GuestCompiler
