import GuestCompiler.Proofs.Numbering
import GuestCompiler.Proofs.PlainText

/-!
# Dotted names

Ids and buses share one set of names: a few parts with dots between. A name is known by its parts
(`dotted_injective`), and what it names by the name (`DottedName.text_injective`), since a root
port's name has the slot in hexadecimal digits, and no family is called as the root complex or the
SATA ports are.
-/
namespace GuestCompiler

open FamilyCounts

section Digits

theorem digitChar_injective {m n : Nat} (hm : m < 16) (hn : n < 16)
    (h : Nat.digitChar m = Nat.digitChar n) : m = n := by
  have hall : ∀ i j : Fin 16, Nat.digitChar i = Nat.digitChar j → i = j := by decide
  exact congrArg Fin.val (hall ⟨m, hm⟩ ⟨n, hn⟩ h)

theorem toDigits_injective {m n : Nat} (h : Nat.toDigits 16 m = Nat.toDigits 16 n) : m = n := by
  induction m using Nat.strongRecOn generalizing n with
  | ind m ih =>
    have hbase : 1 < 16 := by decide
    rcases Nat.lt_or_ge m 16 with hm | hm <;> rcases Nat.lt_or_ge n 16 with hn | hn
    · rw [Nat.toDigits_of_lt_base hm, Nat.toDigits_of_lt_base hn] at h
      exact digitChar_injective hm hn (List.cons.inj h).1
    · rw [Nat.toDigits_of_lt_base hm, Nat.toDigits_of_base_le hbase hn] at h
      simpa using congrArg List.length h
    · rw [Nat.toDigits_of_base_le hbase hm, Nat.toDigits_of_lt_base hn] at h
      simpa using congrArg List.length h
    · rw [Nat.toDigits_of_base_le hbase hm, Nat.toDigits_of_base_le hbase hn] at h
      obtain ⟨hfront, hlast⟩ := List.append_inj' h rfl
      have hquotient : m / 16 = n / 16 := ih (m / 16) (by omega) hfront
      have hremainder : m % 16 = n % 16 :=
        digitChar_injective (by omega) (by omega) (List.cons.inj hlast).1
      omega

end Digits

section Dotted

/-- Parts with dots between. -/
def dotted (parts : List String) : String := ".".intercalate parts

def NoDot (s : String) : Prop := '.' ∉ s.toList

instance (s : String) : Decidable (NoDot s) := inferInstanceAs (Decidable ('.' ∉ s.toList))

theorem noDot_ofList_toDigits (n : Nat) : NoDot (String.ofList (Nat.toDigits 16 n)) := by
  rw [NoDot, String.toList_ofList]
  intro hdot
  obtain ⟨k, hk⟩ := mem_toDigits (by decide) hdot
  exact Nat.digitChar_ne '.' rfl hk.symm

theorem noDot_toString (n : Nat) : NoDot (toString n) := by
  rw [NoDot, Nat.toString_eq_ofList_toDigits, String.toList_ofList]
  intro hdot
  obtain ⟨k, hk⟩ := mem_toDigits (by decide) hdot
  exact Nat.digitChar_ne '.' rfl hk.symm

theorem splitOn_dotted {parts : List String} (hne : parts ≠ []) (h : ∀ p ∈ parts, NoDot p) :
    (dotted parts).toList.splitOn '.' = parts.map String.toList := by
  rw [dotted, String.toList_intercalate]
  refine List.splitOn_intercalate '.' ?_ (by simpa using hne)
  intro cs hcs
  obtain ⟨p, hp, rfl⟩ := List.mem_map.1 hcs
  exact h p hp

theorem dotted_injective {ps qs : List String} (hps : ps ≠ []) (hqs : qs ≠ [])
    (hp : ∀ p ∈ ps, NoDot p) (hq : ∀ q ∈ qs, NoDot q) (h : dotted ps = dotted qs) : ps = qs := by
  have hchars : ps.map String.toList = qs.map String.toList := by
    rw [← splitOn_dotted hps hp, ← splitOn_dotted hqs hq, h]
  exact (List.map_injective_iff.2 fun _ _ hs => String.toList_inj.1 hs) hchars

end Dotted

/-- The families that devices are numbered in. -/
def families : List String :=
  ["panic", "qxl", "sata", "block", "nic", "vfio", "scsi", "usb", "serial"]

theorem Downstream.family_mem (d : Downstream) : d.family ∈ families := by
  cases d with
  | controller c =>
    rw [family]
    cases c.kind <;> simp [ControllerKind.family, families]
  | _ => simp [family, families]

theorem TopLevel.family_mem {d : TopLevel} {x : String × String} (hx : x ∈ d.numbered) :
    x.1 ∈ families := by
  cases d with
  | rootPort port =>
    obtain ⟨device, -, rfl⟩ := List.mem_map.1 hx
    exact device.family_mem
  | tpm _ => exact nomatch hx
  | _ =>
    obtain rfl := List.mem_singleton.1 hx
    simp [families]

/-- What ids and buses name. -/
inductive DottedName
  | complex
  | sata (k : Nat)
  | port (n : Nat)
  | numbered (family : String) (n : Nat)
  /-- The bus of a controller. -/
  | bus (family : String) (n : Nat)
  | endpoint (family : String) (n position : Nat)

namespace DottedName

def parts : DottedName → List String
  | complex => ["pcie", "0"]
  | sata k => ["ide", toString k]
  | port n => ["pcie", String.ofList (Nat.toDigits 16 (PciAddress.ofIndex n).slot),
    toString (PciAddress.ofIndex n).function]
  | numbered family n => [family, toString n]
  | bus family n => [family, toString n, "0"]
  | endpoint family n position => [family, toString n, "0", toString position]

def text (name : DottedName) : String := dotted name.parts

theorem text_complex : complex.text = "pcie.0" := by decide

theorem text_sata (k : Nat) : (sata k).text = "ide." ++ toString k := by
  simp [text, dotted, parts]

theorem text_port (n : Nat) : (port n).text = "pcie." ++ (PciAddress.ofIndex n).text := by
  simp [text, dotted, parts, PciAddress.text]

theorem text_numbered (family : String) (n : Nat) : (numbered family n).text = nth family n := by
  simp [text, dotted, parts, nth]

theorem text_bus (family : String) (n : Nat) : (bus family n).text = nth family n ++ ".0" := by
  simp [text, dotted, parts, nth, ← String.toList_inj]

theorem text_endpoint (family : String) (n position : Nat) :
    (endpoint family n position).text = nth family n ++ ".0" ++ "." ++ toString position := by
  simp [text, dotted, parts, nth, ← String.toList_inj]

def Proper : DottedName → Prop
  | complex => True
  | sata _ => True
  | port _ => True
  | numbered family _ => family ∈ families
  | bus family _ => family ∈ families
  | endpoint family _ _ => family ∈ families

theorem parts_ne_nil (name : DottedName) : name.parts ≠ [] := by cases name <;> simp [parts]

theorem noDot_family {family : String} (h : family ∈ families) : NoDot family := by
  have hall : ∀ f ∈ families, NoDot f := by decide
  exact hall family h

theorem family_ne {family : String} (h : family ∈ families) :
    family ≠ "pcie" ∧ family ≠ "ide" := by
  have hall : ∀ f ∈ families, f ≠ "pcie" ∧ f ≠ "ide" := by decide
  exact hall family h

theorem noDot_parts {name : DottedName} (h : name.Proper) : ∀ p ∈ name.parts, NoDot p := by
  have hzero : NoDot "0" := by decide
  have hpcie : NoDot "pcie" := by decide
  have hide : NoDot "ide" := by decide
  cases name with
  | complex => simp [parts, hzero, hpcie]
  | sata k => simpa [parts, hide] using noDot_toString k
  | port n => simpa [parts, hpcie, noDot_ofList_toDigits] using noDot_toString _
  | numbered family n => simpa [parts, noDot_family h] using noDot_toString n
  | bus family n => simpa [parts, noDot_family h, hzero] using noDot_toString n
  | endpoint family n position =>
    simpa [parts, noDot_family h, hzero] using ⟨noDot_toString n, noDot_toString position⟩

theorem parts_injective {a b : DottedName} (ha : a.Proper) (hb : b.Proper)
    (h : a.parts = b.parts) : a = b := by
  cases a <;> cases b <;> simp [parts] at h ⊢
  case port.port =>
    obtain ⟨hslot, hfunction⟩ := h
    have hslots : (PciAddress.ofIndex _).slot = (PciAddress.ofIndex _).slot :=
      toDigits_injective (String.ofList_injective hslot)
    simp only [PciAddress.ofIndex, PciAddress.functionsPerSlot] at hslots hfunction
    omega
  -- What is left of two different kinds has the first part of one as a family of the other.
  case complex.numbered => exact (family_ne hb).1 h.1.symm
  case sata.numbered => exact (family_ne hb).2 h.1.symm
  case port.bus => exact (family_ne hb).1 h.1.symm
  case numbered.complex => exact (family_ne ha).1 h.1
  case numbered.sata => exact (family_ne ha).2 h.1
  case bus.port => exact (family_ne ha).1 h.1
  all_goals exact h

theorem text_injective {a b : DottedName} (ha : a.Proper) (hb : b.Proper)
    (h : a.text = b.text) : a = b :=
  parts_injective ha hb
    (dotted_injective a.parts_ne_nil b.parts_ne_nil (noDot_parts ha) (noDot_parts hb) h)

end DottedName

theorem PciAddress.text_injective {m n : Nat} (h : (ofIndex m).text = (ofIndex n).text) :
    m = n := by
  have hport : (DottedName.port m).text = (DottedName.port n).text := by
    rw [DottedName.text_port, DottedName.text_port, h]
  exact DottedName.port.inj (DottedName.text_injective trivial trivial hport)

end GuestCompiler
