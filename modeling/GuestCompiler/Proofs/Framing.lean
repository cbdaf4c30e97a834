import GuestCompiler.Definition.Basic
import Mathlib.Algebra.Group.Nat.Defs

/-!
# Framing of what is hashed

An identity is hashed from a machine's id and a list of parts, each behind its length. No count of
the parts is written, yet the bytes read back in one way only: `framed_parts_inj` for any labels and
names, and `Derivation.input_injective` for the identities that a definition is filled up with
(`Definition.populateFrom`), whatever the length of the names.
-/
namespace GuestCompiler

namespace Text

theorem utf8_injective : Function.Injective utf8 := by
  intro s t h
  have hbytes : s.toList.utf8Encode = t.toList.utf8Encode := congrArg List.toByteArray h
  rw [String.utf8Encode_toList, String.utf8Encode_toList] at hbytes
  exact String.toByteArray_inj.1 hbytes

theorem ofBigEndian_append (bytes : List UInt8) (b : UInt8) :
    ofBigEndian (bytes ++ [b]) = 256 * ofBigEndian bytes + b.toNat := by
  simp [ofBigEndian]

theorem ofBigEndian_bigEndian (width n : Nat) :
    ofBigEndian (bigEndian width n) = n % 256 ^ width := by
  induction width generalizing n with
  | zero =>
    rw [Nat.pow_zero, Nat.mod_one]
    rfl
  | succ width ih =>
    have hdigit : (UInt8.ofNat (n % 256)).toNat = n % 256 := by
      rw [UInt8.toNat_ofNat', Nat.mod_mod]
    rw [bigEndian, ofBigEndian_append, ih, hdigit, Nat.pow_succ', Nat.mod_mul]
    omega

theorem bigEndian_inj {width m n : Nat} (hm : m < 256 ^ width) (hn : n < 256 ^ width)
    (h : bigEndian width m = bigEndian width n) : m = n := by
  have hvalue := congrArg ofBigEndian h
  rw [ofBigEndian_bigEndian, ofBigEndian_bigEndian] at hvalue
  rw [Nat.mod_eq_of_lt hm, Nat.mod_eq_of_lt hn] at hvalue
  exact hvalue

end Text

theorem Octets.toList_injective {n : Nat} : Function.Injective (Octets.toList (n := n)) := by
  rintro ⟨bytes, _⟩ ⟨other, _⟩ h
  simp only at h
  subst h
  rfl

namespace Seed

/-- Bytes whose number can be written in eight bytes. -/
def Countable (bytes : List UInt8) : Prop := bytes.length < 2 ^ 64

instance (bytes : List UInt8) : Decidable (Countable bytes) :=
  inferInstanceAs (Decidable (_ < _))

section Parts

variable {a b r s : List UInt8} {ps qs : List (List UInt8)}

/-- A part ends where its length says, whatever comes after it. -/
theorem prefixed_append_inj (ha : Countable a) (hb : Countable b)
    (h : prefixed a ++ r = prefixed b ++ s) : a = b ∧ r = s := by
  simp only [prefixed, List.append_assoc] at h
  have hheader : (Text.bigEndian 8 a.length).length = (Text.bigEndian 8 b.length).length := by
    rw [Text.length_bigEndian, Text.length_bigEndian]
  obtain ⟨hcount, hrest⟩ := List.append_inj h hheader
  have hlength : a.length = b.length := Text.bigEndian_inj ha hb hcount
  exact List.append_inj hrest hlength

/-- A last part needs no length to be read back. -/
theorem prefixed_injective : Function.Injective prefixed := by
  intro a b h
  have hheader : (Text.bigEndian 8 a.length).length = (Text.bigEndian 8 b.length).length := by
    rw [Text.length_bigEndian, Text.length_bigEndian]
  exact (List.append_inj h hheader).2

theorem prefixed_ne_nil (bytes : List UInt8) : prefixed bytes ≠ [] := by
  intro h
  have hlength := congrArg List.length h
  rw [prefixed, List.length_append, Text.length_bigEndian, List.length_nil] at hlength
  omega

theorem flatMap_prefixed_append_inj (hps : ∀ p ∈ ps, Countable p) (hqs : ∀ q ∈ qs, Countable q)
    (hlength : ps.length = qs.length)
    (h : ps.flatMap prefixed ++ r = qs.flatMap prefixed ++ s) : ps = qs ∧ r = s := by
  induction ps generalizing qs with
  | nil =>
    have hnil : qs = [] := List.eq_nil_of_length_eq_zero hlength.symm
    subst hnil
    exact ⟨rfl, h⟩
  | cons p ps ih =>
    cases qs with
    | nil => simp at hlength
    | cons q qs =>
      simp only [List.flatMap_cons, List.append_assoc] at h
      obtain ⟨hhead, htail⟩ := prefixed_append_inj (hps p (by simp)) (hqs q (by simp)) h
      have hps' : ∀ p ∈ ps, Countable p := fun p hp => hps p (by simp [hp])
      have hqs' : ∀ q ∈ qs, Countable q := fun q hq => hqs q (by simp [hq])
      obtain ⟨hparts, hrest⟩ := ih hps' hqs' (by simpa using hlength) htail
      exact ⟨by rw [hhead, hparts], hrest⟩

theorem eq_of_length_le_of_flatMap_prefixed (hps : ∀ p ∈ ps, Countable p)
    (hqs : ∀ q ∈ qs, Countable q) (hlength : ps.length ≤ qs.length)
    (h : ps.flatMap prefixed = qs.flatMap prefixed) : ps = qs := by
  -- All of `ps` is the front of `qs`, and no bytes are left for the other parts of `qs`.
  have hsplit : ps.flatMap prefixed ++ [] =
      (qs.take ps.length).flatMap prefixed ++ (qs.drop ps.length).flatMap prefixed := by
    rw [List.append_nil, ← List.flatMap_append, List.take_append_drop]
    exact h
  have htake : ∀ q ∈ qs.take ps.length, Countable q := fun q hq => hqs q (List.mem_of_mem_take hq)
  obtain ⟨heq, hrest⟩ := flatMap_prefixed_append_inj hps htake (by simp [hlength]) hsplit
  have hnone : qs.drop ps.length = [] := by
    cases hdrop : qs.drop ps.length with
    | nil => rfl
    | cons q rest =>
      rw [hdrop, List.flatMap_cons] at hrest
      exact absurd (List.append_eq_nil_iff.1 hrest.symm).1 (prefixed_ne_nil q)
  have hall := List.take_append_drop ps.length qs
  rw [hnone, List.append_nil] at hall
  exact heq.trans hall

/-- The number of parts is read off too: every part begins with its length, and nothing comes after
the last one. -/
theorem flatMap_prefixed_inj (hps : ∀ p ∈ ps, Countable p) (hqs : ∀ q ∈ qs, Countable q)
    (h : ps.flatMap prefixed = qs.flatMap prefixed) : ps = qs := by
  rcases Nat.le_total ps.length qs.length with hle | hle
  · exact eq_of_length_le_of_flatMap_prefixed hps hqs hle h
  · exact (eq_of_length_le_of_flatMap_prefixed hqs hps hle h.symm).symm

end Parts

variable {s t : Seed}

/-- What is hashed begins with sixteen bytes of id. -/
theorem framed_inj {ps qs : List (List UInt8)} (h : s.framed ps = t.framed qs) :
    s.id = t.id ∧
      (Text.utf8 s.name :: ps).flatMap prefixed = (Text.utf8 t.name :: qs).flatMap prefixed := by
  have hlength : s.id.octets.toList.length = t.id.octets.toList.length := by
    rw [s.id.octets.length_toList, t.id.octets.length_toList]
  obtain ⟨hid, hparts⟩ := List.append_inj h hlength
  exact ⟨congrArg Uuid.mk (Octets.toList_injective hid), hparts⟩

theorem framed_countable_inj {ps qs : List (List UInt8)} (hs : Countable (Text.utf8 s.name))
    (ht : Countable (Text.utf8 t.name)) (hps : ∀ p ∈ ps, Countable p)
    (hqs : ∀ q ∈ qs, Countable q) (h : s.framed ps = t.framed qs) : s = t ∧ ps = qs := by
  obtain ⟨hid, hparts⟩ := framed_inj h
  have hall := flatMap_prefixed_inj (List.forall_mem_cons.2 ⟨hs, hps⟩)
    (List.forall_mem_cons.2 ⟨ht, hqs⟩) hparts
  obtain ⟨hname, hrest⟩ := List.cons.inj hall
  have hseed : s = t := by
    obtain ⟨id, name⟩ := s
    obtain ⟨id', name'⟩ := t
    have hname' : name = name' := Text.utf8_injective hname
    simp only at hid hname'
    rw [hid, hname']
  exact ⟨hseed, hrest⟩

theorem parts_inj {d e : Domain} {x y : String} (h : parts d x = parts e y) : d = e ∧ x = y := by
  have hlength := congrArg List.length h
  simp only [parts, List.length_append, List.length_map, List.length_singleton] at hlength
  obtain ⟨hlabels, hentity⟩ := List.append_inj h (by simp; omega)
  refine ⟨(List.map_inj_right fun _ _ hl => Text.utf8_injective hl).1 hlabels, ?_⟩
  exact Text.utf8_injective (List.cons.inj hentity).1

theorem countable_parts {d : Domain} {x : String} (hd : ∀ l ∈ d, Countable (Text.utf8 l))
    (hx : Countable (Text.utf8 x)) : ∀ p ∈ parts d x, Countable p := by
  intro p hp
  rcases List.mem_append.1 hp with hlabel | hentity
  · obtain ⟨l, hl, rfl⟩ := List.mem_map.1 hlabel
    exact hd l hl
  · rw [List.mem_singleton.1 hentity]
    exact hx

/-- The texts that an identity is derived from can be counted in eight bytes. -/
structure Framable (s : Seed) (domain : Domain) (entity : String) : Prop where
  name : Countable (Text.utf8 s.name)
  labels : ∀ l ∈ domain, Countable (Text.utf8 l)
  entity : Countable (Text.utf8 entity)

end Seed

/-- What an entry of a definition can take from its machine's seed. -/
inductive EntryIdentity
  | volumeWwn
  | volumeSerial
  | connectionMac
  | deviceId
  deriving DecidableEq

namespace EntryIdentity

def domain : EntryIdentity → Seed.Domain
  | volumeWwn => Seed.volumeWwn
  | volumeSerial => Seed.volumeSerial
  | connectionMac => Seed.connectionMac
  | deviceId => Seed.deviceId

theorem domain_inj {k l : EntryIdentity} (h : k.domain = l.domain) : k = l := by
  revert h
  cases k <;> cases l <;> decide

theorem take_domain (k : EntryIdentity) : k.domain.take 2 = k.domain := by
  cases k <;> rfl

theorem domain_ne_group (k : EntryIdentity) : k.domain ≠ Seed.fileSystemGroup.take 2 := by
  cases k <;> decide

theorem countable_labels (k : EntryIdentity) :
    ∀ label ∈ k.domain.map Text.utf8, Seed.Countable label := by
  cases k <;> decide +kernel

end EntryIdentity

/-- What a definition's identities are derived for: an entry by its name, and its group in one of
the rounds. -/
inductive Derivation
  | entry (kind : EntryIdentity) (name : String)
  | group (round : UInt64)

namespace Derivation

def domain : Derivation → Seed.Domain
  | entry kind _ => kind.domain
  | group _ => Seed.fileSystemGroup

def subject : Derivation → List UInt8
  | entry _ name => Text.utf8 name
  | group round => Text.bigEndian 8 round.toNat

def input (seed : Seed) (d : Derivation) : List UInt8 :=
  seed.framed (d.domain.map Text.utf8 ++ [d.subject])

def hash (seed : Seed) (d : Derivation) (n : Nat) : Octets n := Shake128.hash (d.input seed) n

/-- The first two labels tell the domains apart. -/
theorem domain_eq_of_take {d e : Derivation} (h : d.domain.take 2 = e.domain.take 2) :
    d.domain = e.domain := by
  cases d with
  | entry k name =>
    cases e with
    | entry l other =>
      rw [domain, domain, k.take_domain, l.take_domain] at h
      exact h
    | group round =>
      rw [domain, k.take_domain] at h
      exact absurd h k.domain_ne_group
  | group round =>
    cases e with
    | entry l other =>
      rw [domain, domain, l.take_domain] at h
      exact absurd h.symm l.domain_ne_group
    | group other => rfl

theorem eq_of_domain_of_subject {d e : Derivation} (hdomain : d.domain = e.domain)
    (hsubject : d.subject = e.subject) : d = e := by
  cases d with
  | entry k name =>
    cases e with
    | entry l other =>
      rw [EntryIdentity.domain_inj hdomain, Text.utf8_injective hsubject]
    | group round => exact absurd (k.take_domain.symm.trans (congrArg _ hdomain)) k.domain_ne_group
  | group round =>
    cases e with
    | entry l other =>
      exact absurd (l.take_domain.symm.trans (congrArg _ hdomain.symm)) l.domain_ne_group
    | group other =>
      have hround : round.toNat = other.toNat :=
        Text.bigEndian_inj round.toNat_lt other.toNat_lt hsubject
      rw [UInt64.toNat_inj.1 hround]

theorem countable_labels (d : Derivation) :
    ∀ label ∈ d.domain.map Text.utf8, Seed.Countable label := by
  cases d with
  | entry k name => exact k.countable_labels
  | group round =>
    change ∀ label ∈ Seed.fileSystemGroup.map Text.utf8, Seed.Countable label
    decide +kernel

theorem length_take_domain (d : Derivation) : (d.domain.take 2).length = 2 := by
  cases d with
  | entry k name => cases k <;> rfl
  | group round => rfl

/-- The labels come first and are short, so that they are read back first. What is left is the
subject behind its length, and that needs no bound. -/
theorem input_injective (seed : Seed) : Function.Injective (input seed) := by
  intro d e h
  obtain ⟨-, hparts⟩ := Seed.framed_inj h
  simp only [List.flatMap_cons, List.append_cancel_left_eq, List.flatMap_append] at hparts
  -- Groups have one label more than entries, so that only as many as all have are compared first.
  have hsplit (d : Derivation) (r : List UInt8) :
      (d.domain.map Text.utf8).flatMap Seed.prefixed ++ r =
        ((d.domain.take 2).map Text.utf8).flatMap Seed.prefixed ++
          (((d.domain.drop 2).map Text.utf8).flatMap Seed.prefixed ++ r) := by
    rw [← List.append_assoc, ← List.flatMap_append, ← List.map_append, List.take_append_drop]
  have htake (d : Derivation) :
      ∀ label ∈ (d.domain.take 2).map Text.utf8, Seed.Countable label := fun label hl =>
    d.countable_labels label (List.map_subset _ (List.take_subset _ _) hl)
  have hlabels : d.domain.take 2 = e.domain.take 2 := by
    rw [hsplit d, hsplit e] at hparts
    obtain ⟨heq, -⟩ := Seed.flatMap_prefixed_append_inj (htake d) (htake e)
      (by simp only [List.length_map, length_take_domain]) hparts
    exact (List.map_inj_right fun _ _ hl => Text.utf8_injective hl).1 heq
  have hdomain : d.domain = e.domain := domain_eq_of_take hlabels
  rw [hdomain] at hparts
  have hsubject : d.subject = e.subject := by
    apply Seed.prefixed_injective
    simpa using hparts
  exact eq_of_domain_of_subject hdomain hsubject

end Derivation

/-- A definition whose absent identities are taken from what is hashed for each of them. -/
def Definition.populateFrom (hash : Derivation → (n : Nat) → Octets n) (machine : String)
    (d : Definition) : Definition :=
  let entry := fun kind name => hash (.entry kind name)
  { d with
    group := ⟨orText d.group.name ("qforge-" ++ machine),
      orNumber d.group.id (Seed.groupOfBytes (hash (.group 0) 4))⟩
    volumes := d.volumes.map fun v => if v.name = "" then v else { v with
      wwn := some (v.wwn.getD (Seed.brandWwn (entry .volumeWwn v.name 8)))
      serial := if v.serial = "" then
        String.ofList (Text.Base32Hex.encode (entry .volumeSerial v.name 16).toList)
        else v.serial }
    connections := d.connections.map fun c => if c.name = "" then c else { c with
      mac := some (c.mac.getD (Seed.brandMac (entry .connectionMac c.name 6))) }
    devices := d.devices.map fun v => if v.name = "" then v else { v with
      id := some (v.id.getD (Seed.brandUuid (entry .deviceId v.name 16))) } }

theorem Definition.populate_eq_populateFrom (d : Definition) (machine : String) (seed : Seed) :
    d.populate machine seed = d.populateFrom (Derivation.hash seed) machine :=
  rfl

theorem Seed.groupId_eq_hash (s : Seed) (round : UInt64) :
    s.groupId fileSystemGroup round = groupOfBytes (Derivation.hash s (.group round) 4) :=
  rfl

namespace Seed

/-- What is hashed determines the machine, the labels and the name that it is hashed for; and for
one machine no two identities, whatever the names of the entries, are hashed from the same bytes.
Those identities are all that a definition is filled up with, and the group of any round is one. -/
theorem framed_unambiguous :
    (∀ (s t : Seed) (d e : Domain) (x y : String), s.Framable d x → t.Framable e y →
      (s.framed (parts d x) = t.framed (parts e y) ↔
        s.id = t.id ∧ s.name = t.name ∧ d = e ∧ x = y)) ∧
    ∀ s : Seed, Function.Injective (Derivation.input s) ∧
      (∀ (d : Definition) (machine : String),
        d.populate machine s = d.populateFrom (Derivation.hash s) machine) ∧
      ∀ round : UInt64,
        s.groupId fileSystemGroup round = groupOfBytes (Derivation.hash s (.group round) 4) := by
  refine ⟨?_, fun s => ⟨Derivation.input_injective s,
    fun d machine => d.populate_eq_populateFrom machine s, s.groupId_eq_hash⟩⟩
  intro s t d e x y hs ht
  constructor
  · intro h
    obtain ⟨rfl, hparts⟩ := framed_countable_inj hs.name ht.name
      (countable_parts hs.labels hs.entity) (countable_parts ht.labels ht.entity) h
    obtain ⟨rfl, rfl⟩ := parts_inj hparts
    exact ⟨rfl, rfl, rfl, rfl⟩
  · rintro ⟨hid, hname, rfl, rfl⟩
    obtain ⟨id, name⟩ := s
    obtain ⟨id', name'⟩ := t
    simp only at hid hname
    rw [hid, hname]

/-- A border between labels is seen, although the labels read the same side by side. -/
theorem framed_sees_borders :
    let s : Seed := ⟨default, "alpha"⟩
    s.Framable ["ab"] "c" ∧ s.Framable ["a"] "bc" ∧
      s.framed (parts ["ab"] "c") ≠ s.framed (parts ["a"] "bc") := by
  intro s
  have hleft : s.Framable ["ab"] "c" := ⟨by decide, by decide, by decide⟩
  have hright : s.Framable ["a"] "bc" := ⟨by decide, by decide, by decide⟩
  refine ⟨hleft, hright, ?_⟩
  intro h
  have hlabels := ((framed_unambiguous.1 s s ["ab"] ["a"] "c" "bc" hleft hright).1 h).2.2.1
  exact absurd hlabels (by decide)

end Seed

end GuestCompiler
