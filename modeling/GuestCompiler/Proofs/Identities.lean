import GuestCompiler.Machine.Basic
import GuestCompiler.Proofs.Bits
import GuestCompiler.Proofs.Edit
import GuestCompiler.Proofs.Merging

/-!
# Where identities come from

An entry of a resolved definition is the first one of its name among the machine's own definition
and those of its tags, filled up from the machine's seed and the entry's name. Two resolutions of
machines of one id and name therefore give entries of one name the same identities, whatever else
is in the definitions: `identities_stable`.
-/
namespace GuestCompiler

namespace Catalog

variable {c : Catalog} {machine : String} {names : List String} {tags : List Definition}

/-- The tags that are collected are the ones found under the names, one for each. -/
theorem collectTags_eq_ok_iff : c.collectTags machine names = .ok tags ↔
    List.Forall₂ (fun name d => c.tags.get? name = some d) names tags := by
  rw [collectTags, Edit.exceptMapM_eq_ok]
  refine iff_of_eq (congrArg (List.Forall₂ · names tags) (funext₂ fun name d => propext ?_))
  cases c.tags.get? name <;> simp

theorem collectTags_eq_ok (h : c.collectTags machine names = .ok tags) :
    tags = names.filterMap c.tags.get? := by
  rw [collectTags_eq_ok_iff] at h
  induction h with
  | nil => rfl
  | cons hname _ ih => rw [List.filterMap_cons_some hname, ← ih]

end Catalog

namespace Machine

/-- The definitions that a machine is resolved from: its own, and then its tags' in order. -/
def fragments (m : Machine) (c : Catalog) : List Definition :=
  m.definition :: m.tags.filterMap c.tags.get?

theorem resolve_eq_ok_iff {m : Machine} {c : Catalog} {d : Definition} : m.resolve c = .ok d ↔
    ∃ tags, c.collectTags m.name m.tags = .ok tags ∧
      d = (Definition.merge (m.definition :: tags)).populate m.name m.info.seed := by
  simp only [resolve]
  cases c.collectTags m.name m.tags with
  | error e => simp [bind, Except.bind]
  | ok tags => simp [bind, Except.bind, pure, Except.pure, eq_comm]

theorem eq_of_resolve {m : Machine} {c : Catalog} {d : Definition} (h : m.resolve c = .ok d) :
    d = (Definition.merge (m.fragments c)).populate m.name m.info.seed := by
  obtain ⟨tags, htags, rfl⟩ := resolve_eq_ok_iff.1 h
  rw [fragments, Catalog.collectTags_eq_ok htags]

end Machine

theorem find?_firsts {α κ : Type} [DecidableEq κ] (key : α → κ) (xs : List α) (k : κ) :
    (firsts key xs).find? (key · == k) = xs.find? (key · == k) := by
  induction xs with
  | nil => rfl
  | cons x xs ih =>
    by_cases hx : key x = k
    · simp [firsts, hx]
    · have hskip (ys : List α) : (x :: ys).find? (key · == k) = ys.find? (key · == k) := by
        simp [hx]
      rw [firsts, hskip, hskip, List.find?_filter, ← ih]
      -- What has the key sought has not the key of `x`.
      congr 1
      funext y
      by_cases hy : key y = k
      · simp [hy, Ne.symm hx]
      · simp [hy]

/-- An identity that entries of a definition have: which entries, by what name they are told apart,
and what an entry says itself. -/
structure Identifier (α β : Type) where
  entries : Definition → List α
  name : α → String
  value : α → Option β

namespace Identifier

def volumeWwn : Identifier Volume Wwn := ⟨Definition.volumes, Volume.name, Volume.wwn⟩

def volumeSerial : Identifier Volume String :=
  ⟨Definition.volumes, Volume.name, fun v => if v.serial = "" then none else some v.serial⟩

def connectionMac : Identifier Connection MacAddress :=
  ⟨Definition.connections, Connection.name, Connection.mac⟩

def deviceId : Identifier Device Uuid := ⟨Definition.devices, Device.name, Device.id⟩

variable {α β : Type}

/-- The entry of a name that counts: the first one. -/
def winner? (i : Identifier α β) (defs : List Definition) (name : String) : Option α :=
  (defs.flatMap i.entries).find? (i.name · == name)

/-- How a resolved definition comes by an identity: entries are merged by name, and then filled up
with what the seed and the name determine. -/
structure Seeded (i : Identifier α β) (fill : Seed → α → α) (derive : Seed → String → β) :
    Prop where
  merge : ∀ defs, i.entries (Definition.merge defs) = firsts i.name (defs.flatMap i.entries)
  populate : ∀ machine seed d, i.entries (d.populate machine seed) = (i.entries d).map (fill seed)
  name_fill : ∀ seed e, i.name (fill seed e) = i.name e
  value_fill : ∀ seed e, i.value (fill seed e) =
    if i.name e = "" then i.value e else some ((i.value e).getD (derive seed (i.name e)))

theorem volumeWwn_seeded :
    volumeWwn.Seeded Volume.populate fun seed name => seed.wwn Seed.volumeWwn name where
  merge := Definition.firsts_merge Definition.volumes (fun _ _ => rfl) rfl
  populate _ _ _ := rfl
  name_fill seed v := by
    by_cases hname : v.name = "" <;> simp [volumeWwn, Volume.populate, hname]
  value_fill seed v := by
    by_cases hname : v.name = "" <;> simp [volumeWwn, Volume.populate, hname]

theorem serial_ne_empty (seed : Seed) (domain : Seed.Domain) (name : String) :
    seed.serial domain name ≠ "" := by
  intro h
  have hroom := Text.Base32Hex.length_bits_le (seed.derive domain name 16).toList
  have hencode := congrArg String.toList h
  rw [Seed.serial, String.toList_ofList, String.toList_empty] at hencode
  rw [hencode, Octets.length_toList, List.length_nil] at hroom
  omega

theorem volumeSerial_seeded :
    volumeSerial.Seeded Volume.populate fun seed name => seed.serial Seed.volumeSerial name where
  merge := Definition.firsts_merge Definition.volumes (fun _ _ => rfl) rfl
  populate _ _ _ := rfl
  name_fill := volumeWwn_seeded.name_fill
  value_fill seed v := by
    have hserial := serial_ne_empty seed Seed.volumeSerial v.name
    simp only [volumeSerial, Volume.populate]
    by_cases hname : v.name = ""
    · simp [hname]
    · by_cases hown : v.serial = ""
      · simp [hname, hown, hserial]
      · simp [hname, hown]

theorem connectionMac_seeded :
    connectionMac.Seeded Connection.populate fun seed name => seed.mac Seed.connectionMac name where
  merge := Definition.firsts_merge Definition.connections (fun _ _ => rfl) rfl
  populate _ _ _ := rfl
  name_fill seed c := by
    by_cases hname : c.name = "" <;> simp [connectionMac, Connection.populate, hname]
  value_fill seed c := by
    by_cases hname : c.name = "" <;> simp [connectionMac, Connection.populate, hname]

theorem deviceId_seeded :
    deviceId.Seeded Device.populate fun seed name => seed.uuid Seed.deviceId name where
  merge := Definition.firsts_merge Definition.devices (fun _ _ => rfl) rfl
  populate _ _ _ := rfl
  name_fill seed d := by
    by_cases hname : d.name = "" <;> simp [deviceId, Device.populate, hname]
  value_fill seed d := by
    by_cases hname : d.name = "" <;> simp [deviceId, Device.populate, hname]

/-- What an entry sets itself, it keeps. -/
def KeepsOwn (i : Identifier α β) (defs : List Definition) (d : Definition) : Prop :=
  ∀ e ∈ i.entries d, ∃ w, i.winner? defs (i.name e) = some w ∧
    ∀ x, i.value w = some x → i.value e = some x

/-- Entries of one name that set nothing themselves have one value. -/
def Agrees (i : Identifier α β) (defs defs' : List Definition) (d d' : Definition) : Prop :=
  ∀ e ∈ i.entries d, ∀ e' ∈ i.entries d', i.name e = i.name e' → i.name e ≠ "" →
    ∃ w w', i.winner? defs (i.name e) = some w ∧ i.winner? defs' (i.name e') = some w' ∧
      (i.value w = none → i.value w' = none → ∃ x, i.value e = some x ∧ i.value e' = some x)

variable {i : Identifier α β} {fill : Seed → α → α} {derive : Seed → String → β}

/-- An entry of a resolved definition is the one that counts, filled up. -/
theorem Seeded.exists_winner (h : i.Seeded fill derive) {m : Machine} {c : Catalog}
    {d : Definition} (hd : m.resolve c = .ok d) {e : α} (he : e ∈ i.entries d) :
    ∃ w, i.winner? (m.fragments c) (i.name e) = some w ∧ i.name w = i.name e ∧
      e = fill m.info.seed w := by
  rw [Machine.eq_of_resolve hd, h.populate] at he
  obtain ⟨w, hw, rfl⟩ := List.mem_map.1 he
  rw [h.merge] at hw
  -- A name is left once by the merge, so the entry found is the first of its name in the fragments.
  have hfound := find?_of_mem_of_nodup (nodup_map_firsts i.name _) hw
  rw [find?_firsts] at hfound
  refine ⟨w, ?_, (h.name_fill _ w).symm, rfl⟩
  rw [h.name_fill]
  exact hfound

theorem Seeded.keepsOwn (h : i.Seeded fill derive) {m : Machine} {c : Catalog} {d : Definition}
    (hd : m.resolve c = .ok d) : i.KeepsOwn (m.fragments c) d := by
  intro e he
  obtain ⟨w, hw, -, rfl⟩ := h.exists_winner hd he
  refine ⟨w, hw, ?_⟩
  intro x hx
  rw [h.value_fill, hx]
  split <;> rfl

/-- Nothing but the seed and the name reaches a value that is derived. -/
theorem Seeded.agrees (h : i.Seeded fill derive) {m m' : Machine} {c c' : Catalog}
    {d d' : Definition} (hseed : m.info.seed = m'.info.seed) (hd : m.resolve c = .ok d)
    (hd' : m'.resolve c' = .ok d') : i.Agrees (m.fragments c) (m'.fragments c') d d' := by
  intro e he e' he' hname hne
  obtain ⟨w, hw, hwname, hfill⟩ := h.exists_winner hd he
  obtain ⟨w', hw', hwname', hfill'⟩ := h.exists_winner hd' he'
  refine ⟨w, w', hw, hw', ?_⟩
  intro hnone hnone'
  refine ⟨derive m.info.seed (i.name e), ?_, ?_⟩
  · rw [hfill, h.value_fill, ← hfill, hwname, if_neg hne, hnone]
    rfl
  · rw [hfill', h.value_fill, hwname', ← hname, if_neg hne, hnone', hseed]
    rfl

end Identifier

namespace Definition

/-- What its entries set themselves, a definition resolved from some fragments has. -/
structure KeepsSet (defs : List Definition) (d : Definition) : Prop where
  volumeWwn : Identifier.volumeWwn.KeepsOwn defs d
  volumeSerial : Identifier.volumeSerial.KeepsOwn defs d
  connectionMac : Identifier.connectionMac.KeepsOwn defs d
  deviceId : Identifier.deviceId.KeepsOwn defs d
  groupId : ∀ f, defs.find? (·.group.id ≠ 0) = some f → d.group.id = f.group.id

/-- What is set nowhere is the same in two resolved definitions. -/
structure SharesDerived (defs defs' : List Definition) (d d' : Definition) : Prop where
  volumeWwn : Identifier.volumeWwn.Agrees defs defs' d d'
  volumeSerial : Identifier.volumeSerial.Agrees defs defs' d d'
  connectionMac : Identifier.connectionMac.Agrees defs defs' d d'
  deviceId : Identifier.deviceId.Agrees defs defs' d d'
  groupId : (∀ f ∈ defs, f.group.id = 0) → (∀ f ∈ defs', f.group.id = 0) →
    d.group.id = d'.group.id

end Definition

namespace Machine

variable {m : Machine} {c : Catalog} {d : Definition}

/-- The group id that some fragment sets first, or the one that the seed determines. -/
theorem groupId_of_resolve (h : m.resolve c = .ok d) : d.group.id =
    (((m.fragments c).find? (·.group.id ≠ 0)).map (·.group.id)).getD
      (m.info.seed.groupId Seed.fileSystemGroup 0) := by
  have hmerge := Definition.firstSet_merge (·.group.id) (· = 0) (fun _ _ => rfl) rfl (m.fragments c)
  have hpopulate : d.group.id = orNumber (Definition.merge (m.fragments c)).group.id
      (m.info.seed.groupId Seed.fileSystemGroup 0) := by
    rw [eq_of_resolve h]
    rfl
  rw [hpopulate, orNumber]
  simp only [FirstSet, List.find?_map, Function.comp_def] at hmerge
  cases hfound : (m.fragments c).find? (·.group.id ≠ 0) with
  | none =>
    simp only [hfound, Option.map_none] at hmerge
    rw [hmerge]
    rfl
  | some f =>
    have hset : f.group.id ≠ 0 := by simpa using List.find?_some hfound
    simp only [hfound, Option.map_some] at hmerge
    rw [hmerge, if_neg hset]
    rfl

theorem keepsSet_of_resolve (h : m.resolve c = .ok d) :
    Definition.KeepsSet (m.fragments c) d where
  volumeWwn := Identifier.volumeWwn_seeded.keepsOwn h
  volumeSerial := Identifier.volumeSerial_seeded.keepsOwn h
  connectionMac := Identifier.connectionMac_seeded.keepsOwn h
  deviceId := Identifier.deviceId_seeded.keepsOwn h
  groupId f hf := by rw [groupId_of_resolve h, hf]; rfl

/-- The identities of a machine's parts are the ones that they set, and else depend on nothing but
the machine's id and name and the part's own name. -/
theorem identities_stable {m₁ m₂ : Machine} {c₁ c₂ : Catalog} {d₁ d₂ : Definition}
    (hid : m₁.id = m₂.id) (hname : m₁.name = m₂.name) (h₁ : m₁.resolve c₁ = .ok d₁)
    (h₂ : m₂.resolve c₂ = .ok d₂) :
    Definition.SharesDerived (m₁.fragments c₁) (m₂.fragments c₂) d₁ d₂ ∧
      Definition.KeepsSet (m₁.fragments c₁) d₁ ∧ Definition.KeepsSet (m₂.fragments c₂) d₂ := by
  have hseed : m₁.info.seed = m₂.info.seed := by
    simp only [MachineInfo.seed, info, hid, hname]
  refine ⟨?_, keepsSet_of_resolve h₁, keepsSet_of_resolve h₂⟩
  exact {
    volumeWwn := Identifier.volumeWwn_seeded.agrees hseed h₁ h₂
    volumeSerial := Identifier.volumeSerial_seeded.agrees hseed h₁ h₂
    connectionMac := Identifier.connectionMac_seeded.agrees hseed h₁ h₂
    deviceId := Identifier.deviceId_seeded.agrees hseed h₁ h₂
    groupId := by
      intro hunset₁ hunset₂
      have hnone {defs : List Definition} (hdefs : ∀ f ∈ defs, f.group.id = 0) :
          defs.find? (·.group.id ≠ 0) = none := by
        simpa using hdefs
      rw [groupId_of_resolve h₁, groupId_of_resolve h₂, hnone hunset₁, hnone hunset₂, hseed] }

end Machine

namespace Sample

def os : Volume := { name := "os", storage := "images" }

/-- A machine with a disk of its own. -/
def laptop : Machine where
  name := "lap"
  definition := { volumes := [os] }

/-- The machine after its disk has moved to a tag, with another one before it. -/
def tagged : Machine where
  name := "lap"
  tags := ["base"]
  definition := { volumes := [{ name := "data", storage := "images" }] }

def tagCatalog : Catalog where
  tags := .ofList [("base", { volumes := [{ os with bootable := true }] })]

/-- The disk keeps its World Wide Name. -/
theorem laptop_identities_stable : ∃ d₁ d₂ : Definition, laptop.resolve {} = .ok d₁ ∧
    tagged.resolve tagCatalog = .ok d₂ ∧ ∃ v₁ ∈ d₁.volumes, ∃ v₂ ∈ d₂.volumes,
      v₁.name = "os" ∧ v₂.name = "os" ∧ ∃ wwn, v₁.wwn = some wwn ∧ v₂.wwn = some wwn := by
  have h₁ : laptop.resolve {} =
      .ok ((Definition.merge (laptop.fragments {})).populate laptop.name laptop.info.seed) := rfl
  have h₂ : tagged.resolve tagCatalog = .ok
      ((Definition.merge (tagged.fragments tagCatalog)).populate tagged.name tagged.info.seed) :=
    rfl
  have hid : laptop.id = tagged.id := rfl
  obtain ⟨hshared, -, -⟩ := Machine.identities_stable hid rfl h₁ h₂
  have hmem₁ : os.populate laptop.info.seed ∈ laptop.definition.volumes.map
      (Volume.populate laptop.info.seed) := List.mem_map_of_mem (List.mem_singleton_self os)
  have hmem₂ : Volume.populate tagged.info.seed { os with bootable := true } ∈
      ((Definition.merge (tagged.fragments tagCatalog)).volumes.map
        (Volume.populate tagged.info.seed)) := List.mem_map_of_mem (.tail _ (.head _))
  obtain ⟨w₁, w₂, hw₁, hw₂, hagree⟩ := hshared.volumeWwn _ hmem₁ _ hmem₂ rfl (by decide)
  cases hw₁
  cases hw₂
  obtain ⟨wwn, hwwn₁, hwwn₂⟩ := hagree rfl rfl
  exact ⟨_, _, h₁, h₂, _, hmem₁, _, hmem₂, rfl, rfl, wwn, hwwn₁, hwwn₂⟩

end Sample

end GuestCompiler
