import GuestCompiler.Proofs.Layering

/-!
# Resolving once and for all

Populating a definition changes nothing that is set, and leaves nothing unset that it could set
(`Definition.KeptBy`, `Definition.Settled`), so that a definition that has been populated stays as
it is. Merged under its own layers it stays as it is too. So a machine that is given the definition
it resolves to resolves to it again, with its tags and without them (`Machine.resolve_resolved`).
-/
namespace GuestCompiler

namespace Seed

/-- The numbers that a group id is made of are too small to overflow. -/
theorem toNat_groupOfBytes (o : Octets 4) :
    (groupOfBytes o).toNat = 65536 + o.bits % 4294967296 % 2147418111 := by
  have hmod : o.bits % 4294967296 % 2147418111 < 2147418111 := Nat.mod_lt _ (by decide)
  have hrange : (groupIdBound - groupIdMin).toNat = 2147418111 := rfl
  rw [groupOfBytes, UInt32.toNat_add, UInt32.toNat_mod, hrange, UInt32.toNat_ofNat']
  change (65536 + o.bits % 4294967296 % 2147418111) % 4294967296 = _
  omega

theorem groupId_ne_zero (seed : Seed) (domain : Domain) (round : UInt64) :
    seed.groupId domain round ≠ 0 := by
  intro h
  have hnat := congrArg UInt32.toNat h
  rw [groupId, toNat_groupOfBytes, UInt32.toNat_zero] at hnat
  omega

end Seed

theorem orNumber_ne_zero {α : Type} [OfNat α 0] [DecidableEq α] {a b : α} (h : b ≠ 0) :
    orNumber a b ≠ 0 := by
  unfold orNumber
  split <;> assumption

theorem orText_ne_empty {a b : String} (h : b ≠ "") : orText a b ≠ "" := by
  unfold orText
  split <;> assumption

section Kept

/-- What a volume says, another one says too, and may add an identity. -/
structure Volume.KeptBy (v v' : Volume) : Prop where
  rest : v' = { v with wwn := v'.wwn, serial := v'.serial }
  wwn : ∀ wwn, v.wwn = some wwn → v'.wwn = some wwn
  serial : v.serial ≠ "" → v'.serial = v.serial

structure Connection.KeptBy (c c' : Connection) : Prop where
  rest : c' = { c with mac := c'.mac }
  mac : ∀ mac, c.mac = some mac → c'.mac = some mac

structure Device.KeptBy (d d' : Device) : Prop where
  rest : d' = { d with id := d'.id }
  id : ∀ id, d.id = some id → d'.id = some id

structure Group.KeptBy (g g' : Group) : Prop where
  name : g.name ≠ "" → g'.name = g.name
  id : g.id ≠ 0 → g'.id = g.id

/-- All that is set in a definition is set in another one, entry by entry. -/
structure Definition.KeptBy (d d' : Definition) : Prop where
  vars : d'.vars = d.vars
  attributes : d'.attributes = d.attributes
  group : d.group.KeptBy d'.group
  volumes : List.Forall₂ Volume.KeptBy d.volumes d'.volumes
  connections : List.Forall₂ Connection.KeptBy d.connections d'.connections
  devices : List.Forall₂ Device.KeptBy d.devices d'.devices

variable {machine : String} {seed : Seed}

theorem Volume.keptBy_populate (v : Volume) : v.KeptBy (v.populate seed) := by
  unfold populate
  split
  · exact ⟨rfl, fun _ => id, fun _ => rfl⟩
  · exact ⟨rfl, fun wwn h => by rw [h]; rfl, fun h => if_neg h⟩

theorem Connection.keptBy_populate (c : Connection) : c.KeptBy (c.populate seed) := by
  unfold populate
  split
  · exact ⟨rfl, fun _ => id⟩
  · exact ⟨rfl, fun mac h => by rw [h]; rfl⟩

theorem Device.keptBy_populate (d : Device) : d.KeptBy (d.populate seed) := by
  unfold populate
  split
  · exact ⟨rfl, fun _ h => h⟩
  · exact ⟨rfl, fun id h => by rw [h]; rfl⟩

theorem Group.keptBy_populate (g : Group) : g.KeptBy (g.populate machine seed) :=
  ⟨fun h => if_neg h, fun h => if_neg h⟩

@[simp]
theorem Volume.name_populate (v : Volume) : (v.populate seed).name = v.name :=
  Identifier.volumeWwn_seeded.name_fill seed v

@[simp]
theorem Connection.name_populate (c : Connection) : (c.populate seed).name = c.name :=
  Identifier.connectionMac_seeded.name_fill seed c

@[simp]
theorem Device.name_populate (d : Device) : (d.populate seed).name = d.name :=
  Identifier.deviceId_seeded.name_fill seed d

theorem forall₂_map_right {α : Type} {R : α → α → Prop} {f : α → α} (h : ∀ a, R a (f a))
    (as : List α) : List.Forall₂ R as (as.map f) :=
  List.forall₂_map_right_iff.2 (List.forall₂_same.2 fun a _ => h a)

/-- Populating overwrites nothing. -/
theorem Definition.keptBy_populate (d : Definition) : d.KeptBy (d.populate machine seed) where
  vars := rfl
  attributes := rfl
  group := d.group.keptBy_populate
  volumes := forall₂_map_right Volume.keptBy_populate _
  connections := forall₂_map_right Connection.keptBy_populate _
  devices := forall₂_map_right Device.keptBy_populate _

end Kept

namespace Definition

variable {d f : Definition} {machine : String} {seed : Seed}

/-- No identity is missing where there is a name to derive it from. -/
structure Settled (d : Definition) : Prop where
  groupName : d.group.name ≠ ""
  groupId : d.group.id ≠ 0
  volumes : ∀ v ∈ d.volumes, v.name ≠ "" → v.wwn.isSome = true ∧ v.serial ≠ ""
  connections : ∀ c ∈ d.connections, c.name ≠ "" → c.mac.isSome = true
  devices : ∀ v ∈ d.devices, v.name ≠ "" → v.id.isSome = true

theorem settled_populate (d : Definition) (machine : String) (seed : Seed) :
    (d.populate machine seed).Settled where
  groupName := orText_ne_empty fun h => by simp [String.append_eq_empty_iff] at h
  groupId := orNumber_ne_zero (seed.groupId_ne_zero _ _)
  volumes := by
    refine List.forall_mem_map.2 fun v _ hname => ?_
    rw [Volume.name_populate] at hname
    rw [Volume.populate, if_neg hname]
    refine ⟨rfl, ?_⟩
    change (if v.serial = "" then _ else v.serial) ≠ ""
    split
    · exact Identifier.serial_ne_empty seed _ _
    · assumption
  connections := by
    refine List.forall_mem_map.2 fun c _ hname => ?_
    rw [Connection.name_populate] at hname
    rw [Connection.populate, if_neg hname]
    rfl
  devices := by
    refine List.forall_mem_map.2 fun v _ hname => ?_
    rw [Device.name_populate] at hname
    rw [Device.populate, if_neg hname]
    rfl

/-- Where no identity is missing, none is filled in. -/
theorem Settled.populate (h : d.Settled) (machine : String) (seed : Seed) :
    d.populate machine seed = d := by
  have hgroup : d.group.populate machine seed = d.group := by
    simp only [Group.populate, orText, orNumber, if_neg h.groupName, if_neg h.groupId]
  have hvolumes : d.volumes.map (Volume.populate seed) = d.volumes := by
    refine (List.map_congr_left fun v hv => ?_).trans (List.map_id _)
    unfold Volume.populate
    split
    · rfl
    · rename_i hname
      obtain ⟨hwwn, hserial⟩ := h.volumes v hv hname
      obtain ⟨wwn, hwwn⟩ := Option.isSome_iff_exists.1 hwwn
      obtain ⟨_, _, _, _, _⟩ := v
      simp_all
  have hconnections : d.connections.map (Connection.populate seed) = d.connections := by
    refine (List.map_congr_left fun c hc => ?_).trans (List.map_id _)
    unfold Connection.populate
    split
    · rfl
    · rename_i hname
      obtain ⟨mac, hmac⟩ := Option.isSome_iff_exists.1 (h.connections c hc hname)
      obtain ⟨_, _, _, _⟩ := c
      simp_all
  have hdevices : d.devices.map (Device.populate seed) = d.devices := by
    refine (List.map_congr_left fun v hv => ?_).trans (List.map_id _)
    unfold Device.populate
    split
    · rfl
    · rename_i hname
      obtain ⟨id, hid⟩ := Option.isSome_iff_exists.1 (h.devices v hv hname)
      obtain ⟨_, _, _⟩ := v
      simp_all
  rw [Definition.populate, hgroup, hvolumes, hconnections, hdevices]

section Layers

section Lists

variable {α κ : Type} {key : α → κ} {fill : α → α} {xs ys : List α}

theorem map_key_map (hfill : ∀ a, key (fill a) = key a) (xs : List α) :
    (xs.map fill).map key = xs.map key := by
  simp [hfill]

variable [DecidableEq κ]

theorem distinctBy_map (hfill : ∀ a, key (fill a) = key a) (h : distinctBy key xs = xs) :
    distinctBy key (xs.map fill) = xs.map fill := by
  rw [distinctBy_eq_self_iff, map_key_map hfill]
  exact distinctBy_eq_self_iff.1 h

/-- Entries that are filled up are in the way of the same entries as before. -/
theorem distinctBy_map_append (hfill : ∀ a, key (fill a) = key a)
    (h : distinctBy key (xs ++ ys) = xs) : distinctBy key (xs.map fill ++ ys) = xs.map fill := by
  have hnodup : (xs.map key).Nodup := h ▸ nodup_map_distinctBy key _
  refine distinctBy_append_eq_left ?_ fun y hy => ?_
  · rwa [map_key_map hfill]
  · rw [map_key_map hfill]
    exact mem_map_of_distinctBy_append h hy

end Lists

/-- A layer that adds nothing to a definition adds nothing to it when it is populated. -/
theorem populate_overlay (h : d.overlay f = d) :
    (d.populate machine seed).overlay f = d.populate machine seed := by
  have hname : (d.group.populate machine seed).name ≠ "" :=
    (d.settled_populate machine seed).groupName
  have hid : (d.group.populate machine seed).id ≠ 0 := (d.settled_populate machine seed).groupId
  rw [overlay]
  congr 1
  · exact congrArg vars h
  · change (d.group.populate machine seed).overlay f.group = d.group.populate machine seed
    rw [Group.overlay, orText, orNumber, if_neg hname, if_neg hid]
  · exact congrArg attributes h
  · exact distinctBy_map_append Volume.name_populate (congrArg volumes h)
  · exact distinctBy_map_append Connection.name_populate (congrArg connections h)
  · exact distinctBy_map_append Device.name_populate (congrArg devices h)

theorem empty_overlay_populate (h : ({} : Definition).overlay d = d) :
    ({} : Definition).overlay (d.populate machine seed) = d.populate machine seed := by
  rw [overlay]
  congr 1
  · exact congrArg vars h
  · exact congrArg attributes h
  · exact distinctBy_map Volume.name_populate (congrArg volumes h)
  · exact distinctBy_map Connection.name_populate (congrArg connections h)
  · exact distinctBy_map Device.name_populate (congrArg devices h)

/-- What some layers are merged to, populated and laid over them again. -/
theorem merge_populate (d : Definition) (ds : List Definition) (machine : String) (seed : Seed) :
    merge ((merge (d :: ds)).populate machine seed :: ds) =
      (merge (d :: ds)).populate machine seed := by
  have hempty : ({} : Definition).overlay ((merge (d :: ds)).populate machine seed) =
      (merge (d :: ds)).populate machine seed :=
    empty_overlay_populate (empty_overlay_merge (d :: ds))
  have hlayers : ds.foldl overlay ((merge (d :: ds)).populate machine seed) =
      (merge (d :: ds)).populate machine seed := by
    have hmerged := foldl_overlay_merge d ds
    cases ds with
    | nil => rfl
    | cons f ds =>
      rw [List.foldl_cons, layering_overlay.foldl_op] at hmerged ⊢
      exact populate_overlay hmerged
  rw [merge_cons, hlayers, hempty]

end Layers

end Definition

/-- No value that a seed gives reads as one that is not set. -/
structure Seed.GivesSetValues (seed : Seed) : Prop where
  serial : ∀ domain entity, seed.serial domain entity ≠ ""
  groupId : ∀ domain round, seed.groupId domain round ≠ 0

namespace Machine

variable {m : Machine} {catalog : Catalog} {d : Definition}

/-- Resolving is done once and for all: a definition that a machine resolves to, the machine
resolves to it again when it is its own, with its tags and without them. -/
theorem resolve_resolved (h : m.resolve catalog = .ok d) :
    { m with definition := d }.resolve catalog = .ok d ∧
      { m with definition := d, tags := [] }.resolve catalog = .ok d ∧ d.Settled ∧
      (Definition.merge (m.fragments catalog)).KeptBy d ∧
      (∀ (f : Definition) machine seed, f.KeptBy (f.populate machine seed)) ∧
      ∀ seed : Seed, seed.GivesSetValues := by
  obtain ⟨tags, htags, hd⟩ := resolve_eq_ok_iff.1 h
  have hsettled : d.Settled := hd ▸ Definition.settled_populate ..
  have hlayers : Definition.merge (d :: tags) = d := hd ▸ Definition.merge_populate ..
  have halone : Definition.merge [d] = d :=
    hd ▸ Definition.empty_overlay_populate (Definition.empty_overlay_merge _)
  refine ⟨resolve_eq_ok_iff.2 ⟨tags, htags, ?_⟩, resolve_eq_ok_iff.2 ⟨[], rfl, ?_⟩, hsettled, ?_,
    fun f _ _ => f.keptBy_populate, fun seed => ⟨Identifier.serial_ne_empty seed,
      seed.groupId_ne_zero⟩⟩
  · change d = (Definition.merge (d :: tags)).populate _ _
    rw [hlayers, hsettled.populate]
  · change d = (Definition.merge [d]).populate _ _
    rw [halone, hsettled.populate]
  · rw [eq_of_resolve h]
    exact Definition.keptBy_populate _

end Machine

namespace Sample

/-- A machine that comes to own the disk of its tag keeps all that it was resolved to. -/
theorem tagged_resolved : ∃ d : Definition, tagged.resolve tagCatalog = .ok d ∧
    d.volumes.map Volume.name = ["data", "os"] ∧
    { tagged with definition := d }.resolve tagCatalog = .ok d ∧
    { tagged with definition := d, tags := [] }.resolve tagCatalog = .ok d := by
  have h : tagged.resolve tagCatalog = .ok
      ((Definition.merge (tagged.fragments tagCatalog)).populate tagged.name tagged.info.seed) :=
    rfl
  obtain ⟨htags, hnone, -⟩ := Machine.resolve_resolved h
  have hnames : ((Definition.merge (tagged.fragments tagCatalog)).populate tagged.name
      tagged.info.seed).volumes.map Volume.name = ["data", "os"] := rfl
  exact ⟨_, h, hnames, htags, hnone⟩

end Sample

end GuestCompiler
