import GuestCompiler.Proofs.Inventory

/-!
# Targets that carry an inventory

A target carries an inventory when its devices and resources are just what the items of it come to
(`Target.Carries`). An edit adds some items when it leads from any target that carries an inventory
to one that carries these items beside, and otherwise fails for a reason that lies in the items
(`Target.inventory`). Edits that add items are put together one after the other.
-/
namespace GuestCompiler

open Edit

namespace DeviceTree

/-- A tree with just the devices that the items of an inventory come to. -/
structure Carries (t : DeviceTree) (items : List Item) : Prop where
  functions : t.topology.functions = Item.functions items
  sata : t.topology.sata = items.countP Item.isSata
  hosts : ∀ kind, t.Hosts kind (Item.hosted items kind)
  networks : t.topology.counts.count "nic" = items.countP Item.isNetwork
  passthroughs : t.topology.counts.count "vfio" = items.countP Item.isPassthrough
  cards : t.topology.cards.Perm (Item.cards items)
  fits : Item.Fits items

theorem carries_empty : Carries {} [] where
  functions := rfl
  sata := rfl
  hosts := hosts_empty
  networks := rfl
  passthroughs := rfl
  cards := .refl _
  fits := Item.fits_nil

variable {t : DeviceTree} {items : List Item} {x : Item}

/-- Devices that come last, for an item that is on no shared controller. -/
theorem Carries.append (h : t.Carries items) {top : Topology} {more : List TopLevel}
    (hdevices : top.devices = t.topology.devices ++ more) (hsharing : x.sharing? = none)
    (hfunctions : top.functions = t.topology.functions + if x.isLone then 1 else 0)
    (hsata : top.sata = t.topology.sata + if x.isSata then 1 else 0)
    (hnetworks : top.counts.count "nic" =
      t.topology.counts.count "nic" + if x.isNetwork then 1 else 0)
    (hpassthroughs : top.counts.count "vfio" =
      t.topology.counts.count "vfio" + if x.isPassthrough then 1 else 0)
    (hcards : more.flatMap TopLevel.cards = (Item.card? items x).toList)
    (hfits : Item.Fits (items ++ [x])) :
    { t with topology := top }.Carries (items ++ [x]) where
  functions := by rw [hfunctions, h.functions, Item.functions_concat_of_none hsharing]
  sata := by rw [hsata, h.sata, List.countP_append, List.countP_singleton]
  hosts kind := by
    have hsame : Item.hosted (items ++ [x]) kind = Item.hosted items kind := by
      simp [Item.hosted_concat, hsharing]
    rw [hsame]
    exact (h.hosts kind).append hdevices (by cases kind <;> rfl)
  networks := by rw [hnetworks, h.networks, List.countP_append, List.countP_singleton]
  passthroughs := by
    rw [hpassthroughs, h.passthroughs, List.countP_append, List.countP_singleton]
  cards := by
    rw [Topology.cards_append hdevices, hcards, Item.cards, Item.emit_concat]
    exact h.cards.append_right _
  fits := hfits

/-- An item that is no device. -/
theorem Carries.idle (h : t.Carries items)
    (hx : x.charDeviceId?.isSome = true ∨ x.tpmDeviceId?.isSome = true) :
    t.Carries (items ++ [x]) := by
  have hdevices : t.topology.devices = t.topology.devices ++ [] := (List.append_nil _).symm
  cases x with
  | charDevice _ | tpmDevice _ =>
    exact h.append hdevices rfl rfl rfl rfl rfl rfl (h.fits.concat_of_none rfl rfl nofun)
  | _ => simp [Item.charDeviceId?, Item.tpmDeviceId?] at hx

/-- A security module takes nothing of the tree. -/
theorem Carries.tpm (h : t.Carries items) (tpmDevice : String) :
    Meets (onTopology (Topology.addTpm tpmDevice)) t (fun _ t' => t'.Carries items)
      (fun _ _ => False) := by
  have hdevices : ∀ top : Topology, top.devices = t.topology.devices ++ [.tpm tpmDevice] →
      top.cards = t.topology.cards := fun top htop => by
    simp [Topology.cards_append htop, TopLevel.cards, TopLevel.ownCards, TopLevel.downstream?]
  exact { h with
    hosts := fun kind => (h.hosts kind).append rfl (by cases kind <;> rfl)
    cards := (List.Perm.of_eq (hdevices _ rfl)).trans h.cards }

/-- A function of the root complex, for a device without a card. -/
theorem Carries.addFunction {α : Type} (h : t.Carries items)
    {make : Topology → TopLevel × FamilyCounts × α}
    (hcards : (make t.topology).1.cards = [])
    (hcounts : ∀ family ∈ ["nic", "vfio"],
      (make t.topology).2.1.count family = t.topology.counts.count family) :
    Meets (onTopology (Topology.addFunction make)) t
      (fun _ t' => t'.Carries (items ++ [.function]))
      (fun e _ => Fault (items ++ [.function]) e) := by
  refine meets_within.2 ((Topology.meets_addFunction make t.topology).mono ?_ ?_)
  · rintro _ _ ⟨hroom, -, rfl⟩
    refine h.append rfl rfl rfl rfl (hcounts _ (by simp)) (hcounts _ (by simp)) ?_ ?_
    · rw [List.flatMap_singleton]
      exact hcards
    · exact h.fits.concat_of_none rfl rfl fun _ => h.functions ▸ hroom
  · rintro e _ ⟨-, hfull, rfl⟩
    exact .full (Item.not_fits_of_none rfl rfl (h.functions ▸ hfull))

theorem Carries.addPanic (h : t.Carries items) : Meets (onTopology Topology.addPanic) t
    (fun _ t' => t'.Carries (items ++ [.function]))
    (fun e _ => Fault (items ++ [.function]) e) := by
  refine h.addFunction rfl fun family hfamily => ?_
  rw [FamilyCounts.count_advance, if_neg (by rintro rfl; simp at hfamily)]

theorem Carries.addDisplay (h : t.Carries items) : Meets (onTopology Topology.addDisplay) t
    (fun _ t' => t'.Carries (items ++ [.function]))
    (fun e _ => Fault (items ++ [.function]) e) := by
  refine h.addFunction rfl fun family hfamily => ?_
  rw [FamilyCounts.count_advance, if_neg (by rintro rfl; simp at hfamily)]

/-- A device with a port of its own. -/
theorem Carries.attachNew (h : t.Carries items) (hsharing : x.sharing? = none)
    (hlone : x.isLone = true) (hsata : x.isSata = false) (family : String)
    (make : String → String → Downstream)
    (hnetworks : x.isNetwork = true ↔ family = "nic")
    (hpassthroughs : x.isPassthrough = true ↔ family = "vfio")
    (hcards : ∀ bus, (make (t.topology.counts.next family) bus).cards =
      (Item.card? items x).toList) :
    Meets (onTopology (do Topology.attach (← Topology.addRoot) family make)) t
      (fun _ t' => t'.Carries (items ++ [x])) (fun e _ => Fault (items ++ [x]) e) := by
  refine meets_within.2 ((Topology.meets_attachNew family make t.topology).mono ?_ ?_)
  · rintro _ _ ⟨hroom, -, rfl⟩
    have hcount (other : String) : (t.topology.withBehind family make).counts.count other =
        t.topology.counts.count other + if family = other then 1 else 0 := by
      rw [Topology.withBehind, FamilyCounts.count_advance]
      by_cases hother : other = family
      · simp [hother]
      · simp [hother, Ne.symm hother]
    refine h.append rfl hsharing ?_ ?_ ?_ ?_ ?_ ?_
    · simp [hlone, Topology.withBehind]
    · simp [hsata, Topology.withBehind]
    · simp only [hcount, hnetworks]
    · simp only [hcount, hpassthroughs]
    · rw [List.flatMap_singleton, ← hcards t.topology.newPort.id]
      simp [TopLevel.cards, TopLevel.ownCards, TopLevel.downstream?]
    · exact h.fits.concat_of_none hsharing hsata fun _ => h.functions ▸ hroom
  · rintro e _ ⟨-, hfull, rfl⟩
    exact .full (Item.not_fits_of_none hsharing hlone (h.functions ▸ hfull))

theorem Carries.addCdrom (h : t.Carries items) (p : PlacedVolume) (node : String) :
    Meets (onTopology (Topology.addCdrom node (Item.bootIndex? items p.volume.bootable))) t
      (fun _ t' => t'.Carries (items ++ [.drive .sataCd p node]))
      (fun e _ => Fault (items ++ [.drive .sataCd p node]) e) := by
  have hsata : (items ++ [Item.drive .sataCd p node]).countP Item.isSata = t.topology.sata + 1 := by
    simp [h.sata, Item.isSata]
  simp only [Meets, onTopology, within, Topology.addCdrom]
  by_cases hfull : Topology.maxSata ≤ t.topology.sata
  · rw [if_pos hfull]
    refine .full fun hfits => ?_
    have hroom := hfits.sata
    omega
  · rw [if_neg hfull]
    have hcount : ∀ family ∈ ["nic", "vfio"], (t.topology.counts.advance "sata").count family =
        t.topology.counts.count family := fun family hfamily => by
      rw [FamilyCounts.count_advance, if_neg (by rintro rfl; simp at hfamily)]
    refine h.append rfl rfl rfl rfl (hcount _ (by simp)) (hcount _ (by simp)) rfl ?_
    refine ⟨?_, by omega, fun kind => ?_⟩
    · rw [Item.functions_concat_of_none rfl]
      exact h.fits.functions
    · rw [Item.hosted_concat]
      exact h.fits.hosted kind

/-- An endpoint of the controller that its kind shares. -/
theorem Carries.share (h : t.Carries items) {kind : ControllerKind} {make : Nat → Endpoint}
    (hsharing : x.sharing? = some kind)
    (hcards : ∀ n, (make n).cards = (Item.card? items x).toList) :
    Meets (share kind make) t (fun _ t' => t'.Carries (items ++ [x]))
      (fun e _ => Fault (items ++ [x]) e) := by
  obtain ⟨-, hsata, hnetwork, hpassthrough⟩ := Item.sorts_of_sharing hsharing
  have hfamily : kind.family ∉ ["nic", "vfio"] := by
    cases kind <;> simp [ControllerKind.family]
  refine (meets_share (h.hosts kind)).mono ?_ ?_
  · rintro _ t' ⟨hroom, hfirst, hshares⟩
    have hcount : ∀ family ∈ ["nic", "vfio"], t'.topology.counts.count family =
        t.topology.counts.count family := fun family hmem =>
      hshares.counts family (by rintro rfl; exact hfamily hmem)
    exact {
      functions := by rw [hshares.functions, h.functions, Item.functions_concat_of_some hsharing]
      sata := by simp [hshares.sata, h.sata, hsata]
      hosts := fun other => by
        rw [Item.hosted_concat, hsharing]
        by_cases hother : other = kind
        · subst hother
          rw [if_pos rfl]
          exact hshares.hosts
        · rw [if_neg (by simp [Ne.symm hother])]
          exact hshares.others other _ hother (h.hosts other)
      networks := by simp [hcount, h.networks, hnetwork]
      passthroughs := by simp [hcount, h.passthroughs, hpassthrough]
      cards := by
        rw [Item.cards, Item.emit_concat, ← hcards]
        exact hshares.cards.trans (h.cards.append_right _)
      fits := h.fits.concat_of_some hsharing hroom fun hzero => h.functions ▸ hfirst hzero }
  · rintro e _ ⟨-, ⟨_, _, _, rfl⟩, hfull⟩
    exact .full (Item.not_fits_of_some hsharing (h.functions ▸ hfull))

end DeviceTree

namespace Resources

variable (machine : MachineInfo) (networks : NameMap Network)

/-- Resources with just what the items of an inventory come to; nodes are not counted. -/
structure Carries (r : Resources) (items : List Item) : Prop where
  sound : r.Sound
  label : r.blocks.label = "block device graph"
  threads : r.threads = if items.any Item.isThreaded then [⟨0⟩] else []
  charDevices : r.charDevices.names = Item.charDeviceIds items
  tpmDevices : r.tpmDevices.names = Item.tpmDeviceIds items
  taps : r.taps.map some = Item.taps machine networks items

theorem carries_empty : Carries machine networks {} [] :=
  ⟨sound_empty, rfl, rfl, rfl, rfl, rfl⟩

variable {machine networks} {r : Resources} {items : List Item}

/-- An item that comes to a thread, or to nothing. -/
theorem Carries.serve (h : r.Carries machine networks items) {x : Item} {threads : List IoThread}
    (hsound : { r with threads := threads }.Sound)
    (hthreads : threads = if (items ++ [x]).any Item.isThreaded then [⟨0⟩] else [])
    (hcharDevice : x.charDeviceId? = none) (htpmDevice : x.tpmDeviceId? = none)
    (hnetwork : x.isNetwork = false) :
    { r with threads := threads }.Carries machine networks (items ++ [x]) where
  sound := hsound
  label := h.label
  threads := hthreads
  charDevices := by simp [h.charDevices, Item.charDeviceIds, hcharDevice]
  tpmDevices := by simp [h.tpmDevices, Item.tpmDeviceIds, htpmDevice]
  taps := by
    have hnone : Item.tap? machine networks items x = none := by
      cases x with
      | network c => simp [Item.isNetwork] at hnetwork
      | _ => rfl
    rw [h.taps, Item.taps, Item.taps, Item.emit_concat, hnone, Option.toList_none,
      List.append_nil]

theorem Carries.idle (h : r.Carries machine networks items) {x : Item}
    (hthread : x.isThreaded = false) (hcharDevice : x.charDeviceId? = none)
    (htpmDevice : x.tpmDeviceId? = none) (hnetwork : x.isNetwork = false) :
    r.Carries machine networks (items ++ [x]) :=
  h.serve h.sound (by simp [h.threads, hthread]) hcharDevice htpmDevice hnetwork

section Edits

variable {x : Item}

theorem Carries.addCharDevice (h : r.Carries machine networks items) (d : CharDevice)
    (hnamed : Item.WellNamed (items ++ [.charDevice d.id])) :
    Meets (addCharDevice d) r
      (fun id r' => id = d.id ∧ r'.Carries machine networks (items ++ [.charDevice d.id]))
      (fun e _ => Fault (items ++ [.charDevice d.id]) e) := by
  have hids : Item.charDeviceIds (items ++ [.charDevice d.id]) =
      r.charDevices.names ++ [d.id] := by
    simp [h.charDevices, Item.charDeviceIds, Item.charDeviceId?]
  have htpms : Item.tpmDeviceIds (items ++ [.charDevice d.id]) = Item.tpmDeviceIds items := by
    simp [Item.tpmDeviceIds, Item.tpmDeviceId?]
  refine (meets_addCharDevice h.sound d).mono ?_ ?_
  · rintro _ _ ⟨-, rfl, rfl, hsound, -⟩
    refine ⟨rfl, hsound, h.label, ?_, ?_, ?_, ?_⟩
    · simp [h.threads, Item.isThreaded]
    · exact (Registry.names_insert _ _).trans hids.symm
    · exact h.tpmDevices.trans htpms.symm
    · simp [h.taps, Item.taps, Item.emit_concat, Item.tap?]
  · rintro e _ ⟨-, hrefused⟩
    have hmem : d.id ∈ Item.charDeviceIds (items ++ [.charDevice d.id]) := by simp [hids]
    cases hrefused with
    | long hlong => exact .longId hmem hlong
    | refused e hrefused =>
      cases hrefused with
      | unnamed hempty => exact absurd (hempty ▸ hmem) hnamed.charDevices_ne
      | taken hold =>
        have hnodup := hids ▸ hnamed.charDevices
        exact absurd rfl ((List.nodup_append.1 hnodup).2.2 _ hold _ List.mem_cons_self)

theorem Carries.addEmulatedTpm (h : r.Carries machine networks items) {charDevice id : String}
    (hcharDevice : charDevice ∈ Item.charDeviceIds items)
    (hnamed : Item.WellNamed (items ++ [.tpmDevice id])) :
    Meets (addEmulatedTpm id charDevice) r
      (fun name r' => name = id ∧ r'.Carries machine networks (items ++ [.tpmDevice id]))
      (fun e _ => Fault (items ++ [.tpmDevice id]) e) := by
  have hids : Item.tpmDeviceIds (items ++ [.tpmDevice id]) = r.tpmDevices.names ++ [id] := by
    simp [h.tpmDevices, Item.tpmDeviceIds, Item.tpmDeviceId?]
  have hchars : Item.charDeviceIds (items ++ [.tpmDevice id]) = Item.charDeviceIds items := by
    simp [Item.charDeviceIds, Item.charDeviceId?]
  refine (meets_addEmulatedTpm h.sound (h.charDevices ▸ hcharDevice) id).mono ?_ ?_
  · rintro _ _ ⟨-, rfl, rfl, hsound, -⟩
    refine ⟨rfl, hsound, h.label, ?_, ?_, ?_, ?_⟩
    · simp [h.threads, Item.isThreaded]
    · exact h.charDevices.trans hchars.symm
    · exact (Registry.names_insert _ _).trans hids.symm
    · simp [h.taps, Item.taps, Item.emit_concat, Item.tap?]
  · rintro e _ ⟨-, hrefused⟩
    have hmem : id ∈ Item.tpmDeviceIds (items ++ [.tpmDevice id]) := by simp [hids]
    cases hrefused with
    | unnamed hempty => exact absurd (hempty ▸ hmem) hnamed.tpmDevices_ne
    | taken hold =>
      have hnodup := hids ▸ hnamed.tpmDevices
      exact absurd rfl ((List.nodup_append.1 hnodup).2.2 _ hold _ List.mem_cons_self)

/-- A node whose backing node is there. -/
theorem Carries.addBlock (h : r.Carries machine networks items) {node : BlockNode}
    (hbacking : ∀ backing, node.backing? = some backing → backing ∈ r.blocks.names) :
    Meets (addBlock node) r
      (fun _ r' => r'.Carries machine networks items ∧ node.name ∈ r'.blocks.names ∧ r.Grows r')
      (fun e _ => Fault items e) := by
  refine (meets_addBlock h.sound node).mono ?_ ?_
  · rintro _ _ ⟨hmem, rfl, rfl, hsound, hgrows⟩
    exact ⟨⟨hsound, h.label, h.threads, h.charDevices, h.tpmDevices, h.taps⟩, hmem, hgrows⟩
  · rintro e _ ⟨-, hrefused⟩
    cases hrefused with
    | unbacked backing hback hmissing => exact absurd (hbacking backing hback) hmissing
    | refused e hrefused =>
      cases hrefused with
      | unnamed _ => exact h.label ▸ .unnamedNode
      | taken _ => exact h.label ▸ .takenNode

theorem Carries.addTap (h : r.Carries machine networks items) {c : Connection} {n : Network}
    (hn : networks.get? c.network = some n) :
    Meets (addTap (c.linkName machine.name) n.up n.down) r
      (fun tap r' => tap.id = "net." ++ toString (items.countP Item.isNetwork) ∧
        r'.Carries machine networks (items ++ [.network c]))
      (fun _ _ => False) := by
  have hlength : r.taps.length = items.countP Item.isNetwork := by
    rw [← Item.length_taps machine networks, ← h.taps, List.length_map]
  obtain ⟨-, -, -, hsound, -⟩ :=
    (meets_addTap h.sound (c.linkName machine.name) n.up n.down).ok rfl
  refine ⟨by rw [hlength], hsound, h.label, ?_, ?_, ?_, ?_⟩
  · simp [h.threads, Item.isThreaded]
  · simp [h.charDevices, Item.charDeviceIds, Item.charDeviceId?]
  · simp [h.tpmDevices, Item.tpmDeviceIds, Item.tpmDeviceId?]
  · rw [List.map_append, h.taps, Item.taps, Item.taps, Item.emit_concat]
    simp [Item.tap?, hn, hlength]

/-- All drives are served by the one thread. -/
theorem Carries.sharedThread (h : r.Carries machine networks items) {d : Drive}
    (hd : d.isThreaded = true) (p : PlacedVolume) (node : String) :
    Meets sharedThread r
      (fun thread r' => thread = ⟨0⟩ ∧
        r'.Carries machine networks (items ++ [.drive d p node]))
      (fun _ _ => False) := by
  have hserve {threads : List IoThread} (hsound : { r with threads := threads }.Sound)
      (hthreads : threads = [⟨0⟩]) :
      { r with threads := threads }.Carries machine networks (items ++ [Item.drive d p node]) :=
    h.serve hsound (by simp [Item.isThreaded, hd, hthreads]) rfl rfl rfl
  refine (meets_sharedThread h.sound).imp ?_
  rintro thread r' ⟨hmem, heq, hsound, -⟩
  by_cases hany : items.any Item.isThreaded = true
  · have hthreads : r.threads = [⟨0⟩] := by rw [h.threads, if_pos hany]
    rcases heq with rfl | ⟨hnone, -⟩
    · exact ⟨List.mem_singleton.1 (hthreads ▸ hmem), hserve h.sound hthreads⟩
    · exact absurd (hthreads.symm.trans hnone) nofun
  · have hthreads : r.threads = [] := by rw [h.threads, if_neg hany]
    rcases heq with rfl | ⟨-, rfl⟩
    · exact absurd (hthreads ▸ hmem) nofun
    · -- A first thread has the first position.
      have hthread : thread = ⟨0⟩ := by simpa using hsound.threads
      subst hthread
      exact ⟨rfl, hserve hsound rfl⟩

end Edits

end Resources

namespace Target

variable (machine : MachineInfo) (networks : NameMap Network)

structure Carries (t : Target) (items : List Item) : Prop where
  tree : t.tree.Carries items
  resources : t.resources.Carries machine networks items
  booted : t.bootOrder.used = items.countP Item.isBootable

theorem carries_empty : Carries machine networks {} [] :=
  ⟨DeviceTree.carries_empty, Resources.carries_empty machine networks, rfl⟩

/-- Targets that carry inventories. An edit that adds items fails only for a reason that lies in
them, provided that they are well named. -/
def inventory : Tally Error Target Item where
  Holds t items := t.Carries machine networks items
  May := Item.WellNamed
  Accounts := Fault
  may_of_prefix hfront hnamed := hnamed.of_prefix hfront
  accounts_of_prefix hfront hfault := hfault.of_prefix hfront

variable {machine networks}

theorem onSettings_adds (change : Guest.Settings → Guest.Settings) :
    Adds (inventory machine networks) (onSettings change) [] fun _ => True := fun t items ht _ => by
  rw [List.append_nil]
  exact ⟨⟨ht.tree, ht.resources, ht.booted⟩, trivial⟩

end Target

end GuestCompiler
