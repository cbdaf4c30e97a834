import GuestCompiler.Proofs.Demand

/-!
# Everything is attached once

The drives of a guest are those of the attached volumes, each on a device of the driver that its
pool's kind calls for, and no other drive is there; the network cards and the interfaces are those
of the connections, and the devices of the host are those of the definition, each under the number
of its place (`Machine.build_attaches`).
-/
namespace GuestCompiler

section Rows

variable (machine : MachineInfo) (pools : NameMap Pool)

/-- The driver of the drives for volumes in pools of a kind. -/
def Pool.driver? (kind : String) : Option String :=
  [("raw", "scsi-hd"), ("raw-scsi", "scsi-hd"), ("raw-block", "virtio-blk-pci"),
    ("vvfat-block", "virtio-blk-pci"), ("iso-ahci", "ide-cd"), ("iso-scsi", "scsi-cd"),
    ("iso-usb", "usb-storage")].lookup kind

/-- The row of a volume in the table of drives: the driver, the node, the World Wide Name and the
serial number. -/
def Volume.driveRow? (v : Volume) : Option (List (List String)) := do
  let pool ← pools.get? v.storage
  let driver ← Pool.driver? pool.kind
  let node ← v.nodeName? machine pools
  let wwn := if driver = "scsi-hd" then v.wwn.toList.map Wwn.toString else []
  let serial := if driver ∈ ["scsi-hd", "virtio-blk-pci"] ∧ v.serial ≠ "" then [v.serial] else []
  return [[driver], [node], wwn, serial]

end Rows

/-- Options that give a guest what a definition lists, each entry once and under its number. -/
structure Definition.Attaches (machine : MachineInfo) (catalog : Catalog) (d : Definition)
    (os : List CommandOption) : Prop where
  drives : (CommandOption.drives os).Perm
    (d.attached.filterMap (Volume.driveRow? machine catalog.pools))
  cards : ((CommandOption.devicesOf os "virtio-net-pci" ["id", "mac", "netdev"]).map some).Perm
    (d.connections.mapIdx fun i c => c.mac.map fun mac =>
      [["nic." ++ toString i], [mac.toString], ["net." ++ toString i]])
  interfaces : (CommandOption.rows os "netdev"
      ["", "id", "ifname", "script", "downscript"]).map some =
    d.connections.mapIdx fun i c => (catalog.networks.get? c.network).map fun n =>
      [["tap"], ["net." ++ toString i], [c.linkName machine.name],
        [if n.up = "" then "no" else n.up], [if n.down = "" then "no" else n.down]]
  devices : ((CommandOption.devicesOf os "vfio-pci" ["id", "sysfsdev"]).map some).Perm
    (d.devices.mapIdx fun i v => v.sysfsPath.map fun path => [["vfio." ++ toString i], [path.text]])

section Numbered

namespace Item

def network? : Item → Option Connection
  | network c => some c
  | _ => none

def passthrough? : Item → Option Device
  | passthrough d => some d
  | _ => none

theorem emit_filterMap {α β : Type} (f : List Item → Item → Option α) (g : α → Option β)
    (before items : List Item) :
    (emit f before items).filterMap g = emit (fun b x => (f b x).bind g) before items := by
  induction items generalizing before with
  | nil => rfl
  | cons x items ih =>
    rw [emit, emit, List.filterMap_append, ih]
    cases f before x with
    | none => rfl
    | some a => cases hg : g a <;> simp [hg]

/-- What does not depend on the items before comes to the items one by one. -/
theorem emit_const {α : Type} (f : Item → Option α) (before items : List Item) :
    emit (fun _ x => f x) before items = items.filterMap f := by
  induction items generalizing before with
  | nil => rfl
  | cons x items ih => rw [emit, ih, List.filterMap_cons]; cases f x <;> rfl

/-- What depends only on how many of a sort came before depends on those that count among the picked
ones. -/
theorem emit_counted {α β : Type} {pick : Item → Option β} {counts : β → Bool}
    {sort : Item → Bool} (hsort : ∀ x, sort x = (pick x).any counts) (g : Nat → β → α)
    {f : List Item → Item → Option α}
    (hf : ∀ before x, f before x = (pick x).map (g (before.countP sort))) (items : List Item) :
    emit f [] items = (items.filterMap pick).mapIdx fun i y =>
      g (((items.filterMap pick).take i).countP counts) y := by
  -- Along the items, the numbers go on from how many came before.
  suffices hall : ∀ before, emit f before items = (items.filterMap pick).mapIdx fun i y =>
      g (before.countP sort + ((items.filterMap pick).take i).countP counts) y by
    simpa using hall []
  induction items with
  | nil => exact fun _ => rfl
  | cons x items ih =>
    intro before
    rw [emit, ih, hf, List.filterMap_cons, List.countP_append, List.countP_singleton, hsort]
    cases pick x with
    | none => simp
    | some y => simp [List.mapIdx_cons, List.countP_cons, Nat.add_left_comm, Nat.add_comm]

/-- What depends only on how many of a sort came before is numbered by place. -/
theorem emit_numbered {α β : Type} {pick : Item → Option β} {sort : Item → Bool}
    (hsort : ∀ x, sort x = (pick x).isSome) (g : Nat → β → α) {f : List Item → Item → Option α}
    (hf : ∀ before x, f before x = (pick x).map (g (before.countP sort))) (items : List Item) :
    emit f [] items = (items.filterMap pick).mapIdx g := by
  have hany : ∀ x, sort x = (pick x).any fun _ => true := fun x => by
    rw [hsort]
    cases pick x <;> rfl
  rw [emit_counted hany g hf]
  refine List.ext_getElem (by simp) fun i hi _ => ?_
  have hlength : i ≤ (items.filterMap pick).length := by
    rw [List.length_mapIdx] at hi
    exact Nat.le_of_lt hi
  simp [List.countP_eq_length_filter, Nat.min_eq_left hlength]

end Item

end Numbered

section Entries

/-- An item for an entry of a definition: a volume, a connection or a device. -/
def Item.isEntry : Item → Bool
  | .drive .. => true
  | .network _ => true
  | .passthrough _ => true
  | _ => false

variable {machine : MachineInfo} {pools : NameMap Pool} {runDir : Path}

theorem Attributes.isEntry_eq_false {a : Attributes} {name : String} {x : Item}
    (h : x ∈ a.items name runDir) : x.isEntry = false := by
  have hsort : Item.isEntry = ItemSort.test ⟨false, false, false, fun _ => true, true, true⟩ := by
    funext x; cases x <;> rfl
  have hcount : (a.items name runDir).countP Item.isEntry = 0 := by
    rw [hsort, ItemSort.countP_attributes]
    simp
  simpa using List.countP_eq_zero.1 hcount x h

/-- What attributes do not come to comes from the volumes, the connections and the devices. -/
theorem Definition.filterMap_entries {α : Type} {f : Item → Option α} (g : Volume → Option α)
    (hattribute : ∀ x : Item, x.isEntry = false → f x = none)
    (hvolume : ∀ v : Volume, (v.items machine pools).filterMap f = (g v).toList) (d : Definition) :
    (d.items machine pools runDir).filterMap f =
      d.attached.filterMap g ++ d.connections.filterMap (fun c => f (.network c)) ++
        d.devices.filterMap fun v => f (.passthrough v) := by
  have hattributes : (d.attributes.items machine.name runDir).filterMap f = [] :=
    List.filterMap_eq_nil_iff.2 fun x hx => hattribute x (Attributes.isEntry_eq_false hx)
  have hvolumes (vs : List Volume) :
      (vs.flatMap (Volume.items machine pools)).filterMap f = vs.filterMap g := by
    simp only [List.filterMap_flatMap, hvolume, ← List.filterMap_eq_flatMap_toList]
  simp [items, attached, hattribute .function rfl, hattributes, hvolumes, List.filterMap_map]

theorem Volume.filterMap_items_eq_nil {α : Type} {f : Item → Option α}
    (hf : ∀ d p node, f (.drive d p node) = none) (v : Volume) :
    (v.items machine pools).filterMap f = [] := by
  refine List.filterMap_eq_nil_iff.2 fun x hx => ?_
  obtain ⟨d, p, node, rfl⟩ := Volume.exists_of_mem_items hx
  exact hf d p node

theorem Definition.filterMap_network? (d : Definition) :
    (d.items machine pools runDir).filterMap Item.network? = d.connections := by
  rw [d.filterMap_entries (fun _ => none)
    (fun x hx => by cases x <;> simp_all [Item.network?, Item.isEntry])
    fun v => v.filterMap_items_eq_nil fun _ _ _ => rfl]
  simp [Item.network?]

theorem Definition.filterMap_passthrough? (d : Definition) :
    (d.items machine pools runDir).filterMap Item.passthrough? = d.devices := by
  rw [d.filterMap_entries (fun _ => none)
    (fun x hx => by cases x <;> simp_all [Item.passthrough?, Item.isEntry])
    fun v => v.filterMap_items_eq_nil fun _ _ _ => rfl]
  simp [Item.passthrough?]

end Entries

section Cards

/-- The row of an item in the table of drives. -/
def Item.driveRow? : Item → Option (List (List String))
  | .drive d p node => some
    [[d.driver], [node], ((d.disk p none).wwn.map Wwn.toString).toList,
      (d.disk p none).serial.toList]
  | _ => none

theorem Item.driveRows_cards (items : List Item) :
    (cards items).filterMap Card.driveRow? = items.filterMap driveRow? := by
  rw [cards, emit_filterMap, ← emit_const driveRow? []]
  refine congrArg (emit · [] items) (funext fun before => funext fun x => ?_)
  cases x with
  | drive d p node => cases d <;> rfl
  | _ => rfl

theorem Pool.driver?_eq (kind : String) :
    Pool.driver? kind = ((Attachment.ofKind? kind).bind Attachment.drive?).map Drive.driver := by
  unfold Attachment.ofKind?
  split_ifs with hraw
  · rcases hraw with rfl | rfl <;> rfl
  case neg => exact List.lookup_eq_none_iff.2 (by simp_all)
  all_goals subst_vars; rfl

variable {machine : MachineInfo} {pools : NameMap Pool} {runDir : Path}

/-- What comes of the driver and the node of a volume's drive. -/
theorem Volume.drive_map {α : Type} (v : Volume) (f : String → String → α) :
    ((pools.get? v.storage).bind fun pool => (Pool.driver? pool.kind).bind fun driver =>
      (v.nodeName? machine pools).map (f driver)) =
      (v.placed? machine pools).bind fun x =>
        x.1.drive?.map fun d => f d.driver (x.1.nodeName x.2) := by
  rw [nodeName?, placed?]
  cases pools.get? v.storage with
  | none => rfl
  | some pool =>
    simp only [Pool.driver?_eq, Option.bind_some]
    cases Attachment.ofKind? pool.kind with
    | none => rfl
    | some a => cases hdrive : a.drive? <;> simp [hdrive]

theorem Volume.filterMap_driveRow? (v : Volume) :
    (v.items machine pools).filterMap Item.driveRow? = (v.driveRow? machine pools).toList := by
  rw [items, driveRow?, nodeName?, placed?]
  cases pools.get? v.storage with
  | none => rfl
  | some pool =>
    simp only [Pool.driver?_eq, bind, Option.bind_some]
    cases Attachment.ofKind? pool.kind with
    | none => rfl
    | some a =>
      cases hdrive : a.drive? with
      | none => simp [hdrive]
      | some d =>
        have hserial : (PlacedVolume.serial? ⟨machine, v, pool⟩).toList =
            if v.serial = "" then [] else [v.serial] := by
          unfold PlacedVolume.serial?
          split <;> rfl
        have hwwn : (v.wwn.map Wwn.toString).toList = v.wwn.toList.map Wwn.toString := by
          cases v.wwn <;> rfl
        cases d <;> simp [hdrive, Item.driveRow?, Drive.driver, Drive.disk, hserial, hwwn]

theorem Definition.driveRows_items (d : Definition) :
    (d.items machine pools runDir).filterMap Item.driveRow? =
      d.attached.filterMap (Volume.driveRow? machine pools) := by
  rw [d.filterMap_entries (Volume.driveRow? machine pools)
    (fun x hx => by cases x <;> simp_all [Item.driveRow?, Item.isEntry]) Volume.filterMap_driveRow?]
  simp [Item.driveRow?]

theorem Item.isNetwork_eq (x : Item) : x.isNetwork = x.network?.isSome := by cases x <;> rfl

theorem Item.isPassthrough_eq (x : Item) : x.isPassthrough = x.passthrough?.isSome := by
  cases x <;> rfl

theorem Item.networkRows_cards (items : List Item) :
    (cards items).filterMap Card.networkRow? =
      (items.filterMap network?).mapIdx fun i c => c.mac.map fun mac =>
        [["nic." ++ toString i], [mac.toString], ["net." ++ toString i]] := by
  rw [cards, emit_filterMap]
  exact emit_numbered isNetwork_eq _ (fun _ x => by cases x <;> rfl) items

theorem Item.passthroughRows_cards (items : List Item) :
    (cards items).filterMap Card.passthroughRow? =
      (items.filterMap passthrough?).mapIdx fun i v => v.sysfsPath.map fun path =>
        [["vfio." ++ toString i], [path.text]] := by
  rw [cards, emit_filterMap]
  exact emit_numbered isPassthrough_eq _ (fun _ x => by cases x <;> rfl) items

end Cards

section Interfaces

variable {machine : MachineInfo} {networks : NameMap Network}

/-- The row of an interface. -/
def Tap.row (t : Tap) : List (List String) :=
  [["tap"], [t.id], [t.interface], [if t.up = "" then "no" else t.up],
    [if t.down = "" then "no" else t.down]]

theorem Target.interfaces_options (t : Target) : CommandOption.rows t.options "netdev"
    ["", "id", "ifname", "script", "downscript"] = t.resources.taps.map Tap.row := by
  rw [rows_options t.tap_mem_sections, List.map_map]
  refine List.map_congr_left fun tap _ => ?_
  simp [Tap.parameters, Tap.row, Parameter.bare]

theorem Item.interfaceRows_taps (items : List Item) :
    (taps machine networks items).map (Option.map Tap.row) =
      (items.filterMap network?).mapIdx fun i c => (networks.get? c.network).map fun n =>
        [["tap"], ["net." ++ toString i], [c.linkName machine.name],
          [if n.up = "" then "no" else n.up], [if n.down = "" then "no" else n.down]] := by
  rw [taps, ← List.filterMap_eq_map, emit_filterMap]
  refine emit_numbered isNetwork_eq _ (fun before x => ?_) items
  cases x with
  | network c => cases hn : networks.get? c.network <;> simp [tap?, network?, hn, Tap.row]
  | _ => rfl

end Interfaces

section Bare

open Edit

/-- A view of a target that shows neither its settings nor its resources. -/
structure Target.Beside {α : Type} (view : Target → α) : Prop where
  settings : ∀ t s, view { t with settings := s } = view t
  resources : ∀ t r, view { t with resources := r } = view t

variable {α : Type} {view : Target → α}

/-- A volume without a drive comes with no more than its nodes. -/
theorem Attachment.apply_keeps {a : Attachment} (hview : Target.Beside view) (h : a.drive? = none)
    (p : PlacedVolume) : Keeps view (fun _ => True) (a.apply p) := by
  unfold apply
  refine .bind (.forM fun node _ =>
    .bind (.within (fun r t => hview.resources t r) (.any _)) fun _ => .pure _) fun _ => ?_
  rw [h]
  exact .pure _

/-- The volumes in pools of these kinds have none. -/
def Pool.isBare (p : Pool) : Bool := p.kind = "firmware" ∨ p.kind = "tpm-data"

variable {machine : MachineInfo} {pools : NameMap Pool} {v : Volume} {pool : Pool}

theorem Build.place_keeps {rest : Attachment → PlacedVolume → Edit Error Target Unit}
    (hpool : pools.get? v.storage = some pool) (hbare : pool.isBare = true)
    (hrest : ∀ a p, a.drive? = none → Keeps view (fun _ => True) (rest a p)) :
    Keeps view (fun _ => True) (do
      let placed ← Edit.ofExcept (PlacedVolume.resolve machine v pools)
      let attachment ← Edit.ofExcept (Attachment.of placed)
      rest attachment placed) := by
  have hplaced : PlacedVolume.resolve machine v pools = .ok ⟨machine, v, pool⟩ := by
    rw [PlacedVolume.resolve, hpool]
  have hof : ∃ a, Attachment.of ⟨machine, v, pool⟩ = .ok a ∧ a.drive? = none := by
    unfold Attachment.of
    rcases of_decide_eq_true hbare with hkind | hkind <;> rw [hkind] <;> exact ⟨_, rfl, rfl⟩
  obtain ⟨a, ha, hdrive⟩ := hof
  rw [hplaced]
  intro t
  refine meets_bind.2 (meets_ofExcept.2 ⟨?_, nofun⟩)
  rintro _ ⟨⟩
  refine meets_bind.2 (meets_ofExcept.2 ⟨?_, fun _ _ => trivial⟩)
  intro a' ha'
  cases ha.symm.trans ha'
  exact hrest a _ hdrive t

theorem Build.addVolume_keeps (hview : Target.Beside view)
    (hpool : pools.get? v.storage = some pool) (hbare : pool.isBare = true) :
    Keeps view (fun _ => True) (addVolume machine pools v) :=
  place_keeps hpool hbare fun _ p h => Attachment.apply_keeps hview h p

theorem Build.addFirmwareVolume_keeps (hview : Target.Beside view)
    (hpool : pools.get? v.storage = some pool) (hbare : pool.isBare = true)
    (refer : String → Guest.Firmware → Guest.Firmware) :
    Keeps view (fun _ => True) (addFirmwareVolume machine pools v refer) :=
  place_keeps hpool hbare fun _ p h =>
    .bind (.modify fun t => hview.settings t _) fun _ => Attachment.apply_keeps hview h p

theorem Build.addVolume_keeps_tree (hpool : pools.get? v.storage = some pool)
    (hbare : pool.isBare = true) :
    Keeps Target.tree (fun _ => True) (addVolume machine pools v) :=
  addVolume_keeps ⟨fun _ _ => rfl, fun _ _ => rfl⟩ hpool hbare

theorem Build.addFirmwareVolume_keeps_tree (hpool : pools.get? v.storage = some pool)
    (hbare : pool.isBare = true) (refer : String → Guest.Firmware → Guest.Firmware) :
    Keeps Target.tree (fun _ => True) (addFirmwareVolume machine pools v refer) :=
  addFirmwareVolume_keeps ⟨fun _ _ => rfl, fun _ _ => rfl⟩ hpool hbare refer

end Bare

/-- A guest is given what its definition lists, each entry once and under its number; and a volume
of firmware or of the security module adds no device, whatever is there before. -/
theorem Machine.build_attaches {m : Machine} {catalog : Catalog} {locations : Locations}
    {t : Target} (h : m.build catalog locations = .ok t) :
    ∃ d, m.resolve catalog = .ok d ∧ d.Attaches m.info catalog t.options ∧
      ∀ v pool, catalog.pools.get? v.storage = some pool → pool.isBare = true →
        Edit.Keeps Target.tree (fun _ => True) (Build.addVolume m.info catalog.pools v) ∧
        ∀ refer, Edit.Keeps Target.tree (fun _ => True)
          (Build.addFirmwareVolume m.info catalog.pools v refer) := by
  obtain ⟨d, hd, -⟩ := addDefinition_of_build h
  have hcarries := carries_of_build hd h
  have hcards := hcarries.tree.cards
  let items := d.items m.info catalog.pools locations.runDir
  have hdrives : items.filterMap Item.driveRow? =
      d.attached.filterMap (Volume.driveRow? m.info catalog.pools) := d.driveRows_items
  have hnetworks : items.filterMap Item.network? = d.connections := d.filterMap_network?
  have hpassthroughs : items.filterMap Item.passthrough? = d.devices := d.filterMap_passthrough?
  refine ⟨d, hd, ⟨?drives, ?cards, ?interfaces, ?devices⟩, fun v pool hpool hbare =>
    ⟨Build.addVolume_keeps_tree hpool hbare, Build.addFirmwareVolume_keeps_tree hpool hbare⟩⟩
  case drives =>
    rw [t.drives_options, ← hdrives, ← Item.driveRows_cards]
    exact hcards.filterMap _
  case cards =>
    rw [t.networks_options, ← hnetworks, ← Item.networkRows_cards]
    exact hcards.filterMap _
  case interfaces =>
    have hrows : (t.resources.taps.map Tap.row).map some =
        (t.resources.taps.map some).map (Option.map Tap.row) := by simp
    rw [t.interfaces_options, hrows, hcarries.resources.taps, Item.interfaceRows_taps, hnetworks]
  case devices =>
    rw [t.passthroughs_options, ← hpassthroughs, ← Item.passthroughRows_cards]
    exact hcards.filterMap _

namespace Sample

theorem desktop_attaches : ∃ t, desktop.build host {} = .ok t ∧
    ∃ d, desktop.resolve host = .ok d ∧ d.Attaches desktop.info host t.options ∧
      (d.attached.filterMap (Volume.driveRow? desktop.info host.pools)).map (·.take 2) =
        [[["scsi-hd"], ["desk-os"]], [["usb-storage"], ["setup"]]] := by
  have hrows : (desktop.resolve host).toOption.any (fun d =>
      (d.attached.filterMap (Volume.driveRow? desktop.info host.pools)).map (·.take 2) ==
        [[["scsi-hd"], ["desk-os"]], [["usb-storage"], ["setup"]]]) = true := by
    decide +kernel
  obtain ⟨d, hd, hrows⟩ := exists_of_any hrows
  obtain ⟨t, ht⟩ := exists_build_desktop
  obtain ⟨d', hd', hattaches, -⟩ := Machine.build_attaches ht
  cases hd.symm.trans hd'
  exact ⟨t, ht, d, hd, hattaches, eq_of_beq hrows⟩

end Sample

end GuestCompiler
