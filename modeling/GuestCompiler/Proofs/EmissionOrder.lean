import GuestCompiler.Proofs.BuildRuns
import GuestCompiler.Proofs.PlacedBuild
import Mathlib.Computability.RegularExpressions

/-!
# The order of options

The kinds of the options of a guest are a word of a regular expression that the machine's id and
name decide (`MachineInfo.kinds`). Within a kind, the options follow the definition: block nodes the
volumes, interfaces the connections, devices what a build places, and monitors their character
devices (`Definition.Orders`).
-/
namespace GuestCompiler

open CommandOption Parameter RegularExpression

namespace MachineInfo

variable (m : MachineInfo)

/-- The kinds of options that settings are written as, in order. -/
def settingKinds : RegularExpression String :=
  (if m.id.isNil then 1 else char "uuid") * (if m.name = "" then 1 else char "name") *
    (char "enable-kvm" * char "nodefaults" * char "nographic" * char "machine" * char "cpu") *
    (1 + char "smp") * (1 + char "m") * char "rtc" * star (char "mon") * (1 + char "spice") *
    star (char "global") * char "boot"

/-- The kinds of all options of a guest, in order. -/
def kinds : RegularExpression String :=
  m.settingKinds *
    (star (char "object") * star (char "blockdev") * star (char "chardev") *
      star (char "tpmdev") * star (char "netdev")) *
    (char "device" * star (char "device"))

end MachineInfo

/-- The block nodes of a volume, by driver, name and the node that is read: an image that may be
written is a file node and a raw node over it. Nodes that are not shared have the machine's name in
front. -/
def Volume.blockRows (machine : MachineInfo) (pools : NameMap Pool) (v : Volume) :
    List (List (List String)) :=
  ((pools.get? v.storage).bind fun pool =>
    let own := machine.name ++ "-" ++ v.name
    let image := [[["file"], [own ++ "-file"], []], [["raw"], [own], [own ++ "-file"]]]
    let file := [[["file"], [v.name], []]]
    let firmware := [[["file"], [if pool.readOnly then v.name else own], []]]
    [("raw", image), ("raw-scsi", image), ("raw-block", image),
      ("vvfat-block", [[["vvfat"], [own], []]]), ("iso-ahci", file), ("iso-scsi", file),
      ("iso-usb", file), ("firmware", firmware)].lookup pool.kind).getD []

/-- What a parameter of the options of a kind is set to. -/
def CommandOption.valuesOf (os : List CommandOption) (kind name : String) : List String :=
  (os.filter (·.kind == kind)).flatMap (·.values name)

/-- A device behind another is on the bus of that one, and an endpoint on the bus of its
controller. -/
def Branch.Nested : List (List Parameter) → Prop
  | top :: behind :: endpoints => get? behind "bus" = get? top "id" ∧
    ∀ e ∈ endpoints, get? e "bus" = (get? behind "id").map (· ++ ".0")
  | _ => True

/-- Options in the order that the machine and its definition decide. -/
structure Definition.Orders (machine : MachineInfo) (pools : NameMap Pool) (d : Definition)
    (os : List CommandOption) : Prop where
  kinds : os.map (·.kind) ∈ machine.kinds.matches'
  monitors : rows os "mon" ["chardev"] =
    ((valuesOf os "chardev" "id").filter CharDevice.isMonitorId).map fun id => [[id]]
  blocks : rows os "blockdev" ["driver", "node-name", "file"] =
    d.attached.flatMap (Volume.blockRows machine pools)
  interfaces : rows os "netdev" ["id", "ifname"] =
    d.connections.mapIdx fun i c => [["net." ++ toString i], [c.linkName machine.name]]
  panic : (rows os "device" ["driver"]).head? = some [["pvpanic-pci"]]
  /-- The functions of the root complex are given out in the order of the devices. -/
  functions : ∃ n, (os.filter (·.kind == "device")).filterMap (fun o => get? o.parameters "addr") =
    (List.range n).map fun i => (PciAddress.ofIndex i).text
  /-- The devices are written branch by branch. -/
  devices : ∃ branches : List (List (List Parameter)),
    (os.filter (·.kind == "device")).map (·.parameters) = branches.flatten ∧
    branches.map (·.map wiring) =
      (Placement.branches (d.placements machine pools)).map Branch.rows ∧
    ∀ b ∈ branches, Branch.Nested b

section Kinds

def kindsOf (os : List CommandOption) : List String := os.map (·.kind)

variable {α : Type} {kind : String} {os os' : List CommandOption} {P Q : RegularExpression String}

theorem kindsOf_append (hos : kindsOf os ∈ P.matches') (hos' : kindsOf os' ∈ Q.matches') :
    kindsOf (os ++ os') ∈ (P * Q).matches' := by
  rw [kindsOf, List.map_append, matches'_mul]
  exact Language.append_mem_mul hos hos'

theorem kindsOf_singleton (ps : List Parameter) :
    kindsOf [⟨kind, ps⟩] ∈ (char kind).matches' := by
  rw [matches'_char]
  rfl

theorem kindsOf_map (xs : List α) (f : α → List Parameter) :
    kindsOf (xs.map fun x => ⟨kind, f x⟩) ∈ (star (char kind)).matches' := by
  rw [matches'_star, matches'_char, Language.mem_kstar]
  refine ⟨xs.map fun _ => [kind], ?_, ?_⟩
  · simp [kindsOf, Function.comp_def]
  · intro word hword
    obtain ⟨x, -, rfl⟩ := List.mem_map.1 hword
    rfl

theorem kindsOf_nil : kindsOf [] ∈ (1 : RegularExpression String).matches' := by
  rw [matches'_epsilon]
  rfl

/-- An option that is there unless something holds. -/
theorem kindsOf_unless {c : Prop} [Decidable c] (ps : List Parameter) :
    kindsOf (if c then [] else [⟨kind, ps⟩]) ∈ (if c then 1 else char kind).matches' := by
  split
  · exact kindsOf_nil
  · exact kindsOf_singleton ps

theorem kindsOf_optional {c : Prop} [Decidable c] (ps : List Parameter) :
    kindsOf (if c then [] else [⟨kind, ps⟩]) ∈ (1 + char kind).matches' := by
  rw [matches'_add, Language.mem_add]
  split
  · exact .inl kindsOf_nil
  · exact .inr (kindsOf_singleton ps)

theorem Guest.Settings.kinds_options {s : Guest.Settings} {m : MachineInfo}
    (hidentity : s.identity = ⟨m.name, some m.id⟩) (hclock : s.clock = Build.clock) :
    kindsOf s.options ∈ m.settingKinds.matches' := by
  have hidentities : kindsOf s.identity.options ∈ ((if m.id.isNil then 1 else char "uuid") *
      (if m.name = "" then 1 else char "name") : RegularExpression String).matches' := by
    have hid : ((some m.id).filter (!·.isNil)).toList.map
        (fun id => CommandOption.mk "uuid" [.bare id.toString]) =
          if m.id.isNil then [] else [⟨"uuid", [.bare m.id.toString]⟩] := by
      cases hnil : m.id.isNil <;> simp [Option.filter, hnil]
    rw [hidentity, Identity.options, hid]
    exact kindsOf_append (kindsOf_unless _) (kindsOf_unless _)
  have hstart : kindsOf ([⟨"enable-kvm", []⟩] ++ [⟨"nodefaults", []⟩] ++ [⟨"nographic", []⟩] ++
      [⟨"machine", ⟨"type", "q35"⟩ :: (s.spice.machineParameters ++ s.firmware.parameters)⟩] ++
      [⟨"cpu", s.processor.parameters⟩]) ∈ (char "enable-kvm" * char "nodefaults" *
        char "nographic" * char "machine" * char "cpu" : RegularExpression String).matches' := by
    refine kindsOf_append ?_ (kindsOf_singleton _)
    refine kindsOf_append ?_ (kindsOf_singleton _)
    refine kindsOf_append ?_ (kindsOf_singleton _)
    exact kindsOf_append (kindsOf_singleton _) (kindsOf_singleton _)
  have hrtc : kindsOf (unlessEmpty "rtc" s.clock.parameters) ∈ (char "rtc").matches' := by
    rw [hclock]
    exact kindsOf_singleton _
  have hspice : kindsOf (if s.spice.enabled then [⟨"spice", s.spice.parameters⟩] else []) ∈
      (1 + char "spice").matches' := by
    rw [← ite_not]
    exact kindsOf_optional _
  refine kindsOf_append ?_ (kindsOf_singleton _)
  refine kindsOf_append ?_ (kindsOf_map _ _)
  refine kindsOf_append ?_ hspice
  refine kindsOf_append ?_ (kindsOf_map _ _)
  refine kindsOf_append ?_ hrtc
  refine kindsOf_append ?_ (kindsOf_optional _)
  refine kindsOf_append ?_ (kindsOf_optional _)
  exact kindsOf_append hidentities hstart

theorem Resources.kinds_options (r : Resources) : kindsOf r.options ∈
    (star (char "object") * star (char "blockdev") * star (char "chardev") *
      star (char "tpmdev") * star (char "netdev") : RegularExpression String).matches' := by
  refine kindsOf_append ?_ (kindsOf_map _ _)
  refine kindsOf_append ?_ (kindsOf_map _ _)
  refine kindsOf_append ?_ (kindsOf_map _ _)
  exact kindsOf_append (kindsOf_map _ _) (kindsOf_map _ _)

theorem Topology.kinds_options {t : Topology} (h : t.devices ≠ []) :
    kindsOf t.options ∈ (char "device" * star (char "device") :
      RegularExpression String).matches' := by
  obtain ⟨d, ds, hdevices⟩ := List.exists_cons_of_ne_nil h
  have hsplit : t.options = [⟨"device", d.parameters⟩] ++
      (d.allParameters.tail ++ ds.flatMap TopLevel.allParameters).map fun ps =>
        ⟨"device", ps⟩ := by
    rw [options, hdevices]
    rfl
  rw [hsplit]
  exact kindsOf_append (kindsOf_singleton _) (kindsOf_map _ _)

theorem Target.kinds_options {t : Target} {m : MachineInfo}
    (hidentity : t.settings.identity = ⟨m.name, some m.id⟩)
    (hclock : t.settings.clock = Build.clock) (hdevices : t.tree.topology.devices ≠ []) :
    kindsOf t.options ∈ m.kinds.matches' :=
  kindsOf_append (kindsOf_append (Guest.Settings.kinds_options hidentity hclock)
    t.resources.kinds_options) (Topology.kinds_options hdevices)

end Kinds

section Rows

variable {machine : MachineInfo} {pools : NameMap Pool}

def BlockNode.row (node : BlockNode) : List (List String) :=
  [[node.driver], [node.name], node.backing?.toList]

theorem BlockNode.columns_parameters (node : BlockNode) :
    ["driver", "node-name", "file"].map (column node.parameters) = node.row := by
  have hflags (f : NodeFlags) (name : String) (hname : name ∈ ["driver", "node-name", "file"]) :
      column f.parameters name = [] := by
    simp only [List.mem_cons, List.not_mem_nil, or_false] at hname
    rcases hname with rfl | rfl | rfl <;> cases hzeroes : f.detectZeroes <;>
      cases hdiscard : f.discard <;> simp [NodeFlags.parameters, hzeroes, hdiscard]
  cases node <;> simp [parameters, hflags, row, driver, name, backing?]

theorem Volume.blockRows_eq (v : Volume) : v.blockRows machine pools =
    (v.blockNodes machine pools).map BlockNode.row := by
  have hchild (name : String) : name ++ "-file" = BlockNode.childName name "file" := by
    rw [BlockNode.childName, String.append_assoc]
    rfl
  rw [blockRows, blockNodes, placed?]
  cases pools.get? v.storage with
  | none => rfl
  | some pool =>
    obtain ⟨path, pattern, kind, readOnly⟩ := pool
    simp only [Option.bind_some, Attachment.ofKind?, hchild]
    -- Only the node of firmware is named by what the pool allows.
    generalize hfirmware :
      (if readOnly = true then v.name else machine.name ++ "-" ++ v.name) = name
    split_ifs with hraw
    case neg => rw [List.lookup_eq_none_iff.2 (by simp_all)]; rfl
    · rcases hraw with rfl | rfl <;> rfl
    all_goals subst_vars; rfl

theorem CharDevice.column_id (d : CharDevice) : column d.parameters "id" = [d.id] := by
  cases d with
  | unixSocket id path server wait =>
    cases server <;> cases wait <;> simp [parameters, bare]
  | _ => simp [parameters, bare, number]

end Rows

theorem Parameter.column_wiring {name : String} (h : name ∈ wires) (ps : List Parameter) :
    column (wiring ps) name = column ps name := by
  have hname (p : Parameter) : (p.name == name && decide (p.name ∈ wires)) = (p.name == name) := by
    rw [Bool.and_eq_left_iff_imp]
    exact fun hp => decide_eq_true (beq_iff_eq.1 hp ▸ h)
  rw [column, wiring, List.filter_filter, List.filter_congr fun p _ => hname p, column]

section Nested

theorem Controller.get?_bus_of_mem {c : Controller} {e : List Parameter}
    (h : e ∈ c.endpointParameters) : get? e "bus" = some c.bus := by
  obtain ⟨i, hi, rfl⟩ := List.mem_mapIdx.1 h
  simp

theorem RootPort.InOrder.nested {port : RootPort} (h : port.InOrder) :
    Branch.Nested (TopLevel.rootPort port).allParameters := by
  have hport : get? port.parameters "id" = some port.id := by simp [RootPort.parameters]
  cases hdown : port.downstream with
  | none => simp [TopLevel.allParameters, TopLevel.downstream?, hdown, Branch.Nested]
  | some device =>
    have hbus : get? device.parameters "bus" = get? port.parameters "id" := by
      rw [device.get?_bus, h.behind device hdown, hport]
    simp only [TopLevel.allParameters, TopLevel.downstream?, hdown, TopLevel.parameters]
    cases device with
    | controller c =>
      have hid : get? c.parameters "id" = some c.id := (Downstream.controller c).get?_id
      refine ⟨hbus, fun e he => ?_⟩
      rw [Controller.get?_bus_of_mem he, hid]
      rfl
    | _ => exact ⟨hbus, by simp⟩

theorem Topology.InOrder.nested {t : Topology} (h : t.InOrder) {d : TopLevel}
    (hd : d ∈ t.devices) : Branch.Nested d.allParameters := by
  cases d with
  | rootPort port => exact (h.ports port hd).nested
  | _ => trivial

/-- Only a top-level device itself is on the root complex. -/
theorem TopLevel.get?_addr_behind {d : TopLevel} {ps : List Parameter}
    (h : ps ∈ d.allParameters.tail) : get? ps "addr" = none := by
  have haddr : "addr" ∈ PciAddress.names := List.mem_cons_self
  rw [allParameters, List.tail_cons] at h
  cases hdown : d.downstream? with
  | none => simp [hdown] at h
  | some device =>
    have hbehind : get? device.parameters "addr" = none := device.get?_complex haddr
    rw [hdown] at h
    cases device with
    | controller c =>
      rcases List.mem_cons.1 h with rfl | he
      · exact hbehind
      · obtain ⟨i, hi, rfl⟩ := List.mem_mapIdx.1 he
        have hown : get? c.endpoints[i].ownParameters "addr" = none :=
          c.endpoints[i].get?_complex haddr
        simp [hown]
    | _ =>
      obtain rfl := List.mem_singleton.1 h
      exact hbehind

theorem TopLevel.addresses_allParameters (d : TopLevel) :
    d.allParameters.filterMap (get? · "addr") = (d.address?.map PciAddress.text).toList := by
  have hbehind : d.allParameters.tail.filterMap (get? · "addr") = [] :=
    List.filterMap_eq_nil_iff.2 fun _ => get?_addr_behind
  have hcons : d.allParameters = d.parameters :: d.allParameters.tail := rfl
  rw [hcons, List.filterMap_cons, hbehind, get?_addr]
  cases d.address? <;> rfl

end Nested

namespace Target

variable {t : Target}

theorem monitorRows_options (h : t.settings.monitors.map (·.charDevice) =
    t.resources.charDevices.names.filter CharDevice.isMonitorId) :
    rows t.options "mon" ["chardev"] =
      ((valuesOf t.options "chardev" "id").filter CharDevice.isMonitorId).map fun id => [[id]] := by
  have hids : valuesOf t.options "chardev" "id" = t.resources.charDevices.names := by
    rw [valuesOf, filter_options t.charDevice_mem_sections, ofKind, List.map_map,
      List.flatMap_map]
    exact (List.flatMap_congr fun d _ => d.column_id).trans List.map_eq_flatMap.symm
  have hmonitor (m : Guest.Monitor) : column m.parameters "chardev" = [m.charDevice] := by
    cases hpretty : m.pretty <;> simp [Guest.Monitor.parameters, flag, hpretty]
  rw [hids, ← h, List.map_map]
  simp only [rows, table, Bool.and_true, filter_options_mon, List.map_map]
  exact List.map_congr_left fun m _ => congrArg (fun ids => [ids]) (hmonitor m)

theorem blockRows_options (t : Target) :
    rows t.options "blockdev" ["driver", "node-name", "file"] =
      t.resources.blocks.entries.map BlockNode.row := by
  rw [rows_options t.block_mem_sections, List.map_map]
  exact List.map_congr_left fun node _ => node.columns_parameters

theorem interfaceRows_options {machine : MachineInfo} {networks : NameMap Network}
    {items : List Item} (h : t.resources.taps.map some = Item.taps machine networks items) :
    rows t.options "netdev" ["id", "ifname"] = (items.filterMap Item.network?).mapIdx fun i c =>
      [["net." ++ toString i], [c.linkName machine.name]] := by
  have hrow (tap : Tap) :
      ["id", "ifname"].map (column tap.parameters) = [[tap.id], [tap.interface]] := by
    simp [Tap.parameters, bare]
  have htaps : (t.resources.taps.map some).map (Option.map Tap.row) = _ :=
    h ▸ Item.interfaceRows_taps items
  rw [rows_options t.tap_mem_sections, List.map_map]
  refine List.ext_getElem ?_ fun i hi hi' => ?_
  · simpa using congrArg List.length htaps
  · have hat := List.getElem_of_eq htaps (i := i) (by simpa using hi)
    simp only [List.getElem_map, List.getElem_mapIdx, Option.map_some] at hat
    obtain ⟨n, -, hn⟩ := Option.map_eq_some_iff.1 hat.symm
    rw [List.getElem_map, List.getElem_mapIdx, Function.comp_apply, hrow]
    exact (congrArg (fun row => (row.drop 1).take 2) hn).symm

/-- The first device is the first that was placed. -/
theorem driver_head_options {ps : List Placement} (h : t.Lists ps)
    {driver : String} {rest : List Branch}
    (hps : Placement.branches ps = { rows := [[⟨"driver", driver⟩]] } :: rest) :
    (rows t.options "device" ["driver"]).head? = some [[driver]] := by
  obtain ⟨d, ds, hdevices, hd, -⟩ := List.map_eq_cons_iff.1 (h.tree.branches.trans hps)
  have hwiring : wiring d.parameters = [⟨"driver", driver⟩] :=
    (List.cons.inj (congrArg Branch.rows hd)).1
  have hdriver : column d.parameters "driver" = [driver] := by
    rw [← column_wiring (by decide), hwiring]
    simp
  simp [rows_options t.device_mem_sections, hdevices, TopLevel.allParameters, hdriver]

theorem branches_options {ps : List Placement} (h : t.Lists ps)
    (horder : t.tree.topology.InOrder) : ∃ branches : List (List (List Parameter)),
      (t.options.filter (·.kind == "device")).map (·.parameters) = branches.flatten ∧
      branches.map (·.map wiring) = (Placement.branches ps).map Branch.rows ∧
      ∀ b ∈ branches, Branch.Nested b := by
  refine ⟨t.tree.topology.devices.map TopLevel.allParameters, ?_, ?_, ?_⟩
  · rw [filter_options t.device_mem_sections, ofKind, List.map_map, List.flatMap_def]
    exact List.map_id _
  · rw [← h.tree.branches, List.map_map, List.map_map]
    rfl
  · intro b hb
    obtain ⟨d, hd, rfl⟩ := List.mem_map.1 hb
    exact horder.nested hd

theorem addresses_options (horder : t.tree.topology.InOrder) :
    (t.options.filter (·.kind == "device")).filterMap (fun o => get? o.parameters "addr") =
      (List.range t.tree.topology.functions).map fun i => (PciAddress.ofIndex i).text := by
  have hall (ds : List TopLevel) : (ds.flatMap TopLevel.allParameters).filterMap (get? · "addr") =
      (ds.filterMap TopLevel.address?).map PciAddress.text := by
    rw [List.filterMap_flatMap, List.map_filterMap, List.filterMap_eq_flatMap_toList]
    exact List.flatMap_congr fun d _ => d.addresses_allParameters
  rw [filter_options t.device_mem_sections, ofKind, List.filterMap_map]
  exact (hall _).trans (by rw [horder.addresses, List.map_map]; rfl)

end Target

theorem Definition.exists_branches (machine : MachineInfo) (pools : NameMap Pool) (d : Definition) :
    ∃ rest, Placement.branches (d.placements machine pools) =
      { rows := [[⟨"driver", "pvpanic-pci"⟩]] } :: rest := by
  simp [Placement.branches, placements, Placement.panic, Placement.branch?, List.mapIdx_cons,
    List.reduceOption_cons_of_some]

/-- The options of a guest stand in the order that its machine and its definition decide. -/
theorem Machine.build_in_order {m : Machine} {catalog : Catalog} {locations : Locations}
    {t : Target} (h : m.build catalog locations = .ok t) :
    ∃ d, m.resolve catalog = .ok d ∧ d.Orders m.info catalog.pools t.options := by
  obtain ⟨d, hd, -⟩ := addDefinition_of_build h
  have hlists := lists_of_build hd h
  obtain ⟨host, port, -, hsettings⟩ := settings_of_build hd h
  have hcarries := carries_of_build hd h
  have horder := (reached_of_build h).inOrder
  obtain ⟨-, hentries, -⟩ := blockNodes_of_build hd h
  have hdevices : t.tree.topology.devices ≠ [] := by
    obtain ⟨rest, hrest⟩ := d.exists_branches m.info catalog.pools
    intro hnil
    simpa [hnil, hrest] using hlists.tree.branches
  refine ⟨d, hd, ?kinds, ?monitors, ?blocks, ?interfaces, ?panic, ?functions, ?devices⟩
  case kinds =>
    exact Target.kinds_options (congrArg Guest.Settings.identity hsettings)
      (congrArg Guest.Settings.clock hsettings) hdevices
  case monitors => exact Target.monitorRows_options (monitors_of_build hd h)
  case blocks =>
    rw [t.blockRows_options, hentries, Definition.blockNodes, List.map_flatMap]
    exact List.flatMap_congr fun v _ => v.blockRows_eq.symm
  case interfaces =>
    rw [Target.interfaceRows_options hcarries.resources.taps, d.filterMap_network?]
  case panic =>
    obtain ⟨rest, hrest⟩ := d.exists_branches m.info catalog.pools
    exact Target.driver_head_options hlists hrest
  case functions => exact ⟨_, Target.addresses_options horder⟩
  case devices => exact Target.branches_options hlists horder

namespace Sample

/-- The devices behind each other: the installer is plugged in after what the screen brings. -/
def desktopBranches : List (List (List String)) := [
  [["pvpanic-pci"]],
  [["ioh3420"], ["virtio-serial-pci"], ["virtserialport", "guestagent"],
    ["virtserialport", "vdagent"]],
  [["qxl-vga"]],
  [["ioh3420"], ["qemu-xhci"], ["usb-tablet"], ["usb-redir", "usbredir.0"],
    ["usb-redir", "usbredir.1"], ["usb-storage", "setup"]],
  [["tpm-tis", "tpm.0"]],
  [["ioh3420"], ["virtio-scsi-pci"], ["scsi-hd", "desk-os"]],
  [["ioh3420"], ["virtio-net-pci", "net.0"]]]

theorem desktop_in_order : ∃ t, desktop.build host {} = .ok t ∧
    ∃ d, desktop.resolve host = .ok d ∧ d.Orders desktop.info host.pools t.options ∧
      (Placement.branches (d.placements desktop.info host.pools)).map
          (·.rows.map (·.map (·.value))) = desktopBranches := by
  have hplaced : (desktop.resolve host).toOption.any (fun d =>
      (Placement.branches (d.placements desktop.info host.pools)).map
          (·.rows.map (·.map (·.value))) == desktopBranches) = true := by
    decide +kernel
  obtain ⟨d, hd, hplaced⟩ := exists_of_any hplaced
  obtain ⟨t, ht⟩ := exists_build_desktop
  obtain ⟨d', hd', horders⟩ := Machine.build_in_order ht
  cases hd.symm.trans hd'
  exact ⟨t, ht, d, hd, horders, eq_of_beq hplaced⟩

end Sample

end GuestCompiler
