import GuestCompiler.Proofs.MachineInventory

/-!
# What a definition demands

How many functions of the root complex, places on controllers and threads a build takes can be told
from the definition: from its attributes, from the kinds of the pools that its volumes are in, and
from the numbers of its connections and devices. A build that succeeds takes just as much, and one
that fails for want of room demands more of something than there is (`Machine.build_capacity`).
-/
namespace GuestCompiler

namespace Drive

/-- The kinds of pools whose volumes become a drive. -/
def kinds : Drive → List String
  | scsiDisk => ["raw", "raw-scsi"]
  | blockDisk => ["raw-block", "vvfat-block"]
  | sataCd => ["iso-ahci"]
  | scsiCd => ["iso-scsi"]
  | usbDisk => ["iso-usb"]

/-- The kinds of pools whose volumes become a drive of some sort. -/
def kindsWhere (sort : Drive → Bool) : List String :=
  ([scsiDisk, blockDisk, sataCd, scsiCd, usbDisk].filter sort).flatMap kinds

theorem mem_kindsWhere {sort : Drive → Bool} {kind : String} :
    kind ∈ kindsWhere sort ↔ ∃ d, sort d = true ∧ kind ∈ d.kinds := by
  simp only [kindsWhere, List.mem_flatMap, List.mem_filter, and_assoc]
  refine exists_congr fun d => and_iff_right ?_
  cases d <;> simp

end Drive

theorem Attachment.drive?_eq_some_iff {kind : String} {d : Drive} :
    (Attachment.ofKind? kind).bind drive? = some d ↔ kind ∈ d.kinds := by
  refine ⟨fun h => ?_, fun h => ?_⟩
  · unfold ofKind? at h
    split_ifs at h <;> cases h <;> simp_all [Drive.kinds]
  · cases d <;> simp only [Drive.kinds, List.mem_cons, List.not_mem_nil, or_false] at h
    case scsiDisk => rcases h with rfl | rfl <;> rfl
    case blockDisk => rcases h with rfl | rfl <;> rfl
    all_goals subst h; rfl

namespace Definition

/-- The kinds of the pools that the attached volumes are in. -/
def poolKinds (pools : NameMap Pool) (d : Definition) : List String :=
  d.attached.filterMap fun v => (pools.get? v.storage).map Pool.kind

/-- How many attached volumes are in pools of certain kinds. -/
def inPools (pools : NameMap Pool) (kinds : List String) (d : Definition) : Nat :=
  (d.poolKinds pools).countP (· ∈ kinds)

/-- The functions of the root complex that a guest needs: one for the panic device and for each
display, one for each controller that something is on, and one for each device with a port. -/
def functionDemand (pools : NameMap Pool) (d : Definition) : Nat :=
  1 + (if d.attributes.spice.enabled then max 1 (min d.attributes.spice.displays.toNat 4) else 0) +
    (if d.attributes.agent.enabled ∨ d.attributes.spice.enabled then 1 else 0) +
    (if d.attributes.spice.enabled ∨ 0 < d.inPools pools ["iso-usb"] then 1 else 0) +
    (if 0 < d.inPools pools ["raw", "raw-scsi", "iso-scsi"] then 1 else 0) +
    d.inPools pools ["raw-block", "vvfat-block"] + d.connections.length + d.devices.length

/-- No more is needed than there is. -/
structure WithinLimits (pools : NameMap Pool) (d : Definition) : Prop where
  functions : d.functionDemand pools ≤ 256
  sata : d.inPools pools ["iso-ahci"] ≤ 6
  scsi : d.inPools pools ["raw", "raw-scsi", "iso-scsi"] ≤ 28
  usb : d.inPools pools ["iso-usb"] + (if d.attributes.spice.enabled then 3 else 0) ≤ 15

/-- One thread, if it serves the drive of some attached volume. -/
def threadDemand (pools : NameMap Pool) (d : Definition) : Nat :=
  if 0 < d.inPools pools ["raw", "raw-scsi", "raw-block", "vvfat-block", "iso-scsi"] then 1 else 0

end Definition

/-- A sort of items that can be told without their names. -/
structure ItemSort where
  function : Bool := false
  serialPort : Bool := false
  usbPort : Bool := false
  drive : Drive → Bool := fun _ => false
  network : Bool := false
  passthrough : Bool := false

namespace ItemSort

def test (s : ItemSort) : Item → Bool
  | .function => s.function
  | .serialPort => s.serialPort
  | .usbPort => s.usbPort
  | .charDevice _ => false
  | .tpmDevice _ => false
  | .drive d _ _ => s.drive d
  | .network _ => s.network
  | .passthrough _ => s.passthrough

variable {machine : MachineInfo} {pools : NameMap Pool} {runDir : Path}

/-- A volume's item is a drive of a sort where its pool's kind becomes such a drive. -/
theorem countP_volume (s : ItemSort) (v : Volume) : (v.items machine pools).countP s.test =
    ((pools.get? v.storage).map Pool.kind).toList.countP (· ∈ Drive.kindsWhere s.drive) := by
  rw [Volume.items, Volume.placed?]
  cases pools.get? v.storage with
  | none => rfl
  | some pool =>
    have hmem : pool.kind ∈ Drive.kindsWhere s.drive ↔
        ∃ d, s.drive d = true ∧ (Attachment.ofKind? pool.kind).bind Attachment.drive? = some d := by
      simp only [Drive.mem_kindsWhere, Attachment.drive?_eq_some_iff]
    cases ha : Attachment.ofKind? pool.kind with
    | none => simp [hmem, ha]
    | some a =>
      cases hd : a.drive? with
      | none => simp [hmem, ha, hd]
      | some d =>
        simp only [hmem, ha, hd, Option.bind_some, Option.map_some, Option.toList_some,
          List.countP_singleton, Option.some.injEq, exists_eq_right', decide_eq_true_eq]
        rfl

theorem countP_volumes (s : ItemSort) (vs : List Volume) :
    (vs.flatMap (Volume.items machine pools)).countP s.test =
      (vs.filterMap fun v => (pools.get? v.storage).map Pool.kind).countP
        (· ∈ Drive.kindsWhere s.drive) := by
  simp only [List.countP_flatMap, List.filterMap_eq_flatMap_toList, Function.comp_def,
    countP_volume]

theorem countP_attributes (s : ItemSort) (a : Attributes) (name : String) :
    (a.items name runDir).countP s.test =
      (if a.agent.enabled then s.serialPort.toNat else 0) +
        if a.spice.enabled then
          max 1 (min a.spice.displays.toNat 4) * s.function.toNat + s.serialPort.toNat +
            3 * s.usbPort.toNat
        else 0 := by
  have hcount (n : Nat) (b : Bool) : (if b = true then n else 0) = n * b.toNat := by
    cases b <;> simp
  have hqmp : (a.qmp.items name runDir).countP s.test = 0 := by
    unfold Qmp.items
    split <;> simp [List.countP_eq_zero, test]
  have hagent : a.agent.items.countP s.test =
      if a.agent.enabled then s.serialPort.toNat else 0 := by
    unfold Agent.items
    split
    · simp only [List.countP_cons, List.countP_nil, hcount]
      simp [test]
    · rfl
  have hspice : a.spice.items.countP s.test = if a.spice.enabled then
      max 1 (min a.spice.displays.toNat 4) * s.function.toNat + s.serialPort.toNat +
        3 * s.usbPort.toNat else 0 := by
    unfold Spice.items
    split
    · simp only [List.countP_append, List.countP_replicate, List.countP_cons, List.countP_nil,
        List.range_succ, List.range_zero, List.flatMap_append, List.flatMap_cons, List.flatMap_nil,
        hcount, Build.displayCount]
      simp only [test, Bool.toNat_false]
      omega
    · rfl
  have htpm : (if a.tpm then [Item.charDevice "tpm.0.socket", .tpmDevice "tpm.0"] else []).countP
      s.test = 0 := by
    split <;> simp [test]
  simp only [Attributes.items, List.countP_append, hqmp, hagent, hspice, htpm]
  omega

/-- What there is of a sort among the items of a definition. -/
theorem countP_items (s : ItemSort) (d : Definition) :
    (d.items machine pools runDir).countP s.test =
      s.function.toNat + d.inPools pools (Drive.kindsWhere s.drive) +
        ((if d.attributes.agent.enabled then s.serialPort.toNat else 0) +
          if d.attributes.spice.enabled then
            max 1 (min d.attributes.spice.displays.toNat 4) * s.function.toNat +
              s.serialPort.toNat + 3 * s.usbPort.toNat
          else 0) +
        d.connections.length * s.network.toNat + d.devices.length * s.passthrough.toNat := by
  have hconnections : (d.connections.map Item.network).countP s.test =
      d.connections.length * s.network.toNat := by
    cases h : s.network <;> simp [List.countP_map, Function.comp_def, test, h]
  have hdevices : (d.devices.map Item.passthrough).countP s.test =
      d.devices.length * s.passthrough.toNat := by
    cases h : s.passthrough <;> simp [List.countP_map, Function.comp_def, test, h]
  have hfunction : [Item.function].countP s.test = s.function.toNat := by
    cases h : s.function <;> simp [test, h]
  simp only [Definition.items, List.countP_append, countP_volumes, countP_attributes, hfunction,
    hconnections, hdevices, Definition.inPools, Definition.poolKinds, Definition.attached,
    List.filterMap_append]
  omega

end ItemSort

namespace Definition

variable (machine : MachineInfo) (pools : NameMap Pool) (runDir : Path) (d : Definition)

theorem countP_isLone : (d.items machine pools runDir).countP Item.isLone =
    1 + (if d.attributes.spice.enabled then
        max 1 (min d.attributes.spice.displays.toNat 4) else 0) +
      d.inPools pools ["raw-block", "vvfat-block"] + d.connections.length + d.devices.length := by
  have hsort : Item.isLone = ItemSort.test
      ⟨true, false, false, (· == .blockDisk), true, true⟩ := by
    funext x; cases x <;> rfl
  have hkinds : Drive.kindsWhere (· == .blockDisk) = ["raw-block", "vvfat-block"] := rfl
  simp only [hsort, ItemSort.countP_items, hkinds, Bool.toNat_true, Bool.toNat_false]
  split_ifs <;> omega

theorem countP_isSata : (d.items machine pools runDir).countP Item.isSata =
    d.inPools pools ["iso-ahci"] := by
  have hsort : Item.isSata = ItemSort.test { drive := (· == .sataCd) } := by
    funext x; cases x <;> rfl
  have hkinds : Drive.kindsWhere (· == .sataCd) = ["iso-ahci"] := rfl
  simp [hsort, ItemSort.countP_items, hkinds]

theorem countP_isThreaded : (d.items machine pools runDir).countP Item.isThreaded =
    d.inPools pools ["raw", "raw-scsi", "raw-block", "vvfat-block", "iso-scsi"] := by
  have hsort : Item.isThreaded = ItemSort.test { drive := Drive.isThreaded } := by
    funext x; cases x <;> rfl
  have hkinds : Drive.kindsWhere Drive.isThreaded =
    ["raw", "raw-scsi", "raw-block", "vvfat-block", "iso-scsi"] := rfl
  simp [hsort, ItemSort.countP_items, hkinds]

theorem hosted_serial : Item.hosted (d.items machine pools runDir) .serial =
    (if d.attributes.agent.enabled then 1 else 0) +
      if d.attributes.spice.enabled then 1 else 0 := by
  have hsort : (·.sharing? == some .serial) = ItemSort.test { serialPort := true } := by
    funext x
    cases x with
    | drive d _ _ => cases d <;> rfl
    | _ => rfl
  have hkinds : Drive.kindsWhere (fun _ => false) = [] := rfl
  simp [Item.hosted, hsort, ItemSort.countP_items, hkinds, inPools]

theorem hosted_usb : Item.hosted (d.items machine pools runDir) .usb =
    d.inPools pools ["iso-usb"] + if d.attributes.spice.enabled then 3 else 0 := by
  have hsort : (·.sharing? == some .usb) =
      ItemSort.test { usbPort := true, drive := (·.sharing? == some .usb) } := by
    funext x; cases x <;> rfl
  have hkinds : Drive.kindsWhere (·.sharing? == some .usb) = ["iso-usb"] := rfl
  simp [Item.hosted, hsort, ItemSort.countP_items, hkinds]

theorem hosted_scsi : Item.hosted (d.items machine pools runDir) (.scsi ⟨0⟩) =
    d.inPools pools ["raw", "raw-scsi", "iso-scsi"] := by
  have hsort : (·.sharing? == some (.scsi ⟨0⟩)) =
      ItemSort.test { drive := (·.sharing? == some (.scsi ⟨0⟩)) } := by
    funext x; cases x <;> rfl
  have hkinds : Drive.kindsWhere (·.sharing? == some (.scsi ⟨0⟩)) =
    ["raw", "raw-scsi", "iso-scsi"] := rfl
  simp [Item.hosted, hsort, ItemSort.countP_items, hkinds]

theorem functions_items :
    Item.functions (d.items machine pools runDir) = d.functionDemand pools := by
  simp only [Item.functions, countP_isLone, Item.sharedKinds, List.countP_cons, List.countP_nil,
    hosted_serial, hosted_usb, hosted_scsi, functionDemand]
  cases d.attributes.agent.enabled <;> cases d.attributes.spice.enabled <;> simp <;> omega

theorem fits_items_iff : Item.Fits (d.items machine pools runDir) ↔ d.WithinLimits pools := by
  refine ⟨fun h => ?_, fun h => ⟨?_, ?_, fun kind => ?_⟩⟩
  · exact {
      functions := d.functions_items machine pools runDir ▸ h.functions
      sata := d.countP_isSata machine pools runDir ▸ h.sata
      scsi := d.hosted_scsi machine pools runDir ▸ h.hosted (.scsi ⟨0⟩)
      usb := d.hosted_usb machine pools runDir ▸ h.hosted .usb }
  · exact Nat.le_trans (Nat.le_of_eq (d.functions_items machine pools runDir)) h.functions
  · exact Nat.le_trans (Nat.le_of_eq (d.countP_isSata machine pools runDir)) h.sata
  · by_cases hkind : kind ∈ Item.sharedKinds
    · simp only [Item.sharedKinds, List.mem_cons, List.not_mem_nil, or_false] at hkind
      rcases hkind with rfl | rfl | rfl
      · rw [hosted_serial]
        cases d.attributes.agent.enabled <;> cases d.attributes.spice.enabled <;>
          simp [ControllerKind.capacity]
      · exact Nat.le_trans (Nat.le_of_eq (d.hosted_usb machine pools runDir)) h.usb
      · exact Nat.le_trans (Nat.le_of_eq (d.hosted_scsi machine pools runDir)) h.scsi
    · -- Nothing is on a controller of any other kind, whatever its capacity.
      have hnone : Item.hosted (d.items machine pools runDir) kind = 0 :=
        List.countP_eq_zero.2 fun x _ hx => hkind (Item.mem_sharedKinds (eq_of_beq hx))
      rw [hnone]
      exact Nat.zero_le _

theorem length_threads : (if (d.items machine pools runDir).any Item.isThreaded then
    [(⟨0⟩ : IoThread)] else []).length = d.threadDemand pools := by
  have hany : (d.items machine pools runDir).any Item.isThreaded = true ↔
      0 < d.inPools pools ["raw", "raw-scsi", "raw-block", "vvfat-block", "iso-scsi"] := by
    rw [← countP_isThreaded machine pools runDir, List.countP_pos_iff, List.any_eq_true]
  rw [threadDemand, apply_ite List.length]
  exact if_congr hany rfl rfl

end Definition

/-- A guest has as many functions and threads as its definition demands, which are no more than
there are; and where a build fails for want of room, something that is demanded is more. -/
theorem Machine.build_capacity (m : Machine) (catalog : Catalog) (locations : Locations) :
    (∀ t, m.build catalog locations = .ok t → ∃ d, m.resolve catalog = .ok d ∧
      t.tree.topology.functions = d.functionDemand catalog.pools ∧
        d.WithinLimits catalog.pools ∧
          t.resources.threads.length = d.threadDemand catalog.pools) ∧
    ∀ e, m.build catalog locations = .error e → e.isCapacity = true →
      ∃ d, m.resolve catalog = .ok d ∧ ¬ d.WithinLimits catalog.pools := by
  refine ⟨fun t ht => ?_, fun e he hcapacity => ?_⟩
  · obtain ⟨d, hd, -⟩ := addDefinition_of_build ht
    have hcarries := carries_of_build hd ht
    refine ⟨d, hd, ?_, (d.fits_items_iff _ _ _).1 hcarries.tree.fits, ?_⟩
    · rw [hcarries.tree.functions, d.functions_items]
    · rw [hcarries.resources.threads, d.length_threads]
  · obtain ⟨cause, rfl, ⟨name, rfl⟩ | ⟨d, hd, hfault⟩⟩ := fault_of_build he
    · exact nomatch hcapacity
    · refine ⟨d, hd, fun hlimits => ?_⟩
      cases hfault with
      | full hfits => exact hfits ((d.fits_items_iff _ _ _).2 hlimits)
      | _ => exact nomatch hcapacity

namespace Sample

/-- A host with a pool of discs for the onboard ports. -/
def library : Catalog where
  pools := .ofList [("discs", { path := ⟨"/discs"⟩, kind := "iso-ahci", readOnly := true })]

/-- A machine with one disc more than there are ports for. -/
def jukebox : Machine where
  name := "jukebox"
  definition := {
    volumes := (List.range 7).map fun n => { name := "disc" ++ toString n, storage := "discs" } }

theorem jukebox_capacity :
    (∃ t, desktop.build host {} = .ok t ∧ ∃ d, desktop.resolve host = .ok d ∧
      t.tree.topology.functions = d.functionDemand host.pools ∧
        d.functionDemand host.pools = 6 ∧ t.resources.threads.length = 1) ∧
    ∃ e, jukebox.build library {} = .error e ∧
      ∃ d, jukebox.resolve library = .ok d ∧ ¬ d.WithinLimits library.pools := by
  refine ⟨?_, .machine "jukebox" (.capacity "SATA controller" 6 6), ?_⟩
  · have hdemand : (desktop.resolve host).toOption.any (fun d =>
        d.functionDemand host.pools == 6 && d.threadDemand host.pools == 1) = true := by
      decide +kernel
    obtain ⟨d, hd, hany⟩ := exists_of_any hdemand
    obtain ⟨hsix, hone⟩ := (Bool.and_eq_true _ _).mp hany
    obtain ⟨t, ht⟩ := exists_build_desktop
    obtain ⟨d', hd', hfunctions, -, hthreads⟩ := (desktop.build_capacity host {}).1 t ht
    cases hd.symm.trans hd'
    exact ⟨t, ht, d, hd, hfunctions, eq_of_beq hsix, hthreads.trans (eq_of_beq hone)⟩
  · have hfull : jukebox.build library {} =
        .error (.machine "jukebox" (.capacity "SATA controller" 6 6)) := by
      decide +kernel
    exact ⟨hfull, (jukebox.build_capacity library {}).2 _ hfull rfl⟩

end Sample

end GuestCompiler
