import GuestCompiler.Proofs.Attached

/-!
# Boot order

Boot positions are given out along the volumes, one to each drive that a guest can be booted from,
whatever the drive is attached to. So those on the devices are the numbers from 1 to how many such
drives there are, each on one device (`Machine.build_boot_order`).
-/
namespace GuestCompiler

section Positions

variable (machine : MachineInfo) (pools : NameMap Pool)

/-- The block node that the drive of a volume refers to, if the volume comes with one. -/
def Volume.driveNode? (v : Volume) : Option String := do
  let pool ← pools.get? v.storage
  let _ ← Pool.driver? pool.kind
  v.nodeName? machine pools

/-- The attached volumes that come with a drive, in order, each with the node of its drive. -/
def Definition.drives (d : Definition) : List (Volume × String) :=
  d.attached.filterMap fun v => (v.driveNode? machine pools).map (v, ·)

/-- How many of some drives can be booted from. -/
def bootableCount (drives : List (Volume × String)) : Nat := drives.countP fun e => e.1.bootable

/-- The position of a drive with some others before it. -/
def bootPosition? (before : List (Volume × String)) (v : Volume) : Option Nat :=
  if v.bootable then some (bootableCount before + 1) else none

/-- Drives with their nodes and positions. -/
def bootEntries (drives : List (Volume × String)) : List (String × Option Nat) :=
  drives.mapIdx fun i e => (e.2, bootPosition? (drives.take i) e.1)

theorem bootableCount_cons (e : Volume × String) (drives : List (Volume × String)) :
    bootableCount (e :: drives) = bootableCount drives + if e.1.bootable then 1 else 0 :=
  List.countP_cons

/-- The positions of the drives that have one are the next ones after each other. -/
theorem positions_bootEntries (drives : List (Volume × String)) :
    (bootEntries drives).filterMap Prod.snd = List.range' 1 (bootableCount drives) := by
  -- Behind some other drives, the positions go on from their number.
  suffices hall : ∀ n, (drives.mapIdx fun i e => (e.2,
      if e.1.bootable then some (n + bootableCount (drives.take i) + 1) else none)).filterMap
        Prod.snd = List.range' (n + 1) (bootableCount drives) by
    simpa [bootEntries, bootPosition?] using hall 0
  induction drives with
  | nil => exact fun _ => rfl
  | cons e drives ih =>
    intro n
    simp only [List.mapIdx_cons, List.take_zero, List.take_succ_cons, bootableCount_cons]
    by_cases he : e.1.bootable = true
    · have hnext (k : Nat) : n + (k + 1) + 1 = n + 1 + k + 1 := by omega
      simp only [he, if_true, hnext, List.filterMap_cons, ih, List.range'_succ]
      rfl
    · simp only [he, Bool.false_eq_true, if_false, Nat.add_zero, List.filterMap_cons, ih]

end Positions

section Cards

open Parameter CommandOption

/-- The node and the boot position of a drive. -/
def Card.bootEntry? : Card → Option (String × Option Nat)
  | drive _ node disk => some (node, disk.bootIndex)
  | _ => none

theorem bootReader : CardReader
    (row? (fun ps => column ps "drive" != []) ["drive", "bootindex"])
    (fun c => c.bootEntry?.map fun e => [[e.1], (e.2.map toString).toList]) := by
  refine (CardReader.ofDrives (by simp) (by simp)).congr fun c => ?_
  cases c <;> simp [Card.driveParameters?, Card.bootEntry?, row?]

/-- Only drives have a boot position. -/
theorem positionReader : CardReader
    (row? (fun ps => column ps "bootindex" != []) ["bootindex"])
    (fun c => (c.bootEntry?.bind Prod.snd).map fun n => [[toString n]]) := by
  refine (CardReader.ofDrives (by simp) (by simp)).congr fun c => ?_
  cases c with
  | drive _ _ disk =>
    cases hposition : disk.bootIndex <;>
      simp [Card.driveParameters?, Card.bootEntry?, row?, hposition]
  | _ => rfl

variable (t : Target)

theorem Target.bootRows_options :
    table t.options "device" (fun o => o.values "drive" != []) ["drive", "bootindex"] =
      (t.tree.topology.cards.filterMap Card.bootEntry?).map fun e =>
        [[e.1], (e.2.map toString).toList] := by
  rw [List.map_filterMap]
  exact (table_options t.device_mem_sections _ _).trans (bootReader.topology _)

theorem Target.positions_options :
    table t.options "device" (fun o => o.values "bootindex" != []) ["bootindex"] =
      ((t.tree.topology.cards.filterMap Card.bootEntry?).filterMap Prod.snd).map fun n =>
        [[toString n]] := by
  rw [List.filterMap_filterMap, List.map_filterMap]
  exact (table_options t.device_mem_sections _ _).trans (positionReader.topology _)

end Cards

section Items

/-- The volume and the node of a drive. -/
def Item.drive? : Item → Option (Volume × String)
  | drive _ p node => some (p.volume, node)
  | _ => none

theorem Item.isBootable_eq (x : Item) : x.isBootable = x.drive?.any fun e => e.1.bootable := by
  cases x <;> rfl

theorem Item.bootEntries_cards (items : List Item) :
    (cards items).filterMap Card.bootEntry? = bootEntries (items.filterMap drive?) := by
  rw [cards, emit_filterMap]
  refine emit_counted isBootable_eq
    (fun n e => (e.2, if e.1.bootable then some (n + 1) else none)) (fun before x => ?_) items
  cases x with
  | drive d p node => cases d <;> rfl
  | _ => rfl

variable {machine : MachineInfo} {pools : NameMap Pool} {runDir : Path}

theorem Volume.filterMap_drive? (v : Volume) : (v.items machine pools).filterMap Item.drive? =
    ((v.driveNode? machine pools).map (v, ·)).toList := by
  rw [items, driveNode?, nodeName?, placed?]
  cases pools.get? v.storage with
  | none => rfl
  | some pool =>
    simp only [Pool.driver?_eq, bind, Option.bind_some]
    cases Attachment.ofKind? pool.kind with
    | none => rfl
    | some a => cases hdrive : a.drive? <;> simp [hdrive, Item.drive?]

theorem Definition.filterMap_drive? (d : Definition) :
    (d.items machine pools runDir).filterMap Item.drive? = d.drives machine pools := by
  rw [d.filterMap_entries (fun v => (v.driveNode? machine pools).map (v, ·))
    (fun x hx => by cases x <;> simp_all [Item.drive?, Item.isEntry]) Volume.filterMap_drive?]
  simp [Item.drive?, drives]

theorem Volume.driveNode?_of_isBare {v : Volume} {pool : Pool}
    (hpool : pools.get? v.storage = some pool) (hbare : pool.isBare = true) :
    v.driveNode? machine pools = none := by
  have hdriver : Pool.driver? pool.kind = none := by
    rcases of_decide_eq_true hbare with hkind | hkind <;> rw [hkind] <;> rfl
  simp [driveNode?, hpool, hdriver]

end Items

/-- Options by which a guest is booted from the drives of a definition in order. -/
structure Definition.BootsInOrder (machine : MachineInfo) (pools : NameMap Pool) (d : Definition)
    (os : List CommandOption) : Prop where
  /-- Every device with a drive has the position that its volume comes to. -/
  drives : (CommandOption.table os "device" (fun o => o.values "drive" != [])
      ["drive", "bootindex"]).Perm
    ((bootEntries (d.drives machine pools)).map fun e => [[e.1], (e.2.map toString).toList])
  /-- Along the volumes, the positions count up from 1. -/
  positions : (bootEntries (d.drives machine pools)).filterMap Prod.snd =
    List.range' 1 (bootableCount (d.drives machine pools))
  /-- Over all devices, each of these positions is there once, and no other. -/
  devices : (CommandOption.table os "device" (fun o => o.values "bootindex" != [])
      ["bootindex"]).Perm
    ((List.range' 1 (bootableCount (d.drives machine pools))).map fun n => [[toString n]])

/-- The drives of a guest have the boot positions that their volumes come to, in order from 1 and
without a gap, and nothing else has one; a volume of firmware or of the security module uses none
up, whatever is there before. -/
theorem Machine.build_boot_order {m : Machine} {catalog : Catalog} {locations : Locations}
    {t : Target} (h : m.build catalog locations = .ok t) :
    ∃ d, m.resolve catalog = .ok d ∧ d.BootsInOrder m.info catalog.pools t.options ∧
      ∀ v pool, catalog.pools.get? v.storage = some pool → pool.isBare = true →
        v.driveNode? m.info catalog.pools = none ∧
        Edit.Keeps Target.bootOrder (fun _ => True) (Build.addVolume m.info catalog.pools v) ∧
        ∀ refer, Edit.Keeps Target.bootOrder (fun _ => True)
          (Build.addFirmwareVolume m.info catalog.pools v refer) := by
  obtain ⟨d, hd, -⟩ := addDefinition_of_build h
  have hentries : (t.tree.topology.cards.filterMap Card.bootEntry?).Perm
      (bootEntries (d.drives m.info catalog.pools)) := by
    have hcards := (carries_of_build hd h).tree.cards.filterMap Card.bootEntry?
    rwa [Item.bootEntries_cards, d.filterMap_drive?] at hcards
  have hbeside : Target.Beside Target.bootOrder := ⟨fun _ _ => rfl, fun _ _ => rfl⟩
  refine ⟨d, hd, ⟨?drives, positions_bootEntries _, ?devices⟩, fun v pool hpool hbare =>
    ⟨Volume.driveNode?_of_isBare hpool hbare, Build.addVolume_keeps hbeside hpool hbare,
      Build.addFirmwareVolume_keeps hbeside hpool hbare⟩⟩
  case drives =>
    rw [t.bootRows_options]
    exact hentries.map _
  case devices =>
    rw [t.positions_options, ← positions_bootEntries]
    exact (hentries.filterMap _).map _

namespace Sample

/-- The desktop with an installer before its disk, and between them a volume of the security module
and a disk that is not for booting. -/
def workbench : Machine := { desktop with definition := { desktop.definition with
  volumes := [{ name := "setup", storage := "media", bootable := true },
    { name := "state", storage := "secrets", bootable := true },
    { name := "data", storage := "images" },
    { name := "os", storage := "images", bootable := true }] } }

theorem workbench_boot_order : ∃ t, workbench.build host {} = .ok t ∧
    ∃ d, workbench.resolve host = .ok d ∧ d.BootsInOrder workbench.info host.pools t.options ∧
      bootEntries (d.drives workbench.info host.pools) =
        [("setup", some 1), ("desk-data", none), ("desk-os", some 2)] := by
  have hentries : (workbench.resolve host).toOption.any (fun d =>
      bootEntries (d.drives workbench.info host.pools) ==
        [("setup", some 1), ("desk-data", none), ("desk-os", some 2)]) = true := by
    decide +kernel
  have hok : (workbench.build host {}).toOption.any (fun _ => true) = true := by decide +kernel
  obtain ⟨d, hd, hentries⟩ := exists_of_any hentries
  obtain ⟨t, ht, -⟩ := exists_of_any hok
  obtain ⟨d', hd', hboots, -⟩ := Machine.build_boot_order ht
  cases hd.symm.trans hd'
  exact ⟨t, ht, d, hd, hboots, eq_of_beq hentries⟩

end Sample

end GuestCompiler
