import GuestCompiler.Proofs.BootOrder
import GuestCompiler.Proofs.Unplaced
import Mathlib.Data.List.Flatten

/-!
# Firmware that is marked as bootable

Whether a guest can be booted from a volume has an influence on boot positions alone: a build of the
same volumes, none of which is bootable, fails in the same way, or answers the same target without
its positions (`Build.addDefinition_mirrors`). Of the firmware's volumes the mark counts where they
come with a drive, as other volumes do, and so it is ignored exactly where they are in pools whose
volumes have none (`Machine.build_marked`).
-/
namespace GuestCompiler

open Edit

section Marked

/-- The firmware with its volumes marked as bootable or not. -/
def Firmware.marked (f : Firmware) (code vars : Bool) : Firmware where
  code := f.code.marked code
  vars := f.vars.marked vars

def Definition.marked (d : Definition) (code vars : Bool) : Definition :=
  { d with attributes := { d.attributes with firmware := d.attributes.firmware.marked code vars } }

/-- With no volume that a guest can be booted from. -/
def Definition.unmarked (d : Definition) : Definition :=
  { d.marked false false with volumes := d.volumes.map (·.marked false) }

end Marked

namespace BuildStep

/-- The same with a volume that a guest cannot be booted from. -/
def unmarked : BuildStep → BuildStep
  | volume a p => .volume a (p.marked false)
  | step => step

open Target

/-- An endpoint without a boot position, on a shared controller. -/
theorem onShared_mirrors (kind : ControllerKind) {make : Nat → Endpoint}
    (hmake : ∀ n, make n = (make n).unplaced) :
    Mirrors unplaced
      (onShared (DeviceTree.sharedController kind) (Controller.attach kind.family make))
      (onShared (DeviceTree.sharedController kind) (Controller.attach kind.family make)) := by
  rw [onShared_eq]
  exact onTree_mirrors (DeviceTree.share_mirrors kind hmake)

theorem edit_mirrors (step : BuildStep) : Mirrors unplaced step.edit step.unmarked.edit := by
  cases step with
  | missing e h => exact .throw
  | setting s => exact onSettings_mirrors _
  | monitor path index =>
    exact (onResources_mirrors _).bind fun _ => onSettings_mirrors _
  | panic => exact (onTopology_mirrors Topology.addPanic_mirrors).bind fun _ => .pure rfl
  | display => exact (onTopology_mirrors Topology.addDisplay_mirrors).bind fun _ => .pure rfl
  | tablet => exact (onShared_mirrors .usb fun _ => rfl).bind fun _ => .pure rfl
  | serialChannel d name =>
    exact (onResources_mirrors _).bind fun _ =>
      (onShared_mirrors .serial fun _ => rfl).bind fun _ => .pure rfl
  | usbChannel d =>
    exact (onResources_mirrors _).bind fun _ =>
      (onShared_mirrors .usb fun _ => rfl).bind fun _ => .pure rfl
  | securityModule path =>
    exact (onResources_mirrors _).bind fun _ => (onResources_mirrors _).bind fun device =>
      onTopology_mirrors (Topology.addTpm_mirrors device)
  | volume a p => exact a.apply_mirrors p
  | connection machine network mac c =>
    refine (onResources_mirrors _).bind fun tap => ?_
    refine (onTopology_mirrors Topology.addRoot_mirrors).bind fun root => ?_
    exact (onTopology_mirrors (Topology.attach_mirrors root _ fun _ _ => rfl)).bind
      fun _ => .pure rfl
  | passthrough d path =>
    refine (onTopology_mirrors Topology.addRoot_mirrors).bind fun root => ?_
    exact (onTopology_mirrors (Topology.attach_mirrors root _ fun _ _ => rfl)).bind
      fun _ => .pure rfl

theorem run_mirrors (steps : List BuildStep) :
    Mirrors unplaced (run steps) (run (steps.map BuildStep.unmarked)) := by
  rw [run_map]
  exact .forM edit_mirrors

section LookUps

variable {α β : Type} {answer : Except Error α} {herror : ∀ e, answer = .error e → Unfound e}

theorem map_lookup (steps : α → List BuildStep) :
    (lookup answer herror steps).map BuildStep.unmarked =
      lookup answer herror fun a => (steps a).map BuildStep.unmarked := by
  cases answer <;> rfl

/-- With what is found changed, the steps are those of what is found first. -/
theorem lookup_of_map {answer' : Except Error β} {herror' : ∀ e, answer' = .error e → Unfound e}
    {g : α → β} (h : answer' = answer.map g) (steps : β → List BuildStep) :
    lookup answer' herror' steps = lookup answer herror fun a => steps (g a) := by
  subst h
  cases answer <;> rfl

end LookUps

end BuildStep

section Steps

open BuildStep

variable {machine : MachineInfo} {pools : NameMap Pool}

theorem PlacedVolume.resolve_marked (v : Volume) (bootable : Bool) :
    resolve machine (v.marked bootable) pools =
      (resolve machine v pools).map (·.marked bootable) := by
  have hstorage : (v.marked bootable).storage = v.storage := rfl
  simp only [resolve, hstorage]
  cases pools.get? v.storage <;> rfl

theorem Volume.steps_unmarked (v : Volume) (refer : String → List SettingStep) :
    (v.marked false).steps machine pools refer =
      (v.steps machine pools refer).map BuildStep.unmarked := by
  unfold steps
  rw [lookup_of_map (PlacedVolume.resolve_marked v false), map_lookup]
  refine congrArg _ (funext fun p => ?_)
  rw [map_lookup]
  refine congrArg (lookup (Attachment.of p) fun _ => Attachment.unfound) (funext fun a => ?_)
  rw [List.map_append, List.map_map, Attachment.nodeName_marked]
  rfl

theorem Firmware.steps_unmarked (f : Firmware) : (f.marked false false).steps machine pools =
    (f.steps machine pools).map BuildStep.unmarked := by
  have hcode : (f.marked false false).code.isEmpty = f.code.isEmpty := rfl
  have hvars : (f.marked false false).vars.isEmpty = f.vars.isEmpty := rfl
  have hvolume (v : Volume) (refer : String → List SettingStep) :
      (v.marked false).steps machine pools refer =
        (v.steps machine pools refer).map BuildStep.unmarked := v.steps_unmarked refer
  unfold steps
  rw [hcode, hvars]
  split
  · rfl
  · simp only [marked, hvolume, List.map_append]
    split <;> rfl

/-- Attributes have no volumes but those of their firmware. -/
theorem Attributes.steps_unmarked (name : String) (vars : Vars) (catalog : Catalog)
    (runDir : Path) (a : Attributes) : (a.steps name vars catalog runDir).map BuildStep.unmarked =
      a.steps name vars catalog runDir := by
  have hqmp : (a.qmp.steps name runDir).map BuildStep.unmarked = a.qmp.steps name runDir := by
    unfold Qmp.steps
    split
    · rw [List.map_map]
      rfl
    · rfl
  have hagent : (a.agent.steps vars).map BuildStep.unmarked = a.agent.steps vars := by
    unfold Agent.steps
    split
    · rw [map_lookup]
      rfl
    · rfl
  have hspice : (a.spice.steps vars).map BuildStep.unmarked = a.spice.steps vars := by
    unfold Spice.steps
    split
    · rw [map_lookup]
      simp only [List.map_cons, List.map_append, List.map_replicate, List.map_nil]
      rfl
    · rfl
  unfold steps
  rw [List.map_append, map_lookup, List.map_cons, List.map_append, List.map_append, List.map_append,
    hqmp, hagent, hspice]
  cases a.tpm <;> rfl

theorem Definition.steps_unmarked (d : Definition) (catalog : Catalog) (locations : Locations) :
    d.unmarked.steps machine catalog locations =
      (d.steps machine catalog locations).map BuildStep.unmarked := by
  have hvolumes : d.unmarked.volumes.flatMap (Volume.steps machine catalog.pools fun _ => []) =
      (d.volumes.flatMap (Volume.steps machine catalog.pools fun _ => [])).map
        BuildStep.unmarked := by
    rw [List.map_flatMap, Definition.unmarked, List.flatMap_map]
    exact List.flatMap_congr fun v _ => v.steps_unmarked _
  have hconnection (c : Connection) : (c.steps machine catalog.networks).map BuildStep.unmarked =
      c.steps machine catalog.networks := by
    unfold Connection.steps
    split <;> rfl
  have hdevice (v : Device) : (v.steps catalog).map BuildStep.unmarked = v.steps catalog := by
    unfold Device.steps
    split
    · rfl
    · split <;> rfl
  unfold steps entrySteps
  simp only [List.map_append, ← Firmware.steps_unmarked, ← hvolumes, List.map_flatMap, hconnection,
    hdevice, Attributes.steps_unmarked]
  rfl

end Steps

namespace Build

/-- A build of volumes none of which is bootable comes to the same without boot positions. -/
theorem addDefinition_mirrors (machine : MachineInfo) (d : Definition) (catalog : Catalog)
    (locations : Locations) : Mirrors Target.unplaced (addDefinition machine d catalog locations)
      (addDefinition machine d.unmarked catalog locations) := by
  rw [addDefinition_eq, addDefinition_eq, d.steps_unmarked]
  exact BuildStep.run_mirrors _

/-- However the firmware is marked, its build is the one of unmarked volumes, but for positions. -/
theorem addDefinition_image (machine : MachineInfo) (d : Definition) (code vars : Bool)
    (catalog : Catalog) (locations : Locations) :
    image Target.unplaced id (addDefinition machine (d.marked code vars) catalog locations {}) =
      image Target.unplaced id (addDefinition machine d catalog locations {}) :=
  (addDefinition_mirrors machine (d.marked code vars) catalog locations {}).symm.trans
    (addDefinition_mirrors machine d catalog locations {})

end Build

section Flags

variable (machine : MachineInfo) (pools : NameMap Pool)

/-- Whether a guest can be booted from the drive of a volume, where the volume comes with one. -/
def Volume.bootFlag? (v : Volume) : Option Bool :=
  (v.driveNode? machine pools).map fun _ => v.bootable

/-- What counts of the marks of the firmware's volumes. -/
def Firmware.bootFlags (f : Firmware) : List Bool :=
  f.used.filterMap (Volume.bootFlag? machine pools)

end Flags

section Ignored

variable {machine : MachineInfo} {pools : NameMap Pool}

theorem Volume.driveNode?_eq (v : Volume) : v.driveNode? machine pools =
    (v.placed? machine pools).bind fun x => x.1.drive?.map fun _ => x.1.nodeName x.2 := by
  rw [← v.drive_map fun _ node => node]
  simp only [driveNode?, bind, Option.map_id']

theorem Volume.placed?_marked (v : Volume) (bootable : Bool) :
    (v.marked bootable).placed? machine pools =
      (v.placed? machine pools).map fun x => (x.1, x.2.marked bootable) := by
  have hstorage : (v.marked bootable).storage = v.storage := rfl
  rw [placed?, placed?, hstorage]
  cases pools.get? v.storage with
  | none => rfl
  | some pool =>
    simp only [Option.bind_some]
    cases Attachment.ofKind? pool.kind <;> rfl

@[simp] theorem Volume.driveNode?_marked (v : Volume) (bootable : Bool) :
    (v.marked bootable).driveNode? machine pools = v.driveNode? machine pools := by
  rw [driveNode?_eq, driveNode?_eq, placed?_marked]
  cases v.placed? machine pools with
  | none => rfl
  | some x => simp only [Option.map_some, Option.bind_some, Attachment.nodeName_marked]

@[simp] theorem Volume.bootFlag?_marked (v : Volume) (bootable : Bool) :
    (v.marked bootable).bootFlag? machine pools =
      (v.driveNode? machine pools).map fun _ => bootable := by
  rw [bootFlag?, driveNode?_marked]
  rfl

/-- The mark of a volume without a drive is ignored. -/
theorem Build.addFirmwareVolume_marked {v : Volume} {bootable : Bool}
    (h : (v.marked bootable).bootFlag? machine pools = v.bootFlag? machine pools)
    (refer : String → Guest.Firmware → Guest.Firmware) :
    addFirmwareVolume machine pools (v.marked bootable) refer =
      addFirmwareVolume machine pools v refer := by
  rw [Volume.bootFlag?_marked, Volume.bootFlag?] at h
  cases hdrive : v.driveNode? machine pools with
  | some node =>
    have hbootable : bootable = v.bootable := by simpa [hdrive] using h
    rw [hbootable]
    rfl
  | none =>
    rw [Volume.driveNode?_eq, Volume.placed?] at hdrive
    unfold addFirmwareVolume
    rw [PlacedVolume.resolve_marked, PlacedVolume.resolve]
    cases hpool : pools.get? v.storage with
    | none => rfl
    | some pool =>
      simp only [hpool, Option.bind_some] at hdrive
      simp only [Except.map, ofExcept_ok_bind, Attachment.of]
      have hkind : (PlacedVolume.marked ⟨machine, v, pool⟩ bootable).pool.kind = pool.kind := rfl
      rw [hkind]
      cases ha : Attachment.ofKind? pool.kind with
      | none => rfl
      | some a =>
        have hnone : a.drive? = none := by simpa [ha] using hdrive
        simp only [ofExcept_ok_bind, Attachment.apply, Attachment.nodeName_marked,
          Attachment.nodes_marked, hnone]

/-- A mark changes nothing about which volumes come with a drive. -/
theorem Volume.filterMap_bootFlag?_cons {v : Volume} {bootable : Bool} {vs vs' : List Volume} :
    (v.marked bootable :: vs').filterMap (bootFlag? machine pools) =
        (v :: vs).filterMap (bootFlag? machine pools) ↔
      (v.marked bootable).bootFlag? machine pools = v.bootFlag? machine pools ∧
        vs'.filterMap (bootFlag? machine pools) = vs.filterMap (bootFlag? machine pools) := by
  rw [List.filterMap_cons, List.filterMap_cons, bootFlag?_marked, bootFlag?]
  cases v.driveNode? machine pools <;> simp

theorem Build.addFirmware_marked {f : Firmware} {code vars : Bool}
    (h : (f.marked code vars).bootFlags machine pools = f.bootFlags machine pools) :
    addFirmware machine pools (f.marked code vars) = addFirmware machine pools f := by
  have hcode : (f.marked code vars).code.isEmpty = f.code.isEmpty := rfl
  have hvars : (f.marked code vars).vars.isEmpty = f.vars.isEmpty := rfl
  unfold addFirmware
  unfold Firmware.bootFlags Firmware.used at h
  rw [hcode, hvars] at h ⊢
  cases hused : f.code.isEmpty with
  | true => rfl
  | false =>
    rw [hused, if_neg Bool.false_ne_true, if_neg Bool.false_ne_true] at h
    obtain ⟨hfirst, hsecond⟩ := Volume.filterMap_bootFlag?_cons.1 h
    have hcode : addFirmwareVolume machine pools (f.marked code vars).code =
        addFirmwareVolume machine pools f.code := funext (addFirmwareVolume_marked hfirst)
    rw [hcode]
    cases hboth : f.vars.isEmpty with
    | true => rfl
    | false =>
      rw [hboth, if_neg Bool.false_ne_true, if_neg Bool.false_ne_true] at hsecond
      have hvars : addFirmwareVolume machine pools (f.marked code vars).vars =
          addFirmwareVolume machine pools f.vars :=
        funext (addFirmwareVolume_marked (Volume.filterMap_bootFlag?_cons.1 hsecond).1)
      rw [hvars]

theorem Build.addDefinition_marked {d : Definition} {code vars : Bool} {catalog : Catalog}
    (h : (d.attributes.firmware.marked code vars).bootFlags machine catalog.pools =
      d.attributes.firmware.bootFlags machine catalog.pools) (locations : Locations) :
    addDefinition machine (d.marked code vars) catalog locations =
      addDefinition machine d catalog locations := by
  unfold addDefinition
  rw [← addFirmware_marked h]
  rfl

end Ignored

section Counted

/-- From the positions of some drives it shows which of them are bootable. -/
theorem bootable_of_bootEntries {drives drives' : List (Volume × String)}
    (h : (bootEntries drives').Perm (bootEntries drives))
    (hnodes : drives'.map Prod.snd = drives.map Prod.snd) (hnodup : (drives.map Prod.snd).Nodup) :
    drives'.map (fun e => e.1.bootable) = drives.map fun e => e.1.bootable := by
  have hlength : drives'.length = drives.length := by simpa using congrArg List.length hnodes
  have hfst (drives : List (Volume × String)) :
      (bootEntries drives).map Prod.fst = drives.map Prod.snd :=
    List.ext_getElem (by simp [bootEntries]) fun i _ _ => by simp [bootEntries]
  have hflag (e : Volume × String) (before : List (Volume × String)) :
      (bootPosition? before e.1).isSome = e.1.bootable := by
    unfold bootPosition?
    cases e.1.bootable <;> rfl
  refine List.ext_getElem (by simp [hlength]) fun i hi hi' => ?_
  rw [List.length_map] at hi hi'
  have hi₁ : i < (bootEntries drives').length := by simpa [bootEntries] using hi
  have hi₂ : i < (bootEntries drives).length := by simpa [bootEntries] using hi'
  -- Each drive has a node of its own, so that its entry is found among the others.
  have hsame : (bootEntries drives')[i] = (bootEntries drives)[i] := by
    refine List.inj_on_of_nodup_map (f := Prod.fst) ((hfst drives).symm ▸ hnodup)
      (h.subset (List.getElem_mem hi₁)) (List.getElem_mem hi₂) ?_
    have hnode := congrArg (·[i]?) hnodes
    simpa [bootEntries, hi, hi'] using hnode
  have hposition := congrArg (fun e => e.2.isSome) hsame
  simpa [bootEntries, hflag] using hposition

/-- What is written of a drive says which node and which position it has. -/
theorem bootRow_injective : Function.Injective fun e : String × Option Nat =>
    [[e.1], (e.2.map toString).toList] := by
  rintro ⟨node, none | n⟩ ⟨node', none | n'⟩ h
  · simpa using h
  · simp at h
  · simp at h
  · obtain ⟨rfl, hn⟩ : node = node' ∧ toString n = toString n' := by simpa using h
    rw [Nat.repr_injective hn]

variable {machine : MachineInfo} {pools : NameMap Pool}

theorem Volume.driveNode?_mem_nodeNames {v : Volume} {node : String}
    (h : v.driveNode? machine pools = some node) : node ∈ v.nodeNames machine pools := by
  rw [driveNode?_eq] at h
  obtain ⟨⟨a, p⟩, hplaced, hdrive⟩ := Option.bind_eq_some_iff.1 h
  obtain ⟨d, hd, rfl⟩ := Option.map_eq_some_iff.1 hdrive
  refine nodeName?_mem_nodeNames (fun hdata => ?_) (by simp [nodeName?, hplaced])
  rw [(isTpmData_iff hplaced).1 hdata] at hd
  cases hd

theorem Firmware.driveNodes_marked (f : Firmware) (code vars : Bool) :
    (f.marked code vars).used.filterMap (Volume.driveNode? machine pools) =
      f.used.filterMap (Volume.driveNode? machine pools) := by
  have hcode : (f.marked code vars).code.isEmpty = f.code.isEmpty := rfl
  have hvars : (f.marked code vars).vars.isEmpty = f.vars.isEmpty := rfl
  unfold used
  rw [hcode, hvars]
  cases f.code.isEmpty <;> cases f.vars.isEmpty <;> simp [marked, List.filterMap_cons]

theorem Firmware.bootFlags_eq_nil {f : Firmware} : f.bootFlags machine pools = [] ↔
    f.used.filterMap (Volume.driveNode? machine pools) = [] := by
  simp [bootFlags, List.filterMap_eq_nil_iff, Volume.bootFlag?]

theorem Definition.map_snd_drives (d : Definition) : (d.drives machine pools).map Prod.snd =
    d.attached.filterMap (Volume.driveNode? machine pools) := by
  simp [drives, List.map_filterMap, Function.comp_def]

theorem Definition.bootable_drives (d : Definition) :
    (d.drives machine pools).map (fun e => e.1.bootable) =
      d.attached.filterMap (Volume.bootFlag? machine pools) := by
  rw [drives, List.map_filterMap]
  refine List.filterMap_congr fun v _ => ?_
  rw [Volume.bootFlag?, Option.map_map]
  rfl

theorem Definition.driveNodes_marked (d : Definition) (code vars : Bool) :
    ((d.marked code vars).drives machine pools).map Prod.snd =
      (d.drives machine pools).map Prod.snd := by
  rw [map_snd_drives, map_snd_drives, attached, attached, List.filterMap_append,
    List.filterMap_append]
  exact congrArg (· ++ _) (d.attributes.firmware.driveNodes_marked code vars)

/-- Where no firmware comes with a drive, the drives are those of the other volumes. -/
theorem Definition.drives_of_bare {d : Definition}
    (h : d.attributes.firmware.bootFlags machine pools = []) : d.drives machine pools =
      d.volumes.filterMap fun v => (v.driveNode? machine pools).map (v, ·) := by
  have hnone : d.attributes.firmware.used.filterMap
      (fun v => (v.driveNode? machine pools).map (v, ·)) = [] := by
    simpa [List.filterMap_eq_nil_iff] using Firmware.bootFlags_eq_nil.1 h
  rw [drives, attached, List.filterMap_append, hnone, List.nil_append]

theorem Definition.driveNodes_sublist (d : Definition) :
    ((d.drives machine pools).map Prod.snd).Sublist
      (d.attached.flatMap (Volume.nodeNames machine pools)) := by
  rw [map_snd_drives, List.filterMap_eq_flatMap_toList]
  refine .flatMap_right _ fun v _ => ?_
  cases hnode : v.driveNode? machine pools with
  | none => exact List.nil_sublist _
  | some node => exact List.singleton_sublist.2 (Volume.driveNode?_mem_nodeNames hnode)

end Counted

/-- What comes of marking the firmware's volumes otherwise, in a build with one outcome before and
another one after. -/
structure Definition.Remarked (machine : MachineInfo) (pools : NameMap Pool) (d : Definition)
    (code vars : Bool) (before after : Except Error Target) : Prop where
  /-- Which failure there is has nothing to do with the marks. -/
  errors : ∀ e, after = .error e ↔ before = .error e
  /-- Nor has anything but boot positions. -/
  beside : ∀ t t', before = .ok t → after = .ok t' →
    t'.options.map CommandOption.unplaced = t.options.map CommandOption.unplaced
  /-- The positions are the same just when no mark of a firmware volume with a drive is another. -/
  same_iff : ∀ t t', before = .ok t → after = .ok t' → (t'.options = t.options ↔
    (d.attributes.firmware.marked code vars).bootFlags machine pools =
      d.attributes.firmware.bootFlags machine pools)
  /-- Where firmware comes without a drive, it has no position, and the other volumes count from
  1. -/
  bare : ∀ t', after = .ok t' → d.attributes.firmware.bootFlags machine pools = [] →
    (CommandOption.table t'.options "device" (fun o => o.values "drive" != [])
      ["drive", "bootindex"]).Perm ((bootEntries (d.volumes.filterMap fun v =>
        (v.driveNode? machine pools).map (v, ·))).map fun e => [[e.1], (e.2.map toString).toList])

namespace Machine

variable {m m' : Machine} {catalog : Catalog} {locations : Locations} {d : Definition}
  {code vars : Bool}

theorem bootEntries_of_build {t : Target} (hd : m.resolve catalog = .ok d)
    (h : m.build catalog locations = .ok t) :
    (t.tree.topology.cards.filterMap Card.bootEntry?).Perm
      (bootEntries (d.drives m.info catalog.pools)) := by
  have hcards := (carries_of_build hd h).tree.cards.filterMap Card.bootEntry?
  rwa [Item.bootEntries_cards, d.filterMap_drive?] at hcards

/-- What a build answers shows which drives are bootable. -/
theorem bootFlags_of_options {d' : Definition} {t t' : Target} (hd : m.resolve catalog = .ok d)
    (hd' : m'.resolve catalog = .ok d') (hinfo : m'.info = m.info)
    (h : m.build catalog locations = .ok t) (h' : m'.build catalog locations = .ok t')
    (hnodes : (d'.drives m.info catalog.pools).map Prod.snd =
      (d.drives m.info catalog.pools).map Prod.snd) (hoptions : t'.options = t.options) :
    (d'.drives m.info catalog.pools).map (fun e => e.1.bootable) =
      (d.drives m.info catalog.pools).map fun e => e.1.bootable := by
  have hentries := bootEntries_of_build hd h
  have hentries' := bootEntries_of_build hd' h'
  rw [hinfo] at hentries'
  have hrows := t.bootRows_options
  rw [← hoptions, t'.bootRows_options] at hrows
  have hsame : t'.tree.topology.cards.filterMap Card.bootEntry? =
      t.tree.topology.cards.filterMap Card.bootEntry? := bootRow_injective.list_map hrows
  refine bootable_of_bootEntries (hentries'.symm.trans (hsame ▸ hentries)) hnodes ?_
  obtain ⟨-, hblocks, hnodup, -⟩ := blockNodes_of_build hd h
  have hnames : t.resources.blocks.names =
      d.attached.flatMap (Volume.nodeNames m.info catalog.pools) := by
    rw [← Definition.names_blockNodes, ← hblocks]
    rfl
  exact (hnames ▸ hnodup).sublist d.driveNodes_sublist

theorem build_marked (hinfo : m'.info = m.info) (hd : m.resolve catalog = .ok d)
    (hd' : m'.resolve catalog = .ok (d.marked code vars)) :
    d.Remarked m.info catalog.pools code vars (m.build catalog locations)
      (m'.build catalog locations) := by
  have hname : m'.name = m.name := congrArg MachineInfo.name hinfo
  have hbuild : m.build catalog locations = _ := build_eq hd
  have hbuild' : m'.build catalog locations = _ := build_eq hd'
  rw [hinfo, hname] at hbuild'
  have himage := Build.addDefinition_image m.info d code vars catalog locations
  have hunplaced (t t' : Target) (h : m.build catalog locations = .ok t)
      (h' : m'.build catalog locations = .ok t') : t'.unplaced = t.unplaced := by
    rw [hbuild] at h
    rw [hbuild'] at h'
    split at h <;> cases h
    split at h' <;> cases h'
    rename_i hrun _ _ hrun'
    rw [hrun, hrun'] at himage
    exact (EStateM.Result.ok.inj himage).2
  refine ⟨?errors, ?beside, ?same_iff, ?bare⟩
  case errors =>
    intro e
    rw [hbuild, hbuild']
    revert himage
    cases Build.addDefinition m.info (d.marked code vars) catalog locations {} with
    | ok _ t' => cases Build.addDefinition m.info d catalog locations {} <;> simp [image]
    | error e' t' =>
      cases Build.addDefinition m.info d catalog locations {} with
      | ok _ t => simp [image]
      | error e t =>
        intro himage
        rw [(EStateM.Result.error.inj himage).1]
  case beside =>
    intro t t' h h'
    rw [← t.options_unplaced, ← t'.options_unplaced, hunplaced t t' h h']
  case same_iff =>
    intro t t' h h'
    refine ⟨fun hoptions => ?_, fun hflags => ?_⟩
    · have hall := bootFlags_of_options hd hd' hinfo h h' (d.driveNodes_marked code vars) hoptions
      rw [Definition.bootable_drives, Definition.bootable_drives, Definition.attached,
        Definition.attached, List.filterMap_append, List.filterMap_append] at hall
      exact List.append_cancel_right hall
    · have hsame : m'.build catalog locations = m.build catalog locations := by
        rw [hbuild, hbuild', Build.addDefinition_marked hflags]
      rw [Except.ok.inj ((h'.symm.trans hsame).trans h)]
  case bare =>
    intro t' h' hnone
    have hentries := bootEntries_of_build hd' h'
    have hnone' : (d.attributes.firmware.marked code vars).bootFlags m.info catalog.pools = [] := by
      rw [Firmware.bootFlags_eq_nil] at hnone ⊢
      rw [Firmware.driveNodes_marked, hnone]
    rw [hinfo, Definition.drives_of_bare hnone'] at hentries
    rw [t'.bootRows_options]
    exact hentries.map _

end Machine

namespace Sample

/-- A volume in the pool of images, with an identity of its own. -/
def diskImage (name : String) (bootable : Bool) : Volume where
  name := name
  storage := "images"
  wwn := some (.w64 ⟨[0x50, 0, 0, 0, 0, 0, 0, 0], rfl⟩)
  serial := name
  bootable := bootable

/-- The firmware is kept among the images of disks, and marked as told. -/
def chip (bootable : Bool) : Machine where
  name := "desk"
  definition := {
    attributes := { firmware := { code := diskImage "ovmf" bootable } }
    volumes := [diskImage "os" true] }

theorem chip_marked : ∃ d t t', (chip false).build host {} = .ok t ∧
    (chip true).build host {} = .ok t' ∧ (chip false).resolve host = .ok d ∧
    d.Remarked (chip false).info host.pools true false ((chip false).build host {})
      ((chip true).build host {}) := by
  have hok : ((chip false).build host {}).toOption.any (fun _ => true) = true := by
    decide +kernel
  have hok' : ((chip true).build host {}).toOption.any (fun _ => true) = true := by
    decide +kernel
  have hd : (chip false).resolve host = .ok
      ((Definition.merge [(chip false).definition]).populate "desk" (chip false).info.seed) := rfl
  have hd' : (chip true).resolve host = .ok
      (((Definition.merge [(chip false).definition]).populate "desk"
        (chip false).info.seed).marked true false) := rfl
  obtain ⟨t, ht, -⟩ := exists_of_any hok
  obtain ⟨t', ht', -⟩ := exists_of_any hok'
  exact ⟨_, t, t', ht, ht', hd, Machine.build_marked rfl hd hd'⟩

/-- Marked as bootable, the firmware is the first to boot from, before the disk. -/
theorem chip_boots_first : ∃ t t', (chip false).build host {} = .ok t ∧
    (chip true).build host {} = .ok t' ∧ t'.options ≠ t.options ∧
    CommandOption.table t.options "device" (fun o => o.values "drive" != [])
      ["drive", "bootindex"] = [[["desk-ovmf"], []], [["desk-os"], ["1"]]] ∧
    CommandOption.table t'.options "device" (fun o => o.values "drive" != [])
      ["drive", "bootindex"] = [[["desk-ovmf"], ["1"]], [["desk-os"], ["2"]]] := by
  have hclear : ((chip false).build host {}).toOption.any (fun t =>
      CommandOption.table t.options "device" (fun o => o.values "drive" != [])
        ["drive", "bootindex"] == [[["desk-ovmf"], []], [["desk-os"], ["1"]]]) = true := by
    decide +kernel
  have hset : ((chip true).build host {}).toOption.any (fun t =>
      CommandOption.table t.options "device" (fun o => o.values "drive" != [])
        ["drive", "bootindex"] == [[["desk-ovmf"], ["1"]], [["desk-os"], ["2"]]]) = true := by
    decide +kernel
  obtain ⟨t, ht, hrows⟩ := exists_of_any hclear
  obtain ⟨t', ht', hrows'⟩ := exists_of_any hset
  have hrows := eq_of_beq hrows
  have hrows' := eq_of_beq hrows'
  have hne : t'.options ≠ t.options := by
    intro hsame
    rw [hsame, hrows] at hrows'
    exact absurd hrows' (by decide)
  exact ⟨t, t', ht, ht', hne, hrows, hrows'⟩

end Sample

end GuestCompiler
