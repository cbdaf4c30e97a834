import GuestCompiler.Proofs.CarriedBuild

/-!
# Devices without boot positions

A topology whose devices have lost their boot positions is the one that comes about where none is
given out: every edit does to it what it does to the topology itself (`Edit.Mirrors`), and is
refused for the same reason. So boot positions have an influence on nothing but themselves.
-/
namespace GuestCompiler

open Edit

section Unplaced

def DiskOptions.unplaced (disk : DiskOptions) : DiskOptions := { disk with bootIndex := none }

def Endpoint.unplaced : Endpoint → Endpoint
  | scsiDisk lun drive disk => scsiDisk lun drive disk.unplaced
  | scsiCd lun drive disk => scsiCd lun drive disk.unplaced
  | usbStorage port drive _ => usbStorage port drive none
  | e => e

def Controller.unplaced (c : Controller) : Controller :=
  { c with endpoints := c.endpoints.map Endpoint.unplaced }

def Downstream.unplaced : Downstream → Downstream
  | controller c => controller c.unplaced
  | block id bus thread drive disk => block id bus thread drive disk.unplaced
  | d => d

def RootPort.unplaced (p : RootPort) : RootPort :=
  { p with downstream := p.downstream.map Downstream.unplaced }

def TopLevel.unplaced : TopLevel → TopLevel
  | rootPort port => rootPort port.unplaced
  | cdrom id bus drive _ => cdrom id bus drive none
  | d => d

def Topology.unplaced (t : Topology) : Topology :=
  { t with devices := t.devices.map TopLevel.unplaced }

def DeviceTree.unplaced (t : DeviceTree) : DeviceTree := { t with topology := t.topology.unplaced }

def Target.unplaced (t : Target) : Target := { t with tree := t.tree.unplaced, bootOrder := {} }

end Unplaced

section Parameters

namespace Parameter

/-- All parameters but the boot position. -/
def unplaced (ps : List Parameter) : List Parameter := ps.filter (·.name != "bootindex")

@[simp] theorem unplaced_cons (p : Parameter) (ps : List Parameter) :
    unplaced (p :: ps) = if p.name = "bootindex" then unplaced ps else p :: unplaced ps := by
  by_cases h : p.name = "bootindex" <;> simp [unplaced, h]

@[simp] theorem unplaced_append (ps qs : List Parameter) :
    unplaced (ps ++ qs) = unplaced ps ++ unplaced qs := List.filter_append ..

@[simp] theorem unplaced_bootParameter (bootIndex : Option Nat) :
    unplaced (bootParameter bootIndex) = [] := by
  cases bootIndex <;> simp [unplaced, bootParameter, given]

end Parameter

def CommandOption.unplaced (o : CommandOption) : CommandOption :=
  { o with parameters := Parameter.unplaced o.parameters }

open Parameter

theorem Endpoint.driver_unplaced (e : Endpoint) : e.unplaced.driver = e.driver := by
  cases e <;> rfl

theorem Endpoint.ownParameters_unplaced (e : Endpoint) :
    Parameter.unplaced e.unplaced.ownParameters = Parameter.unplaced e.ownParameters := by
  cases e <;> simp [Endpoint.unplaced, ownParameters, scsiParameters, DiskOptions.unplaced, number]

theorem Controller.parameters_unplaced (c : Controller) : c.unplaced.parameters = c.parameters := by
  obtain ⟨kind, id, parent, endpoints⟩ := c
  cases kind <;> simp [Controller.unplaced, parameters, kindParameters]

theorem Controller.endpointParameters_unplaced (c : Controller) :
    c.unplaced.endpointParameters.map Parameter.unplaced =
      c.endpointParameters.map Parameter.unplaced := by
  refine List.ext_getElem (by simp [Controller.unplaced, endpointParameters]) fun i _ _ => ?_
  simp [Controller.unplaced, endpointParameters, endpointId, bus, Endpoint.driver_unplaced,
    Endpoint.ownParameters_unplaced]

theorem Downstream.parameters_unplaced (d : Downstream) :
    Parameter.unplaced d.unplaced.parameters = Parameter.unplaced d.parameters := by
  cases d with
  | controller c =>
    rw [Downstream.unplaced, parameters, parameters, c.parameters_unplaced]
  | block => simp [Downstream.unplaced, parameters, DiskOptions.unplaced, number]
  | _ => rfl

theorem TopLevel.parameters_unplaced (d : TopLevel) :
    Parameter.unplaced d.unplaced.parameters = Parameter.unplaced d.parameters := by
  cases d with
  | cdrom => simp [TopLevel.unplaced, parameters]
  | _ => rfl

theorem TopLevel.downstream?_unplaced (d : TopLevel) :
    d.unplaced.downstream? = d.downstream?.map Downstream.unplaced := by
  cases d <;> rfl

theorem TopLevel.allParameters_unplaced (d : TopLevel) :
    d.unplaced.allParameters.map Parameter.unplaced = d.allParameters.map Parameter.unplaced := by
  rw [allParameters, allParameters, List.map_cons, List.map_cons, d.parameters_unplaced,
    d.downstream?_unplaced]
  cases d.downstream? with
  | none => rfl
  | some device =>
    cases device with
    | controller c =>
      simp only [Option.map_some, Downstream.unplaced, List.map_cons, c.parameters_unplaced,
        c.endpointParameters_unplaced]
    | block id bus thread drive disk =>
      exact congrArg (fun ps => _ :: [ps])
        (Downstream.parameters_unplaced (.block id bus thread drive disk))
    | _ => rfl

/-- The boot positions are all that is gone from the options. -/
theorem Topology.options_unplaced (t : Topology) :
    t.unplaced.options.map CommandOption.unplaced = t.options.map CommandOption.unplaced := by
  have hall : (t.unplaced.devices.flatMap TopLevel.allParameters).map Parameter.unplaced =
      (t.devices.flatMap TopLevel.allParameters).map Parameter.unplaced := by
    simp only [Topology.unplaced, List.flatMap_map, List.map_flatMap,
      TopLevel.allParameters_unplaced]
  simpa [options, CommandOption.unplaced, Function.comp_def] using
    congrArg (List.map (CommandOption.mk "device")) hall

theorem Target.options_unplaced (t : Target) :
    t.unplaced.options.map CommandOption.unplaced = t.options.map CommandOption.unplaced := by
  simp only [options, List.map_append, Target.unplaced, DeviceTree.unplaced,
    t.tree.topology.options_unplaced]

end Parameters

namespace Topology

variable {t : Topology}

theorem root?_unplaced (t : Topology) (r : RootPortRef) :
    t.unplaced.root? r = (t.root? r).map RootPort.unplaced := by
  simp only [root?, unplaced, List.getElem?_map]
  cases t.devices[r.position]? with
  | none => rfl
  | some d => cases d <;> rfl

theorem controller?_unplaced (t : Topology) (ref : ControllerRef) :
    t.unplaced.controller? ref = (t.controller? ref).map Controller.unplaced := by
  have hbehind (d : TopLevel) : d.unplaced.controller? = d.controller?.map Controller.unplaced := by
    simp only [TopLevel.controller?, d.downstream?_unplaced]
    cases d.downstream? with
    | none => rfl
    | some device => cases device <;> rfl
  simp only [controller?, unplaced, List.getElem?_map]
  cases t.devices[ref.position]? with
  | none => rfl
  | some d =>
    simp only [Option.map_some, Option.bind_some, hbehind]
    cases d.controller? <;> rfl

theorem setDownstream_unplaced (t : Topology) (position : Nat) (device : Downstream) :
    t.unplaced.setDownstream position device.unplaced =
      (t.setDownstream position device).unplaced := by
  simp only [setDownstream, unplaced, mk.injEq, and_true]
  refine List.ext_getElem? fun i => ?_
  simp only [List.getElem?_modify, List.getElem?_map]
  cases t.devices[i]? with
  | none => rfl
  | some d =>
    by_cases hi : position = i
    · cases d <;> simp [hi, TopLevel.unplaced, RootPort.unplaced]
    · simp [hi]

section Edits

theorem addFunction_mirrors {α : Type} {make : Topology → TopLevel × FamilyCounts × α}
    (hmake : ∀ t : Topology, make t.unplaced = ((make t).1.unplaced, (make t).2)) :
    Mirrors unplaced (addFunction make) (addFunction make) := by
  intro t
  have hfunctions : t.unplaced.functions = t.functions := rfl
  simp only [addFunction, hfunctions, hmake]
  split
  · rfl
  · simp [image, unplaced]

theorem addRoot_mirrors : Mirrors unplaced addRoot addRoot :=
  addFunction_mirrors fun t => by simp [unplaced, TopLevel.unplaced, RootPort.unplaced]

theorem addPanic_mirrors : Mirrors unplaced addPanic addPanic := addFunction_mirrors fun _ => rfl

theorem addDisplay_mirrors : Mirrors unplaced addDisplay addDisplay :=
  addFunction_mirrors fun _ => rfl

theorem addTpm_mirrors (tpmDevice : String) :
    Mirrors unplaced (addTpm tpmDevice) (addTpm tpmDevice) := fun t => by
  simp [addTpm, image, unplaced, TopLevel.unplaced]

theorem addCdrom_mirrors (drive : String) (bootIndex : Option Nat) :
    Mirrors unplaced (addCdrom drive bootIndex) (addCdrom drive none) := by
  intro t
  have hsata : t.unplaced.sata = t.sata := rfl
  simp only [addCdrom, hsata]
  split
  · rfl
  · simp [image, unplaced, TopLevel.unplaced]

theorem attach_mirrors (r : RootPortRef) (family : String)
    {make make' : String → String → Downstream}
    (hmake : ∀ id bus, make' id bus = (make id bus).unplaced) :
    Mirrors unplaced (attach r family make) (attach r family make') := by
  intro t
  simp only [attach, root?_unplaced]
  cases t.root? r with
  | error e => rfl
  | ok port =>
    simp only [Except.map, RootPort.unplaced, Option.isSome_map]
    split
    · rfl
    · simp [image, unplaced, hmake, TopLevel.unplaced, RootPort.unplaced, List.map_set]

theorem addController_mirrors (r : RootPortRef) (kind : ControllerKind) :
    Mirrors unplaced (addController r kind) (addController r kind) :=
  MirrorsBy.map (attach_mirrors r kind.family fun _ _ => rfl) fun _ => rfl

theorem onController_mirrors {α : Type} {x x' : Edit Error Controller α} (ref : ControllerRef)
    (hx : Mirrors Controller.unplaced x x') :
    Mirrors unplaced (onController ref x) (onController ref x') := by
  intro t
  simp only [onController, controller?_unplaced]
  cases t.controller? ref with
  | error e => rfl
  | ok c =>
    simp only [Except.map, hx c]
    cases x c with
    | ok a c' => exact congrArg (EStateM.Result.ok a) (t.setDownstream_unplaced _ (.controller c'))
    | error e c' =>
      exact congrArg (EStateM.Result.error e) (t.setDownstream_unplaced _ (.controller c'))

end Edits

end Topology

theorem Controller.attach_mirrors (family : String) {make make' : Nat → Endpoint}
    (hmake : ∀ n, make' n = (make n).unplaced) :
    Mirrors Controller.unplaced (attach family make) (attach family make') := by
  intro c
  have hlength : c.unplaced.endpoints.length = c.endpoints.length := List.length_map _
  have hkind : c.unplaced.kind = c.kind := rfl
  simp only [attach, hlength, hkind]
  split
  · rfl
  · split
    · rfl
    · simp [image, Controller.unplaced, hmake, endpointId, bus]

namespace DeviceTree

theorem onTopology_mirrors {α : Type} {x x' : Edit Error Topology α}
    (hx : Mirrors Topology.unplaced x x') : Mirrors unplaced (onTopology x) (onTopology x') :=
  hx.within (fun _ => rfl) fun _ _ => rfl

theorem shared?_unplaced (t : DeviceTree) (kind : ControllerKind) :
    t.unplaced.shared? kind = t.shared? kind := by
  cases kind <;> rfl

theorem sharedController_mirrors (kind : ControllerKind) :
    Mirrors unplaced (sharedController kind) (sharedController kind) := by
  rw [sharedController_eq]
  refine MirrorsBy.get.bind fun t => ?_
  simp only [shared?_unplaced]
  cases t.shared? kind with
  | some ref => exact .pure rfl
  | none =>
    refine (onTopology_mirrors Topology.addRoot_mirrors).bind fun root => ?_
    refine (onTopology_mirrors (Topology.addController_mirrors root kind)).bind fun c => ?_
    exact (MirrorsBy.modify fun _ => by cases kind <;> rfl).bind fun _ => .pure rfl

theorem share_mirrors (kind : ControllerKind) {make make' : Nat → Endpoint}
    (hmake : ∀ n, make' n = (make n).unplaced) :
    Mirrors unplaced (share kind make) (share kind make') :=
  (sharedController_mirrors kind).bind fun ref =>
    onTopology_mirrors (Topology.onController_mirrors ref (Controller.attach_mirrors _ hmake))

end DeviceTree

section Volumes

/-- A volume that a guest can, or cannot, be booted from. -/
def Volume.marked (v : Volume) (bootable : Bool) : Volume := { v with bootable := bootable }

def PlacedVolume.marked (p : PlacedVolume) (bootable : Bool) : PlacedVolume :=
  { p with volume := p.volume.marked bootable }

@[simp] theorem Attachment.nodeName_marked (a : Attachment) (p : PlacedVolume) (bootable : Bool) :
    a.nodeName (p.marked bootable) = a.nodeName p := by
  cases a <;> rfl

@[simp] theorem Attachment.nodes_marked (a : Attachment) (p : PlacedVolume) (bootable : Bool) :
    a.nodes (p.marked bootable) = a.nodes p := by
  cases a <;> rfl

theorem Drive.device_mirrors (d : Drive) (p : PlacedVolume) (node : String) (thread : IoThread)
    (bootIndex : Option Nat) : Mirrors DeviceTree.unplaced (d.device p node thread bootIndex)
      (d.device (p.marked false) node thread none) := by
  cases d with
  | scsiDisk | scsiCd => exact DeviceTree.share_mirrors _ fun _ => rfl
  | usbDisk => exact DeviceTree.share_mirrors _ fun _ => rfl
  | blockDisk =>
    exact DeviceTree.onTopology_mirrors (Topology.addRoot_mirrors.bind fun root =>
      Topology.attach_mirrors root _ fun _ _ => rfl)
  | sataCd => exact DeviceTree.onTopology_mirrors (Topology.addCdrom_mirrors node bootIndex)

end Volumes

namespace Target

section Edits

variable {α : Type}

theorem onSettings_mirrors (change : Guest.Settings → Guest.Settings) :
    Mirrors unplaced (onSettings change) (onSettings change) := .modify fun _ => rfl

theorem onResources_mirrors (edit : Edit Error Resources α) :
    Mirrors unplaced (onResources edit) (onResources edit) :=
  (MirrorsBy.refl edit).within (fun _ => rfl) fun _ _ => rfl

theorem onTree_mirrors {x x' : Edit Error DeviceTree α} (hx : Mirrors DeviceTree.unplaced x x') :
    Mirrors unplaced (onTree x) (onTree x') := hx.within (fun _ => rfl) fun _ _ => rfl

theorem onTopology_mirrors {x x' : Edit Error Topology α} (hx : Mirrors Topology.unplaced x x') :
    Mirrors unplaced (onTopology x) (onTopology x') :=
  onTree_mirrors (DeviceTree.onTopology_mirrors hx)

/-- Without boot positions, there is none to give out. -/
theorem bootIndex_mirrors (bootable : Bool) :
    MirrorsBy unplaced (fun _ => none) (bootIndex bootable) (bootIndex false) := by
  cases bootable <;> exact fun _ => rfl

end Edits

end Target

theorem Drive.attach_mirrors (d : Drive) (p : PlacedVolume) (node : String) :
    Mirrors Target.unplaced (d.attach p node) (d.attach (p.marked false) node) := by
  cases hd : d.isThreaded with
  | true =>
    rw [attach_served hd, attach_served hd]
    exact (Target.onResources_mirrors _).bind fun thread => (Target.bootIndex_mirrors _).bind
      fun bootIndex => Target.onTree_mirrors (d.device_mirrors p node thread bootIndex)
  | false =>
    rw [attach_unserved hd p node ⟨0⟩, attach_unserved hd (p.marked false) node ⟨0⟩]
    exact (Target.bootIndex_mirrors _).bind fun bootIndex =>
      Target.onTree_mirrors (d.device_mirrors p node ⟨0⟩ bootIndex)

/-- To attach a volume that a guest cannot be booted from comes to the same without positions. -/
theorem Attachment.apply_mirrors (a : Attachment) (p : PlacedVolume) :
    Mirrors Target.unplaced (a.apply p) (a.apply (p.marked false)) := by
  unfold apply
  rw [nodes_marked, nodeName_marked]
  refine (MirrorsBy.forM fun node => ?_).bind fun _ => ?_
  · exact (Target.onResources_mirrors _).bind fun _ => .pure rfl
  · cases a.drive? with
    | none => exact .pure rfl
    | some d => exact (d.attach_mirrors p _).bind fun _ => .pure rfl

end GuestCompiler
