import GuestCompiler.Build.Machine
import GuestCompiler.Proofs.Devices
import GuestCompiler.Proofs.Resources

/-!
# Wiring

A target is wired when its resources are sound, and when all that its monitors and devices refer to
is there: block nodes, character devices, security modules, interfaces and threads among the
resources, and the bus of a device as the id of the port that it is behind. Every step of a build
that does not fail leaves a wired target wired.
-/
namespace GuestCompiler

open Edit

section Predicates

def Endpoint.Wired (r : Resources) : Endpoint → Prop
  | .scsiDisk _ drive _ => drive ∈ r.blocks.names
  | .scsiCd _ drive _ => drive ∈ r.blocks.names
  | .usbTablet _ => True
  | .usbRedirect _ charDevice => charDevice ∈ r.charDevices.names
  | .usbStorage _ drive _ => drive ∈ r.blocks.names
  | .serialPort _ charDevice _ => charDevice ∈ r.charDevices.names

def ControllerKind.Wired (r : Resources) : ControllerKind → Prop
  | .scsi thread => thread ∈ r.threads
  | .usb => True
  | .serial => True

structure Controller.Wired (r : Resources) (c : Controller) : Prop where
  kind : c.kind.Wired r
  endpoints : ∀ e ∈ c.endpoints, e.Wired r

/-- A device behind the port of an id. -/
def Downstream.Wired (r : Resources) (port : String) : Downstream → Prop
  | .controller c => c.parent = port ∧ c.Wired r
  | .block _ bus thread drive _ => bus = port ∧ thread ∈ r.threads ∧ drive ∈ r.blocks.names
  | .network _ bus _ tap => bus = port ∧ tap ∈ r.tapIds
  | .vfio _ bus _ => bus = port

def TopLevel.Wired (r : Resources) : TopLevel → Prop
  | .rootPort port => ∀ d, port.downstream = some d → d.Wired r port.id
  | .panic _ _ => True
  | .display _ _ _ => True
  | .tpm tpmDevice => tpmDevice ∈ r.tpmDevices.names
  | .cdrom _ bus drive _ =>
    (∃ n < Topology.maxSata, bus = "ide." ++ toString n) ∧ drive ∈ r.blocks.names

def Topology.Wired (r : Resources) (t : Topology) : Prop := ∀ d ∈ t.devices, d.Wired r

structure Target.Wired (t : Target) : Prop where
  resources : t.resources.Sound
  monitors : ∀ m ∈ t.settings.monitors, m.charDevice ∈ t.resources.charDevices.names
  topology : t.tree.topology.Wired t.resources

/-- A wired target whose resources have come after some others, and none of those has gone. -/
structure Target.WiredFrom (start : Resources) (t : Target) : Prop extends t.Wired where
  grown : start.Grows t.resources

end Predicates

section Growth

variable {r r' : Resources}

theorem Endpoint.Wired.grow {e : Endpoint} (h : e.Wired r) (hr : r.Grows r') : e.Wired r' := by
  cases e with
  | scsiDisk _ _ _ => exact hr.mem_blocks h
  | scsiCd _ _ _ => exact hr.mem_blocks h
  | usbTablet _ => trivial
  | usbRedirect _ _ => exact hr.mem_charDevices h
  | usbStorage _ _ _ => exact hr.mem_blocks h
  | serialPort _ _ _ => exact hr.mem_charDevices h

theorem ControllerKind.Wired.grow {k : ControllerKind} (h : k.Wired r) (hr : r.Grows r') :
    k.Wired r' := by
  cases k with
  | scsi thread => exact hr.threads.subset h
  | usb => trivial
  | serial => trivial

theorem Controller.Wired.grow {c : Controller} (h : c.Wired r) (hr : r.Grows r') : c.Wired r' :=
  ⟨h.kind.grow hr, fun e he => (h.endpoints e he).grow hr⟩

theorem Downstream.Wired.grow {d : Downstream} {port : String} (h : d.Wired r port)
    (hr : r.Grows r') : d.Wired r' port := by
  cases d with
  | controller c => exact ⟨h.1, h.2.grow hr⟩
  | block _ _ _ _ _ => exact ⟨h.1, hr.threads.subset h.2.1, hr.mem_blocks h.2.2⟩
  | network _ _ _ _ => exact ⟨h.1, hr.mem_taps h.2⟩
  | vfio _ _ _ => exact h

theorem TopLevel.Wired.grow {d : TopLevel} (h : d.Wired r) (hr : r.Grows r') : d.Wired r' := by
  cases d with
  | rootPort port => exact fun d hd => (h d hd).grow hr
  | panic _ _ => trivial
  | display _ _ _ => trivial
  | tpm _ => exact hr.mem_tpmDevices h
  | cdrom _ _ _ _ => exact ⟨h.1, hr.mem_blocks h.2⟩

theorem Topology.Wired.grow {t : Topology} (h : t.Wired r) (hr : r.Grows r') : t.Wired r' :=
  fun d hd => (h d hd).grow hr

end Growth

namespace Topology

variable {r : Resources} {t : Topology}

theorem addFunction_wired {α : Type} {make : Topology → TopLevel × FamilyCounts × α}
    (ht : t.Wired r) (hd : (make t).1.Wired r) :
    Yields (addFunction make) t fun _ t' => t'.Wired r :=
  All.addFunction ht hd

theorem addRoot_wired (ht : t.Wired r) : Yields addRoot t fun _ t' => t'.Wired r :=
  addFunction_wired ht fun _ h => nomatch h

theorem addPanic_wired (ht : t.Wired r) : Yields addPanic t fun _ t' => t'.Wired r :=
  addFunction_wired ht trivial

theorem addDisplay_wired (ht : t.Wired r) : Yields addDisplay t fun _ t' => t'.Wired r :=
  addFunction_wired ht trivial

theorem addTpm_wired (ht : t.Wired r) {tpmDevice : String}
    (h : tpmDevice ∈ r.tpmDevices.names) : Yields (addTpm tpmDevice) t fun _ t' => t'.Wired r :=
  All.addTpm ht h

theorem addCdrom_wired (ht : t.Wired r) {drive : String} (h : drive ∈ r.blocks.names)
    (bootIndex : Option Nat) : Yields (addCdrom drive bootIndex) t fun _ t' => t'.Wired r :=
  All.addCdrom ht fun hfree => ⟨⟨t.sata, hfree, rfl⟩, h⟩

theorem attach_wired (ht : t.Wired r) (root : RootPortRef) (family : String)
    {make : String → String → Downstream} (hmake : ∀ id port, (make id port).Wired r port) :
    Yields (attach root family make) t fun _ t' => t'.Wired r := by
  refine All.attach ht root family fun port _ => ?_
  rintro d' ⟨⟩
  exact hmake _ port.id

/-- An edit of a controller that keeps it wired behind its port. -/
theorem onController_wired {α : Type} (ht : t.Wired r) (c : ControllerRef)
    {edit : Edit Error Controller α}
    (hedit : ∀ c, c.Wired r → Yields edit c fun _ c' => c'.parent = c.parent ∧ c'.Wired r) :
    Yields (onController c edit) t fun _ t' => t'.Wired r := by
  refine All.onController ht c fun port controller hport hdown => ?_
  obtain ⟨hparent, hwired⟩ := hport _ hdown
  refine Meets.imp (hedit controller hwired) fun _ c' ⟨hparent', hwired'⟩ => ?_
  rintro d' ⟨⟩
  exact ⟨hparent'.trans hparent, hwired'⟩

end Topology

theorem Controller.attach_wired {r : Resources} {c : Controller} (hc : c.Wired r)
    (family : String) {make : Nat → Endpoint} (hmake : ∀ n, (make n).Wired r) :
    Yields (attach family make) c fun _ c' => c'.parent = c.parent ∧ c'.Wired r := by
  refine Meets.imp (meets_attach family make c).yields ?_
  rintro _ c' ⟨-, -, -, rfl⟩
  exact ⟨rfl, hc.kind, List.forall_mem_append.2
    ⟨hc.endpoints, List.forall_mem_singleton.2 (hmake _)⟩⟩

namespace DeviceTree

variable {r : Resources} {t : DeviceTree}

theorem onTopology_wired {α : Type} {edit : Edit Error Topology α}
    (h : Yields edit t.topology fun _ top => top.Wired r) :
    Yields (onTopology edit) t fun _ t' => t'.topology.Wired r :=
  meets_within.2 h

theorem shared_wired (ht : t.topology.Wired r) {known : DeviceTree → Option ControllerRef}
    {remember : ControllerRef → DeviceTree → DeviceTree} {kind : ControllerKind}
    (hkind : kind.Wired r) (hremember : ∀ c t, (remember c t).topology = t.topology) :
    Yields (shared known remember kind) t fun _ t' => t'.topology.Wired r := by
  have hroot : Stable (Topology.Wired r) Topology.addRoot :=
    stable_iff.2 fun _ => Topology.addRoot_wired
  have hnew (id port : String) : (Downstream.controller ⟨kind, id, port, []⟩).Wired r port :=
    ⟨rfl, hkind, nofun⟩
  have hadd (root : RootPortRef) : Stable (Topology.Wired r) (Topology.addController root kind) :=
    stable_iff.2 fun _ h => meets_map.2 (Topology.attach_wired h root _ hnew)
  exact stable_iff.1 (shared_stable hroot hadd hremember) t ht

theorem serialController_wired (ht : t.topology.Wired r) :
    Yields serialController t fun _ t' => t'.topology.Wired r :=
  shared_wired ht trivial fun _ _ => rfl

theorem usbController_wired (ht : t.topology.Wired r) :
    Yields usbController t fun _ t' => t'.topology.Wired r :=
  shared_wired ht trivial fun _ _ => rfl

theorem scsiController_wired (ht : t.topology.Wired r) {thread : IoThread}
    (hthread : thread ∈ r.threads) :
    Yields (scsiController thread) t fun _ t' => t'.topology.Wired r :=
  shared_wired ht hthread fun _ _ => rfl

end DeviceTree

namespace Target

variable {start : Resources} {t : Target}

theorem wired_empty : Wired {} where
  resources := Resources.sound_empty
  monitors := nofun
  topology := nofun

theorem Wired.onward (h : t.Wired) : t.WiredFrom t.resources := { h with grown := .refl _ }

theorem onSettings_wired (ht : t.WiredFrom start) {change : Guest.Settings → Guest.Settings}
    (hm : ∀ m ∈ (change t.settings).monitors, m.charDevice ∈ t.resources.charDevices.names) :
    Yields (onSettings change) t fun _ t' => t'.WiredFrom start :=
  meets_modify.2 { ht with monitors := hm }

theorem onResources_wired {α : Type} (ht : t.WiredFrom start) {edit : Edit Error Resources α}
    {P : α → Resources → Prop}
    (hedit : Yields edit t.resources fun a r => P a r ∧ r.Sound ∧ t.resources.Grows r) :
    Yields (onResources edit) t fun a t' =>
      t'.WiredFrom start ∧ t.resources.Grows t'.resources ∧ P a t'.resources :=
  meets_within.2 (Meets.imp hedit fun _ _ ⟨hpost, hsound, hgrows⟩ =>
    ⟨⟨⟨hsound, fun m hm => hgrows.mem_charDevices (ht.monitors m hm), ht.topology.grow hgrows⟩,
      ht.grown.trans hgrows⟩, hgrows, hpost⟩)

theorem onTree_wired {α : Type} (ht : t.WiredFrom start) {edit : Edit Error DeviceTree α}
    (hedit : Yields edit t.tree fun _ tree => tree.topology.Wired t.resources) :
    Yields (onTree edit) t fun _ t' => t'.WiredFrom start ∧ t'.resources = t.resources :=
  meets_within.2 (Meets.imp hedit fun _ _ htop => ⟨{ ht with topology := htop }, rfl⟩)

theorem onTopology_wired {α : Type} (ht : t.WiredFrom start) {edit : Edit Error Topology α}
    (hedit : Yields edit t.tree.topology fun _ top => top.Wired t.resources) :
    Yields (onTopology edit) t fun _ t' => t'.WiredFrom start ∧ t'.resources = t.resources :=
  onTree_wired ht (DeviceTree.onTopology_wired hedit)

/-- An endpoint of a shared controller. -/
theorem onShared_wired (ht : t.WiredFrom start) {which : Edit Error DeviceTree ControllerRef}
    (hwhich : Yields which t.tree fun _ tree => tree.topology.Wired t.resources)
    {family : String} {make : Nat → Endpoint} (hmake : ∀ n, (make n).Wired t.resources) :
    Yields (onShared which (Controller.attach family make)) t fun _ t' => t'.WiredFrom start := by
  refine (onTree_wired ht hwhich).bind fun c t₁ ⟨h₁, hr⟩ => ?_
  refine (onTopology_wired h₁ (Topology.onController_wired h₁.topology c fun c hc => ?_)).imp
    fun _ _ h => h.1
  exact Controller.attach_wired hc family fun n => hr ▸ hmake n

theorem thread_wired (ht : t.WiredFrom start) : Yields thread t fun thread t' =>
    t'.WiredFrom start ∧ t.resources.Grows t'.resources ∧ thread ∈ t'.resources.threads :=
  onResources_wired ht ((Resources.meets_sharedThread ht.resources).yields.imp
    fun _ _ ⟨hmem, _, hsound, hgrows⟩ => ⟨hmem, hsound, hgrows⟩)

theorem addBlock_wired (ht : t.WiredFrom start) (node : BlockNode) :
    Yields (onResources (Resources.addBlock node)) t fun name t' =>
      t'.WiredFrom start ∧ t.resources.Grows t'.resources ∧ name ∈ t'.resources.blocks.names ∧
        name = node.name :=
  onResources_wired (P := fun name r => name ∈ r.blocks.names ∧ name = node.name) ht
    ((Resources.meets_addBlock ht.resources node).yields.imp
      fun _ _ ⟨hmem, hname, _, hsound, hgrows⟩ => ⟨⟨hmem, hname⟩, hsound, hgrows⟩)

theorem addCharDevice_wired (ht : t.WiredFrom start) (d : CharDevice) :
    Yields (onResources (Resources.addCharDevice d)) t fun id t' =>
      t'.WiredFrom start ∧ t.resources.Grows t'.resources ∧ id ∈ t'.resources.charDevices.names :=
  onResources_wired ht ((Resources.meets_addCharDevice ht.resources d).yields.imp
    fun _ _ ⟨hmem, _, _, hsound, hgrows⟩ => ⟨hmem, hsound, hgrows⟩)

theorem addTap_wired (ht : t.WiredFrom start) (interface up down : String) :
    Yields (onResources (Resources.addTap interface up down)) t fun tap t' =>
      t'.WiredFrom start ∧ t.resources.Grows t'.resources ∧ tap.id ∈ t'.resources.tapIds :=
  onResources_wired ht ((Resources.meets_addTap ht.resources interface up down).yields.imp
    fun _ _ ⟨hmem, _, _, hsound, hgrows⟩ => ⟨hmem, hsound, hgrows⟩)

theorem addEmulatedTpm_wired (ht : t.WiredFrom start) {charDevice : String}
    (hmem : charDevice ∈ t.resources.charDevices.names) (id : String) :
    Yields (onResources (Resources.addEmulatedTpm id charDevice)) t fun name t' =>
      t'.WiredFrom start ∧ t.resources.Grows t'.resources ∧ name ∈ t'.resources.tpmDevices.names :=
  onResources_wired ht ((Resources.meets_addEmulatedTpm ht.resources hmem id).yields.imp
    fun _ _ ⟨hname, _, _, hsound, hgrows⟩ => ⟨hname, hsound, hgrows⟩)

theorem bootIndex_wired (ht : t.WiredFrom start) (bootable : Bool) :
    Yields (bootIndex bootable) t fun _ t' => t'.WiredFrom start ∧ t'.resources = t.resources := by
  cases bootable with
  | true => exact meets_map.2 ⟨{ ht with }, rfl⟩
  | false => exact ⟨ht, rfl⟩

end Target

/-- A drive's thread and its place in the boot order, and then its device. -/
theorem Target.threadAndBootIndex_wired {start : Resources} {t : Target} (ht : t.WiredFrom start)
    {node : String} (hnode : node ∈ t.resources.blocks.names) (bootable : Bool)
    {device : IoThread → Option Nat → Edit Error Target String}
    (hdevice : ∀ thread bootIndex (t' : Target), t'.WiredFrom start →
      thread ∈ t'.resources.threads → node ∈ t'.resources.blocks.names →
        Yields (device thread bootIndex) t' fun _ t'' => t''.WiredFrom start) :
    Yields (do
      let thread ← Target.thread
      let bootIndex ← Target.bootIndex bootable
      device thread bootIndex) t fun _ t' => t'.WiredFrom start := by
  refine (thread_wired ht).bind fun thread t₁ ⟨h₁, hgrows, hthread⟩ => ?_
  refine (bootIndex_wired h₁ _).bind fun bootIndex t₂ ⟨h₂, hr⟩ => ?_
  have hnode₂ : node ∈ t₂.resources.blocks.names := hr ▸ hgrows.mem_blocks hnode
  exact hdevice thread bootIndex t₂ h₂ (hr ▸ hthread) hnode₂

theorem Drive.attach_wired {start : Resources} {t : Target} (ht : t.WiredFrom start) (d : Drive)
    (p : PlacedVolume) {node : String} (hnode : node ∈ t.resources.blocks.names) :
    Yields (d.attach p node) t fun _ t' => t'.WiredFrom start := by
  cases d with
  | scsiDisk =>
    refine Target.threadAndBootIndex_wired ht hnode _ fun thread _ t₁ h₁ hthread hnode₁ => ?_
    exact Target.onShared_wired h₁ (DeviceTree.scsiController_wired h₁.topology hthread)
      fun _ => hnode₁
  | blockDisk =>
    refine Target.threadAndBootIndex_wired ht hnode _ fun thread _ t₁ h₁ hthread hnode₁ => ?_
    refine (Target.onTopology_wired h₁ (Topology.addRoot_wired h₁.topology)).bind
      fun root t₂ ⟨h₂, hr⟩ => ?_
    refine (Target.onTopology_wired h₂ (Topology.attach_wired h₂.topology root "block" ?_)).imp
      fun _ _ h => h.1
    exact fun _ _ => ⟨rfl, hr ▸ hthread, hr ▸ hnode₁⟩
  | sataCd =>
    refine (Target.bootIndex_wired ht _).bind fun bootIndex t₁ ⟨h₁, hr⟩ => ?_
    exact (Target.onTopology_wired h₁
      (Topology.addCdrom_wired h₁.topology (hr ▸ hnode) bootIndex)).imp fun _ _ h => h.1
  | scsiCd =>
    refine Target.threadAndBootIndex_wired ht hnode _ fun thread _ t₁ h₁ hthread hnode₁ => ?_
    exact Target.onShared_wired h₁ (DeviceTree.scsiController_wired h₁.topology hthread)
      fun _ => hnode₁
  | usbDisk =>
    refine (Target.bootIndex_wired ht _).bind fun _ t₁ ⟨h₁, hr⟩ => ?_
    exact Target.onShared_wired h₁ (DeviceTree.usbController_wired h₁.topology)
      fun _ => hr ▸ hnode

end GuestCompiler
