import GuestCompiler.Proofs.Positions
import GuestCompiler.Proofs.SharedControllers
import GuestCompiler.Proofs.WiringBuild

/-!
# Builds as runs

Of the device tree, a build asks for nothing but steps: the tree of what it answers is one that a
run of them comes to from the empty tree (`Machine.reached_of_build`). So whatever holds after any
steps holds of every guest that is built.
-/
namespace GuestCompiler

open Edit

namespace Target

/-- A target with a tree that some steps come to from another one. -/
def Reached (start : DeviceTree) (t : Target) : Prop := ∃ steps, t.tree = start.run steps

theorem reached_self (t : Target) : Reached t.tree t := ⟨[], rfl⟩

theorem Reached.inOrder {t : Target} (h : t.Reached {}) : t.tree.topology.InOrder := by
  obtain ⟨steps, htree⟩ := h
  rw [htree]
  exact DeviceTree.run_inOrder steps

/-- Steps change the topology in the ways that it may be changed. -/
theorem Reached.changes {start : DeviceTree} {t : Target} (h : t.Reached start) :
    Relation.ReflTransGen Topology.Change start.topology t.tree.topology := by
  obtain ⟨steps, htree⟩ := h
  rw [htree]
  exact start.run_changes steps

section Steps

variable {start : DeviceTree} {α : Type}

theorem onSettings_reached (change : Guest.Settings → Guest.Settings) :
    Stable (Reached start) (onSettings change) :=
  .modify fun _ h => h

theorem onResources_reached (edit : Edit Error Resources α) :
    Stable (Reached start) (onResources edit) := by
  have hedit : Stable (fun _ => True) edit := stable_iff.2 fun s _ => yields_any edit s
  exact .within (fun _ _ => trivial) (fun _ _ h _ => h) hedit

/-- An edit of the tree that a step makes. -/
theorem onTree_reached {edit : Edit Error DeviceTree α} {answer : α → TreeAnswer}
    (step : TreeStep) (hstep : step.edit = answer <$> edit) :
    Stable (Reached start) (onTree edit) := by
  rintro t ⟨steps, htree⟩
  refine meets_within.2 (meets_iff.2 ⟨fun a tree hrun => ?_, fun _ _ _ => trivial⟩)
  have hstate : state (step.edit t.tree) = tree := by rw [hstep, state_map, hrun, state]
  refine ⟨⟨steps ++ [step], ?_⟩, trivial⟩
  rw [DeviceTree.run_append, ← htree, ← hstate]
  rfl

theorem addRoot_reached : Stable (Reached start) (onTopology Topology.addRoot) :=
  onTree_reached .addRoot rfl

theorem onShared_reached (kind : ControllerKind) (request : EndpointRequest) :
    Stable (Reached start) (onShared (DeviceTree.sharedController kind) request.edit) := by
  have hcontroller : Stable (Reached start) (onTree (DeviceTree.sharedController kind)) := by
    cases kind with
    | serial => exact onTree_reached .serialController rfl
    | usb => exact onTree_reached .usbController rfl
    | scsi thread => exact onTree_reached (.scsiController thread) rfl
  exact .bind hcontroller fun c _ => onTree_reached (.addEndpoint c request) rfl

theorem bootIndex_reached (bootable : Bool) : Stable (Reached start) (bootIndex bootable) := by
  cases bootable with
  | true => exact .map fun _ ht => ⟨ht, trivial⟩
  | false => exact .pure trivial

end Steps

end Target

open Target

variable {start : DeviceTree}

theorem Drive.attach_reached (d : Drive) (p : PlacedVolume) (node : String) :
    Stable (Reached start) (d.attach p node) := by
  cases d with
  | scsiDisk =>
    exact .bind (onResources_reached _) fun thread _ => .bind (bootIndex_reached _)
      fun bootIndex _ => onShared_reached (.scsi thread)
        (.scsiDisk node ⟨p.volume.wwn, p.serial?, bootIndex⟩)
  | blockDisk =>
    exact .bind (onResources_reached _) fun thread _ => .bind (bootIndex_reached _)
      fun bootIndex _ => .bind addRoot_reached fun root _ =>
        onTree_reached (.addBlock root thread node ⟨none, p.serial?, bootIndex⟩) rfl
  | sataCd =>
    exact .bind (bootIndex_reached _) fun bootIndex _ =>
      onTree_reached (.addCdrom node bootIndex) rfl
  | scsiCd =>
    exact .bind (onResources_reached _) fun thread _ => .bind (bootIndex_reached _)
      fun bootIndex _ => onShared_reached (.scsi thread) (.scsiCd node ⟨none, none, bootIndex⟩)
  | usbDisk =>
    exact .bind (bootIndex_reached _) fun bootIndex _ =>
      onShared_reached .usb (.usbStorage node bootIndex)

theorem Attachment.apply_reached (a : Attachment) (p : PlacedVolume) :
    Stable (Reached start) (a.apply p) := by
  refine .bind (.forM fun node _ => .bind (onResources_reached _) fun _ _ => .pure trivial)
    fun _ _ => ?_
  cases a.drive? with
  | none => exact .pure trivial
  | some d => exact .bind (d.attach_reached p _) fun _ _ => .pure trivial

theorem BuildStep.edit_reached (step : BuildStep) : Stable (Reached start) step.edit := by
  cases step with
  | missing e => exact .throw
  | setting s => exact onSettings_reached _
  | monitor path index => exact .bind (onResources_reached _) fun _ _ => onSettings_reached _
  | panic => exact .bind (onTree_reached .addPanic rfl) fun _ _ => .pure trivial
  | display => exact .bind (onTree_reached .addDisplay rfl) fun _ _ => .pure trivial
  | tablet => exact .bind (onShared_reached .usb .usbTablet) fun _ _ => .pure trivial
  | serialChannel d name =>
    exact .bind (onResources_reached _) fun id _ =>
      .bind (onShared_reached .serial (.serialPort id name)) fun _ _ => .pure trivial
  | usbChannel d =>
    exact .bind (onResources_reached _) fun id _ =>
      .bind (onShared_reached .usb (.usbRedirect id)) fun _ _ => .pure trivial
  | securityModule path =>
    exact .bind (onResources_reached _) fun _ _ => .bind (onResources_reached _)
      fun device _ => onTree_reached (.addTpm device) rfl
  | volume a p => exact a.apply_reached p
  | connection machine network mac c =>
    exact .bind (onResources_reached _) fun tap _ => .bind addRoot_reached fun root _ =>
      .bind (onTree_reached (.addNetwork root mac tap.id) rfl) fun _ _ => .pure trivial
  | passthrough d path =>
    exact .bind addRoot_reached fun root _ =>
      .bind (onTree_reached (.addVfio root path) rfl) fun _ _ => .pure trivial

theorem BuildStep.run_reached (steps : List BuildStep) : Stable (Reached start) (run steps) :=
  .forM fun step _ => step.edit_reached

/-- The tree of a guest is one that some steps come to. -/
theorem Machine.reached_of_build {m : Machine} {catalog : Catalog} {locations : Locations}
    {t : Target} (h : m.build catalog locations = .ok t) : t.Reached {} := by
  obtain ⟨d, -, hrun⟩ := addDefinition_of_build h
  rw [Build.addDefinition_eq] at hrun
  exact (stable_iff.1 (BuildStep.run_reached _) {} (reached_self {})).ok hrun

end GuestCompiler
