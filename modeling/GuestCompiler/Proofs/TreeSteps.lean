import GuestCompiler.Proofs.Changes
import Mathlib.Logic.Relation

/-!
# Steps of a device tree

Whatever can be asked of a device tree is a `TreeStep`. A step that is taken makes one change of the
topology, after a new root port where it makes a shared controller, and a step that is refused
leaves the whole tree as it was (`TreeStep.meets`). What every change keeps holds after any steps
(`DeviceTree.run_keeps`).
-/
namespace GuestCompiler

open Edit

inductive TreeStep
  | addRoot
  | addPanic
  | addDisplay
  | addTpm (tpmDevice : String)
  | addCdrom (drive : String) (bootIndex : Option Nat)
  | addController (root : RootPortRef) (kind : ControllerKind)
  | addBlock (root : RootPortRef) (thread : IoThread) (drive : String) (disk : DiskOptions)
  | addNetwork (root : RootPortRef) (mac : MacAddress) (tap : String)
  | addVfio (root : RootPortRef) (path : Path)
  | addEndpoint (controller : ControllerRef) (request : EndpointRequest)
  | serialController
  | usbController
  | scsiController (thread : IoThread)

inductive TreeAnswer
  | none
  | id (id : String)
  | root (root : RootPortRef)
  | controller (controller : ControllerRef)
  deriving DecidableEq

open DeviceTree in
def TreeStep.edit : TreeStep → Edit Error DeviceTree TreeAnswer
  | addRoot => .root <$> onTopology Topology.addRoot
  | addPanic => .id <$> onTopology Topology.addPanic
  | addDisplay => .id <$> onTopology Topology.addDisplay
  | addTpm tpmDevice => (fun _ => .none) <$> onTopology (Topology.addTpm tpmDevice)
  | addCdrom drive bootIndex => .id <$> onTopology (Topology.addCdrom drive bootIndex)
  | addController root kind => .controller <$> onTopology (Topology.addController root kind)
  | addBlock root thread drive disk => .id <$> onTopology (Topology.addBlock root thread drive disk)
  | addNetwork root mac tap => .id <$> onTopology (Topology.addNetwork root mac tap)
  | addVfio root path => .id <$> onTopology (Topology.addVfio root path)
  | addEndpoint controller request =>
    .id <$> onTopology (Topology.onController controller request.edit)
  | serialController => .controller <$> DeviceTree.serialController
  | usbController => .controller <$> DeviceTree.usbController
  | scsiController thread => .controller <$> DeviceTree.scsiController thread

/-- What a step that is taken does to a topology. -/
inductive Topology.Course (t : Topology) : Topology → Prop
  | still : Course t t
  | change {t' : Topology} : t.Change t' → Course t t'
  | shared {t' : Topology} : t.functions < maxFunctions → t.withRoot.Change t' → Course t t'

theorem DeviceTree.meets_onTopology {α : Type} {edit : Edit Error Topology α} {t : DeviceTree}
    (h : Meets edit t.topology (fun _ t' => t.topology.Change t')
      (fun e t' => t' = t.topology ∧ t.topology.Refusal e)) (answer : α → TreeAnswer) :
    Meets (answer <$> onTopology edit) t (fun _ t' => t.topology.Course t'.topology)
      (fun e t' => t' = t ∧ t.topology.Refusal e) := by
  refine meets_map.2 (meets_within.2 (h.mono (fun _ _ hchange => .change hchange) ?_))
  rintro e top ⟨rfl, hrefused⟩
  exact ⟨rfl, hrefused⟩

theorem DeviceTree.meets_shared {known : DeviceTree → Option ControllerRef}
    {remember : ControllerRef → DeviceTree → DeviceTree} (kind : ControllerKind)
    (hremember : ∀ c t, (remember c t).topology = t.topology) (t : DeviceTree) :
    Meets (shared known remember kind) t (fun _ t' => t.topology.Course t'.topology)
      (fun e t' => t' = t ∧ t.topology.Refusal e) := by
  unfold shared
  refine Meets.bind (M := fun seen t' => seen = t ∧ t' = t) ⟨rfl, rfl⟩ ?_
  rintro seen s ⟨hseen, hs⟩
  rw [hseen, hs]
  cases known t with
  | some c => exact .still
  | none =>
    refine Meets.bind (M := fun root t' => t.topology.functions < Topology.maxFunctions ∧
      root = ⟨t.topology.devices.length⟩ ∧ t' = { t with topology := t.topology.withRoot }) ?_ ?_
    · refine meets_within.2 ((Topology.meets_addRoot t.topology).mono ?_ ?_)
      · rintro root top ⟨hroom, hroot, rfl⟩
        exact ⟨hroom, hroot, rfl⟩
      · rintro e top ⟨rfl, hrefused⟩
        exact ⟨rfl, hrefused⟩
    · rintro _ _ ⟨hroom, rfl, rfl⟩
      refine Meets.bind (M := fun _ t' => t.topology.withRoot.Change t'.topology) ?_ ?_
      · exact meets_within.2 ((Topology.change_addController_newPort kind t.topology).mono
          (fun _ _ hchange => hchange) fun _ _ hnever => hnever.elim)
      · intro c t' hchange
        refine meets_bind.2 (meets_modify.2 ?_)
        exact .shared hroom (by rw [hremember]; exact hchange)

/-- A step that is taken changes the topology as it may, and one that is refused changes nothing. -/
theorem TreeStep.meets (step : TreeStep) (t : DeviceTree) :
    Meets step.edit t (fun _ t' => t.topology.Course t'.topology)
      (fun e t' => t' = t ∧ t.topology.Refusal e) := by
  cases step with
  | addRoot =>
    refine DeviceTree.meets_onTopology ((Topology.meets_addRoot _).imp ?_) _
    rintro _ _ ⟨hroom, -, rfl⟩
    exact .root hroom
  | addPanic => exact DeviceTree.meets_onTopology (Topology.change_addPanic _) _
  | addDisplay => exact DeviceTree.meets_onTopology (Topology.change_addDisplay _) _
  | addTpm tpmDevice => exact .change (.tpm tpmDevice)
  | addCdrom drive bootIndex =>
    exact DeviceTree.meets_onTopology (Topology.change_addCdrom drive bootIndex _) _
  | addController root kind =>
    have hnew (id bus : String) :
        (Downstream.controller ⟨kind, id, bus, []⟩).New kind.family id bus := ⟨rfl, rfl, rfl, rfl⟩
    exact DeviceTree.meets_onTopology (meets_map.2 (Topology.change_attach root hnew _)) _
  | addBlock root thread drive disk =>
    have hnew (id bus : String) : (Downstream.block id bus thread drive disk).New "block" id bus :=
      ⟨rfl, rfl, rfl, rfl⟩
    exact DeviceTree.meets_onTopology (Topology.change_attach root hnew _) _
  | addNetwork root mac tap =>
    have hnew (id bus : String) : (Downstream.network id bus mac tap).New "nic" id bus :=
      ⟨rfl, rfl, rfl, rfl⟩
    exact DeviceTree.meets_onTopology (Topology.change_attach root hnew _) _
  | addVfio root path =>
    have hnew (id bus : String) : (Downstream.vfio id bus path).New "vfio" id bus :=
      ⟨rfl, rfl, rfl, rfl⟩
    exact DeviceTree.meets_onTopology (Topology.change_attach root hnew _) _
  | addEndpoint controller request =>
    exact DeviceTree.meets_onTopology (Topology.change_onController controller request _) _
  | serialController =>
    refine meets_map.2 (DeviceTree.meets_shared .serial ?_ t)
    exact fun _ _ => rfl
  | usbController =>
    refine meets_map.2 (DeviceTree.meets_shared .usb ?_ t)
    exact fun _ _ => rfl
  | scsiController thread =>
    refine meets_map.2 (DeviceTree.meets_shared (.scsi thread) ?_ t)
    exact fun _ _ => rfl

/-- The tree after some steps, those that are refused among them. -/
def DeviceTree.run (t : DeviceTree) (steps : List TreeStep) : DeviceTree :=
  steps.foldl (fun t step => Edit.state (step.edit t)) t

@[simp] theorem DeviceTree.run_nil (t : DeviceTree) : t.run [] = t := rfl

@[simp] theorem DeviceTree.run_cons (t : DeviceTree) (step : TreeStep) (steps : List TreeStep) :
    t.run (step :: steps) = (Edit.state (step.edit t)).run steps := rfl

theorem DeviceTree.run_append (t : DeviceTree) (steps more : List TreeStep) :
    t.run (steps ++ more) = (t.run steps).run more := List.foldl_append

theorem TreeStep.course_state (step : TreeStep) (t : DeviceTree) :
    t.topology.Course (Edit.state (step.edit t)).topology := by
  have hmeets := step.meets t
  cases hrun : step.edit t with
  | ok answer t' => exact hmeets.ok hrun
  | error e t' =>
    rw [Edit.state, (hmeets.error hrun).1]
    exact .still

/-- A course is a few changes. -/
theorem Topology.Course.changes {t t' : Topology} (h : t.Course t') :
    Relation.ReflTransGen Topology.Change t t' := by
  cases h with
  | still => exact .refl
  | change hchange => exact .single hchange
  | shared hroom hchange => exact .tail (.single (.root hroom)) hchange

theorem DeviceTree.run_changes (t : DeviceTree) (steps : List TreeStep) :
    Relation.ReflTransGen Topology.Change t.topology (t.run steps).topology := by
  induction steps generalizing t with
  | nil => exact .refl
  | cons step steps ih => exact (step.course_state t).changes.trans (ih _)

theorem Topology.keeps_of_changes {P : Topology → Prop}
    (hchange : ∀ t t', P t → t.Change t' → P t') {t t' : Topology}
    (h : Relation.ReflTransGen Topology.Change t t') (ht : P t) : P t' := by
  induction h with
  | refl => exact ht
  | tail _ hstep ih => exact hchange _ _ ih hstep

/-- What every change keeps holds after any steps. -/
theorem DeviceTree.run_keeps {P : Topology → Prop} (hchange : ∀ t t', P t → t.Change t' → P t')
    {t : DeviceTree} (ht : P t.topology) (steps : List TreeStep) : P (t.run steps).topology :=
  Topology.keeps_of_changes hchange (t.run_changes steps) ht

end GuestCompiler
