import GuestCompiler.Build.Target
import GuestCompiler.Proofs.Positions
import GuestCompiler.Proofs.SharedControllers

/-!
# Handles

A root port or a controller is known by its position among the devices of a topology. Devices come
at the end and none goes away, so that a handle stays good: what it denotes keeps what it is, and a
controller keeps the endpoints it has (`Topology.Honors`). A tree remembers its shared controllers
by their handles, each under the kind that the controller is of (`DeviceTree.Kinded`), and what it
remembers it does not forget. So a shared controller is made once, and after that it is always
there (`Target.run_dependable`).
-/
namespace GuestCompiler

open Edit

/-- The same controller, with no endpoint gone or changed. -/
structure Controller.Grows (c c' : Controller) : Prop where
  kind : c'.kind = c.kind
  id : c'.id = c.id
  parent : c'.parent = c.parent
  endpoints : c.endpoints <+: c'.endpoints

namespace Controller.Grows

variable {c c' c'' : Controller}

theorem refl (c : Controller) : c.Grows c := ⟨rfl, rfl, rfl, List.prefix_rfl⟩

theorem trans (h : c.Grows c') (h' : c'.Grows c'') : c.Grows c'' :=
  ⟨h'.kind.trans h.kind, h'.id.trans h.id, h'.parent.trans h.parent,
    h.endpoints.trans h'.endpoints⟩

end Controller.Grows

/-- The same root port, whatever is behind it. -/
structure RootPort.Same (p p' : RootPort) : Prop where
  id : p'.id = p.id
  address : p'.address = p.address
  chassis : p'.chassis = p.chassis

namespace Topology

section Honors

/-- Whatever a handle denotes in one topology it also denotes in the other. -/
structure Honors (t t' : Topology) : Prop where
  root : ∀ r port, t.root? r = .ok port → ∃ port', t'.root? r = .ok port' ∧ port.Same port'
  controller : ∀ ref c, t.controller? ref = .ok c →
    ∃ c', t'.controller? ref = .ok c' ∧ c.Grows c'

variable {t t' t'' : Topology}

theorem Honors.refl (t : Topology) : t.Honors t where
  root _ port h := ⟨port, h, rfl, rfl, rfl⟩
  controller _ c h := ⟨c, h, .refl c⟩

theorem Honors.trans (h : t.Honors t') (h' : t'.Honors t'') : t.Honors t'' where
  root r port hport := by
    obtain ⟨port', hport', hsame⟩ := h.root r port hport
    obtain ⟨port'', hport'', hsame'⟩ := h'.root r port' hport'
    exact ⟨port'', hport'', hsame'.id.trans hsame.id, hsame'.address.trans hsame.address,
      hsame'.chassis.trans hsame.chassis⟩
  controller ref c hc := by
    obtain ⟨c', hc', hgrows⟩ := h.controller ref c hc
    obtain ⟨c'', hc'', hgrows'⟩ := h'.controller ref c' hc'
    exact ⟨c'', hc'', hgrows.trans hgrows'⟩

/-- Enough that each root port stays in its place, and a controller behind it stays there. -/
theorem honors_of_ports (h : ∀ (i : Nat) port, t.devices[i]? = some (.rootPort port) →
    ∃ port', t'.devices[i]? = some (.rootPort port') ∧ port.Same port' ∧
      ∀ c, port.downstream = some (.controller c) →
        ∃ c', port'.downstream = some (.controller c') ∧ c.Grows c') : t.Honors t' where
  root r port hport := by
    obtain ⟨port', hport', hsame, -⟩ := h _ port (root?_eq_ok.1 hport)
    exact ⟨port', root?_eq_ok.2 hport', hsame⟩
  controller ref c hc := by
    obtain ⟨port, hport, hdown⟩ := controller?_eq_ok.1 hc
    obtain ⟨port', hport', -, hbehind⟩ := h _ port hport
    obtain ⟨c', hdown', hgrows⟩ := hbehind c hdown
    exact ⟨c', controller?_eq_ok.2 ⟨port', hport', hdown'⟩, hgrows⟩

theorem honors_append {more : List TopLevel} (h : t'.devices = t.devices ++ more) :
    t.Honors t' := by
  refine honors_of_ports fun i port hport => ?_
  refine ⟨port, ?_, ⟨rfl, rfl, rfl⟩, fun c hc => ⟨c, hc, .refl c⟩⟩
  rw [h, List.getElem?_append_left (List.getElem?_eq_some_iff.1 hport).1]
  exact hport

/-- A root port has something else behind it. -/
theorem honors_replace {before after : List TopLevel} {port : RootPort}
    {downstream : Option Downstream} (h : t.devices = before ++ .rootPort port :: after)
    (h' : t'.devices = before ++ .rootPort { port with downstream := downstream } :: after)
    (hbehind : ∀ c, port.downstream = some (.controller c) →
      ∃ c', downstream = some (.controller c') ∧ c.Grows c') : t.Honors t' := by
  refine honors_of_ports fun i other hother => ?_
  rw [h] at hother
  obtain ⟨d, hd, rfl | ⟨hport, rfl⟩⟩ := exists_getElem?_replace hother
    (.rootPort { port with downstream := downstream })
  · exact ⟨other, h' ▸ hd, ⟨rfl, rfl, rfl⟩, fun c hc => ⟨c, hc, .refl c⟩⟩
  · cases hport
    exact ⟨{ port with downstream := downstream }, h' ▸ hd, ⟨rfl, rfl, rfl⟩, hbehind⟩

theorem Change.honors (h : t.Change t') : t.Honors t' := by
  cases h with
  | behind ht hfree _ =>
    exact honors_replace ht rfl fun c hc => nomatch hfree.symm.trans hc
  | @endpoint before after port c e ht hdown _ _ =>
    refine honors_replace ht rfl fun other hother => ?_
    cases hdown.symm.trans hother
    exact ⟨_, rfl, rfl, rfl, rfl, List.prefix_append _ _⟩
  | _ => exact honors_append rfl

end Honors

end Topology

namespace DeviceTree

variable {t t' : DeviceTree} {kind : ControllerKind}

/-- Each remembered controller is of the kind that it is remembered for. -/
def Kinded (t : DeviceTree) : Prop :=
  ∀ kind ref, t.shared? kind = some ref → ∃ c, t.topology.controller? ref = .ok c ∧ c.kind = kind

/-- Controllers of different kinds are different controllers. -/
theorem Kinded.eq_of_shared? (h : t.Kinded) {other : ControllerKind} {ref : ControllerRef}
    (hkind : t.shared? kind = some ref) (hother : t.shared? other = some ref) : kind = other := by
  obtain ⟨c, hc, rfl⟩ := h kind ref hkind
  obtain ⟨c', hc', rfl⟩ := h other ref hother
  rw [Except.ok.inj (hc.symm.trans hc')]

/-- All that a tree remembers is still there in another one, and still what it was. -/
structure Honors (t t' : DeviceTree) : Prop where
  topology : t.topology.Honors t'.topology
  shared : ∀ kind ref, t.shared? kind = some ref → t'.shared? kind = some ref

theorem Honors.refl (t : DeviceTree) : t.Honors t := ⟨.refl _, fun _ _ => id⟩

theorem Honors.trans {t'' : DeviceTree} (h : t.Honors t') (h' : t'.Honors t'') : t.Honors t'' where
  topology := h.topology.trans h'.topology
  shared kind ref href := h'.shared kind ref (h.shared kind ref href)

section Steps

/-- A tree remembers a controller as before, or one that has been made for the kind. -/
def Recalls (t t' : DeviceTree) : Prop :=
  ∀ kind, t'.shared? kind = t.shared? kind ∨ t.shared? kind = none ∧ ∃ ref c,
    t'.shared? kind = some ref ∧ t'.topology.controller? ref = .ok c ∧ c.kind = kind

theorem recalls_sharedController (kind : ControllerKind) (t : DeviceTree) :
    t.Recalls (state (sharedController kind t)) := by
  intro other
  cases href : t.shared? kind with
  | some ref =>
    have hmeets := meets_sharedController_next href
    cases hrun : sharedController kind t with
    | ok c t' => exact .inl (by rw [state, (hmeets.ok hrun).2])
    | error e t' => exact (hmeets.error hrun).elim
  | none =>
    have hmeets := meets_sharedController_first href
    cases hrun : sharedController kind t with
    | error e t' => exact .inl (by rw [state, (hmeets.error hrun).1])
    | ok c t' =>
      obtain ⟨-, rfl, rfl⟩ := hmeets.ok hrun
      have hshared := shared?_remember href ⟨t.topology.devices.length⟩ other
      by_cases hother : other = kind
      · subst hother
        rw [if_pos rfl] at hshared
        exact .inr ⟨href, _, _, hshared,
          Topology.controller?_eq_ok.2 ⟨_, List.getElem?_concat_length .., rfl⟩, rfl⟩
      · rw [if_neg hother] at hshared
        exact .inl hshared

theorem recalls_onTopology {α β : Type} (edit : Edit Error Topology α) (f : α → β)
    (t : DeviceTree) : t.Recalls (state ((f <$> onTopology edit) t)) := by
  intro kind
  rw [state_map, onTopology, state_within]
  exact .inl rfl

theorem recalls_step (step : TreeStep) (t : DeviceTree) : t.Recalls (state (step.edit t)) := by
  cases step with
  | serialController =>
    rw [TreeStep.edit, state_map]
    exact recalls_sharedController .serial t
  | usbController =>
    rw [TreeStep.edit, state_map]
    exact recalls_sharedController .usb t
  | scsiController thread =>
    rw [TreeStep.edit, state_map]
    exact recalls_sharedController (.scsi thread) t
  | _ => exact recalls_onTopology _ _ t

theorem honors_step (step : TreeStep) (t : DeviceTree) : t.Honors (state (step.edit t)) where
  topology := Topology.keeps_of_changes (P := fun top => t.topology.Honors top)
    (fun _ _ hhonors h => hhonors.trans h.honors) (step.course_state t).changes (.refl _)
  shared kind ref href := by
    rcases recalls_step step t kind with hsame | ⟨hnone, -⟩
    · exact hsame.trans href
    · exact nomatch hnone.symm.trans href

theorem Kinded.step (h : t.Kinded) (step : TreeStep) : Kinded (state (step.edit t)) := by
  intro kind ref href
  rcases recalls_step step t kind with hsame | ⟨-, ref', c, href', hc, hkind⟩
  · obtain ⟨c, hc, rfl⟩ := h kind ref (hsame.symm.trans href)
    obtain ⟨c', hc', hgrows⟩ := (honors_step step t).topology.controller ref c hc
    exact ⟨c', hc', hgrows.kind⟩
  · cases href.symm.trans href'
    exact ⟨c, hc, hkind⟩

theorem run_honors (t : DeviceTree) (steps : List TreeStep) : t.Honors (t.run steps) := by
  induction steps generalizing t with
  | nil => exact .refl t
  | cons step steps ih => exact (honors_step step t).trans (ih _)

theorem Kinded.run (h : t.Kinded) (steps : List TreeStep) : (t.run steps).Kinded := by
  induction steps generalizing t with
  | nil => exact h
  | cons step steps ih => exact ih (h.step step)

theorem kinded_empty : Kinded {} := fun kind _ href => by cases kind <;> exact nomatch href

end Steps

end DeviceTree

namespace Target

/-- The controller that the endpoints of a kind share, made when it is first asked for. -/
def shared (kind : ControllerKind) : Edit Error Target Controller :=
  onShared (DeviceTree.sharedController kind) get

end Target

/-- What a target can be asked for, beside settings and resources without a device. -/
inductive TargetStep
  | tree (step : TreeStep)
  | shared (kind : ControllerKind)
  | thread
  | newThread
  | bootIndex (bootable : Bool)

def TargetStep.edit : TargetStep → Edit Error Target Unit
  | tree step => do let _ ← Target.onTree step.edit
  | shared kind => do let _ ← Target.shared kind
  | thread => do let _ ← Target.thread
  | newThread => do let _ ← Target.onResources Resources.addThread
  | bootIndex bootable => do let _ ← Target.bootIndex bootable

namespace Topology

variable {t : Topology} {ref : ControllerRef} {c : Controller}

theorem yields_addController (root : RootPortRef) (kind : ControllerKind) (t : Topology) :
    Yields (addController root kind) t fun ref t' => ∃ port, t.root? root = .ok port ∧
      t'.controller? ref = .ok ⟨kind, t.counts.next kind.family, port.id, []⟩ := by
  refine meets_map.2 ?_
  simp only [Meets, attach]
  cases hroot : t.root? root with
  | error e => trivial
  | ok port =>
    by_cases hbusy : port.downstream.isSome = true
    · simp only [hbusy, if_true]
    · simp only [hbusy]
      have hplace : root.position < t.devices.length :=
        (List.getElem?_eq_some_iff.1 (root?_eq_ok.1 hroot)).1
      exact ⟨port, rfl, controller?_eq_ok.2 ⟨_, List.getElem?_set_self hplace, rfl⟩⟩

/-- To look at a controller changes nothing. -/
theorem meets_getController (hc : t.controller? ref = .ok c) :
    Meets (onController ref get) t (fun c' t' => c' = c ∧ t' = t) (fun _ _ => False) := by
  simp only [Meets, onController, hc]
  exact ⟨rfl, setDownstream_self hc⟩

theorem state_getController (ref : ControllerRef) (t : Topology) :
    state (onController ref get t) = t := by
  cases hc : t.controller? ref with
  | error e => simp only [onController, hc, state]
  | ok c =>
    have hmeets := meets_getController hc
    cases hrun : onController ref get t with
    | ok c' t' => exact (hmeets.ok hrun).2
    | error e t' => exact (hmeets.error hrun).elim

end Topology

namespace Target

variable {t : Target} {kind : ControllerKind}

section Shared

/-- An edit of the topology of a target, and the rest as it was. -/
theorem meets_onTopology {α : Type} {edit : Edit Error Topology α} {post : α → Target → Prop}
    {fail : Error → Target → Prop} : Meets (onTopology edit) t post fail ↔
    Meets edit t.tree.topology
      (fun a top => post a { t with tree := { t.tree with topology := top } })
      (fun e top => fail e { t with tree := { t.tree with topology := top } }) :=
  meets_within.trans meets_within

/-- A remembered controller is answered, and nothing changes. -/
theorem shared_eq_ok {ref : ControllerRef} {c : Controller}
    (href : t.tree.shared? kind = some ref) (hc : t.tree.topology.controller? ref = .ok c) :
    shared kind t = .ok c t := by
  have hmeets : Meets (shared kind) t (fun c' t' => c' = c ∧ t' = t) (fun _ _ => False) := by
    refine Meets.bind (M := fun ref' t' => ref' = ref ∧ t' = t) (meets_within.2
      ((DeviceTree.meets_sharedController_next href).imp ?_)) ?_
    · rintro _ _ ⟨rfl, rfl⟩
      exact ⟨rfl, rfl⟩
    rintro _ _ ⟨rfl, rfl⟩
    refine meets_onTopology.2 ((Topology.meets_getController hc).imp ?_)
    rintro _ _ ⟨rfl, rfl⟩
    exact ⟨rfl, rfl⟩
  cases hrun : shared kind t with
  | error e t' => exact (hmeets.error hrun).elim
  | ok c' t' =>
    obtain ⟨rfl, rfl⟩ := hmeets.ok hrun
    rfl

/-- A shared controller is there from the first call on, which fails only where there is no room for
a new controller. -/
theorem meets_shared (ht : t.tree.Kinded) : Meets (shared kind) t
    (fun c t' => ∃ ref, t'.tree.shared? kind = some ref ∧
      t'.tree.topology.controller? ref = .ok c)
    (fun e t' => t' = t ∧ t.tree.shared? kind = none ∧ t.tree.topology.Full e) := by
  cases href : t.tree.shared? kind with
  | some ref =>
    obtain ⟨c, hc, -⟩ := ht kind ref href
    rw [Meets, shared_eq_ok href hc]
    exact ⟨ref, href, hc⟩
  | none =>
    refine Meets.bind (M := fun ref t' => t'.tree.shared? kind = some ref ∧
      ∃ c, t'.tree.topology.controller? ref = .ok c) (meets_within.2
        ((DeviceTree.meets_sharedController_first href).mono ?_ ?_)) ?_
    · rintro _ _ ⟨-, rfl, rfl⟩
      exact ⟨(DeviceTree.shared?_remember href _ kind).trans (if_pos rfl), _,
        Topology.controller?_eq_ok.2 ⟨_, List.getElem?_concat_length .., rfl⟩⟩
    · rintro e _ ⟨rfl, hfull⟩
      exact ⟨rfl, rfl, hfull⟩
    · rintro ref t' ⟨href', c, hc⟩
      refine meets_onTopology.2 ((Topology.meets_getController hc).mono ?_ ?_)
      · rintro _ _ ⟨rfl, rfl⟩
        exact ⟨ref, href', hc⟩
      · exact fun _ _ => False.elim

end Shared

section Run

/-- The target after some steps, those that are refused among them. -/
def run (t : Target) (steps : List TargetStep) : Target :=
  steps.foldl (fun t step => state (step.edit t)) t

/-- What a step does to the tree of a target, some steps of the tree do. -/
theorem tree_step (step : TargetStep) (t : Target) :
    ∃ treeSteps, (state (step.edit t)).tree = t.tree.run treeSteps := by
  have hdiscard {α : Type} (x : Edit Error Target α) :
      state ((do let _ ← x : Edit Error Target Unit) t) = state (x t) :=
    state_bind_of_still fun _ _ => rfl
  cases step with
  | tree step =>
    refine ⟨[step], ?_⟩
    rw [TargetStep.edit, hdiscard, onTree, state_within]
    rfl
  | shared kind =>
    have hedit : (state (shared kind t)).tree =
        state (DeviceTree.sharedController kind t.tree) := by
      rw [shared, onShared, state_bind_of_still, onTree, state_within]
      intro ref t'
      rw [onTopology, onTree, state_within, DeviceTree.onTopology, state_within,
        Topology.state_getController]
    rw [TargetStep.edit, hdiscard, hedit]
    cases kind with
    | serial => exact ⟨[.serialController], by simp [TreeStep.edit, DeviceTree.sharedController]⟩
    | usb => exact ⟨[.usbController], by simp [TreeStep.edit, DeviceTree.sharedController]⟩
    | scsi thread =>
      exact ⟨[.scsiController thread], by simp [TreeStep.edit, DeviceTree.sharedController]⟩
  | thread =>
    refine ⟨[], ?_⟩
    rw [TargetStep.edit, hdiscard, thread, onResources, state_within]
    rfl
  | newThread => exact ⟨[], rfl⟩
  | bootIndex bootable => cases bootable <;> exact ⟨[], rfl⟩

theorem tree_run (t : Target) (steps : List TargetStep) :
    ∃ treeSteps, (t.run steps).tree = t.tree.run treeSteps := by
  induction steps generalizing t with
  | nil => exact ⟨[], rfl⟩
  | cons step steps ih =>
    obtain ⟨first, hfirst⟩ := tree_step step t
    obtain ⟨rest, hrest⟩ := ih (state (step.edit t))
    exact ⟨first ++ rest, by rw [DeviceTree.run_append, ← hfirst]; exact hrest⟩

theorem run_honors (t : Target) (steps : List TargetStep) :
    t.tree.Honors (t.run steps).tree := by
  obtain ⟨treeSteps, htree⟩ := tree_run t steps
  rw [htree]
  exact DeviceTree.run_honors _ treeSteps

end Run

/-- What can be relied on from a target on, whatever is done next. -/
structure Dependable (t : Target) : Prop where
  /-- What a handle denotes, it denotes for good. -/
  handles : ∀ more, t.tree.topology.Honors (t.run more).tree.topology
  /-- The handle of a new root port denotes that port. -/
  roots : ∀ r t', onTopology Topology.addRoot t = .ok r t' →
    t'.tree.topology.root? r = .ok t.tree.topology.newPort ∧
      ∀ more, ∃ port, (t'.run more).tree.topology.root? r = .ok port ∧
        t.tree.topology.newPort.Same port
  /-- The handle of a new controller denotes one of the kind, behind the port. -/
  controllers : ∀ root kind ref t',
    onTopology (Topology.addController root kind) t = .ok ref t' →
    ∃ port, t.tree.topology.root? root = .ok port ∧
      t'.tree.topology.controller? ref =
        .ok ⟨kind, t.tree.topology.counts.next kind.family, port.id, []⟩
  /-- A shared controller that has been answered is answered by every later call, and no such call
  changes anything. -/
  shared : ∀ kind c t', Target.shared kind t = .ok c t' → ∃ ref, ∀ more,
    (t'.run more).tree.shared? kind = some ref ∧ ∃ c', c.Grows c' ∧
      (t'.run more).tree.topology.controller? ref = .ok c' ∧
      Target.shared kind (t'.run more) = .ok c' (t'.run more)
  kinded : t.tree.Kinded
  distinct : ∀ kind other ref, t.tree.shared? kind = some ref → t.tree.shared? other = some ref →
    kind = other
  refused : ∀ kind e t', Target.shared kind t = .error e t' → t' = t ∧
    t.tree.shared? kind = none ∧ t.tree.topology.functions = 256 ∧
    e = .capacity "PCI Express root complex" 256 256

theorem dependable_of_kinded (ht : t.tree.Kinded) (horder : t.tree.topology.InOrder) :
    t.Dependable where
  handles more := (run_honors t more).topology
  roots r t' hrun := by
    have hmeets : Yields (onTopology Topology.addRoot) t fun r t' =>
        t'.tree.topology.root? r = .ok t.tree.topology.newPort := by
      refine meets_onTopology.2 ((Topology.meets_addRoot _).yields.imp ?_)
      rintro _ _ ⟨-, rfl, rfl⟩
      exact Topology.root?_eq_ok.2 (List.getElem?_concat_length ..)
    have hport := hmeets.ok hrun
    exact ⟨hport, fun more => (run_honors t' more).topology.root r _ hport⟩
  controllers root kind ref t' hrun := by
    have hmeets : Yields (onTopology (Topology.addController root kind)) t fun ref t' =>
        ∃ port, t.tree.topology.root? root = .ok port ∧ t'.tree.topology.controller? ref =
          .ok ⟨kind, t.tree.topology.counts.next kind.family, port.id, []⟩ :=
      meets_onTopology.2 (Topology.yields_addController root kind _)
    exact hmeets.ok hrun
  shared kind c t' hrun := by
    obtain ⟨ref, href, hc⟩ := (meets_shared ht).ok hrun
    refine ⟨ref, fun more => ?_⟩
    have href' := (run_honors t' more).shared kind ref href
    obtain ⟨c', hc', hgrows⟩ := (run_honors t' more).topology.controller ref c hc
    exact ⟨href', c', hgrows, hc', shared_eq_ok href' hc'⟩
  kinded := ht
  distinct _ _ _ := ht.eq_of_shared?
  refused kind e t' hrun := by
    obtain ⟨rfl, hnone, hfull, rfl⟩ := (meets_shared ht).error hrun
    have hall : t'.tree.topology.functions = 256 := Nat.le_antisymm horder.functions hfull
    exact ⟨rfl, hnone, hall, by rw [hall]; rfl⟩

/-- Handles and shared controllers stay what they are after any steps, those that are refused among
them. -/
theorem run_dependable (steps : List TargetStep) : (run {} steps).Dependable := by
  obtain ⟨treeSteps, htree⟩ := tree_run {} steps
  refine dependable_of_kinded ?_ ?_ <;> rw [htree]
  · exact DeviceTree.kinded_empty.run treeSteps
  · exact DeviceTree.run_inOrder treeSteps

end Target

end GuestCompiler
