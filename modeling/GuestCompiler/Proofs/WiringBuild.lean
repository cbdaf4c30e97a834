import GuestCompiler.Proofs.BuildSteps
import GuestCompiler.Proofs.Wiring

/-!
# Wired builds

Each step of a build keeps the target wired, so that whatever a build answers is wired.
-/
namespace GuestCompiler

open Edit

namespace Attachment

/-- The node that references to a volume name is among the volume's nodes, unless it has none. -/
theorem exists_node {a : Attachment} (h : a ≠ tpmData) (p : PlacedVolume) :
    ∃ node ∈ a.nodes p, node.name = a.nodeName p := by
  cases a with
  | tpmData => exact absurd rfl h
  | _ => simp [nodes, BlockNode.name]

variable {start : Resources} {t : Target}

theorem addNodes_wired (ht : t.WiredFrom start) (nodes : List BlockNode) :
    Yields (nodes.forM fun node => do let _ ← Target.onResources (Resources.addBlock node)) t
      fun _ t' => t'.WiredFrom start ∧ ∀ node ∈ nodes, node.name ∈ t'.resources.blocks.names := by
  refine Meets.forM (fun (done : List BlockNode) (t' : Target) =>
    t'.WiredFrom start ∧ ∀ node ∈ done, node.name ∈ t'.resources.blocks.names) ⟨ht, nofun⟩
    fun done node t₁ _ ⟨h₁, hdone⟩ => ?_
  refine (Target.addBlock_wired h₁ node).bind fun name t₂ ⟨h₂, hgrows, hmem, hname⟩ => ?_
  refine ⟨h₂, fun other hother => ?_⟩
  rcases List.mem_append.1 hother with hold | hnew
  · exact hgrows.mem_blocks (hdone other hold)
  · rw [List.mem_singleton.1 hnew, ← hname]
    exact hmem

theorem apply_wired (ht : t.WiredFrom start) (a : Attachment) (p : PlacedVolume) :
    Yields (a.apply p) t fun _ t' => t'.WiredFrom start := by
  refine (addNodes_wired ht (a.nodes p)).bind fun _ t₁ ⟨h₁, hnodes⟩ => ?_
  cases hdrive : a.drive? with
  | none => exact h₁
  | some d =>
    have ha : a ≠ tpmData := fun h => by simp [h, drive?] at hdrive
    obtain ⟨node, hmem, hname⟩ := exists_node ha p
    exact (d.attach_wired h₁ p (hname ▸ hnodes node hmem)).bind fun _ _ h => h

end Attachment

namespace BuildStep

variable {start : Resources} {t : Target}

/-- The ids that a step passes on are those of what it has just added. -/
theorem edit_wired (ht : t.WiredFrom start) (step : BuildStep) :
    Yields step.edit t fun _ t' => t'.WiredFrom start := by
  cases step with
  | missing e => trivial
  | setting s =>
    refine Target.onSettings_wired ht ?_
    cases s <;> exact ht.monitors
  | monitor path index =>
    refine (Target.addCharDevice_wired ht _).bind fun id t₁ ⟨h₁, _, hid⟩ => ?_
    refine Target.onSettings_wired h₁ fun m hm => ?_
    rcases List.mem_append.1 hm with hold | hnew
    · exact h₁.monitors m hold
    · rw [List.mem_singleton.1 hnew]
      exact hid
  | panic =>
    exact (Target.onTopology_wired ht (Topology.addPanic_wired ht.topology)).bind fun _ _ h => h.1
  | display =>
    exact (Target.onTopology_wired ht (Topology.addDisplay_wired ht.topology)).bind fun _ _ h => h.1
  | tablet =>
    refine (Target.onShared_wired ht (DeviceTree.usbController_wired ht.topology) ?_).bind
      fun _ _ h => h
    exact fun _ => trivial
  | serialChannel d name =>
    refine (Target.addCharDevice_wired ht d).bind fun id t₁ ⟨h₁, _, hid⟩ => ?_
    refine (Target.onShared_wired h₁ (DeviceTree.serialController_wired h₁.topology) ?_).bind
      fun _ _ h => h
    exact fun _ => hid
  | usbChannel d =>
    refine (Target.addCharDevice_wired ht d).bind fun id t₁ ⟨h₁, _, hid⟩ => ?_
    refine (Target.onShared_wired h₁ (DeviceTree.usbController_wired h₁.topology) ?_).bind
      fun _ _ h => h
    exact fun _ => hid
  | securityModule path =>
    refine (Target.addCharDevice_wired ht _).bind fun socket t₁ ⟨h₁, _, hsocket⟩ => ?_
    refine (Target.addEmulatedTpm_wired h₁ hsocket _).bind fun device t₂ ⟨h₂, _, hdevice⟩ => ?_
    exact (Target.onTopology_wired h₂ (Topology.addTpm_wired h₂.topology hdevice)).imp
      fun _ _ h => h.1
  | volume a p => exact a.apply_wired ht p
  | connection machine network mac c =>
    refine (Target.addTap_wired ht _ _ _).bind fun tap t₁ ⟨h₁, _, htap⟩ => ?_
    refine (Target.onTopology_wired h₁ (Topology.addRoot_wired h₁.topology)).bind
      fun root t₂ ⟨h₂, hr⟩ => ?_
    refine (Target.onTopology_wired h₂ (Topology.attach_wired h₂.topology root "nic" ?_)).bind
      fun _ _ h => h.1
    exact fun _ _ => ⟨rfl, hr ▸ htap⟩
  | passthrough d path =>
    refine (Target.onTopology_wired ht (Topology.addRoot_wired ht.topology)).bind
      fun root t₁ ⟨h₁, _⟩ => ?_
    refine (Target.onTopology_wired h₁ (Topology.attach_wired h₁.topology root "vfio" ?_)).bind
      fun _ _ h => h.1
    exact fun _ _ => rfl

theorem run_wired (ht : t.WiredFrom start) (steps : List BuildStep) :
    Yields (run steps) t fun _ t' => t'.WiredFrom start :=
  Meets.forM_inv _ ht fun step _ _ h => step.edit_wired h

end BuildStep

namespace Machine

variable {m : Machine} {catalog : Catalog} {locations : Locations} {t : Target}

theorem wired_of_build (h : m.build catalog locations = .ok t) : t.Wired := by
  obtain ⟨d, hd, -⟩ := addDefinition_of_build h
  exact ((BuildStep.run_wired Target.wired_empty.onward _).ok (run_of_build hd h)).toWired

end Machine

namespace Sample

/-- A host with a pool of each sort and a bridge. -/
def host : Catalog where
  pools := .ofList [("images", { path := ⟨"/images"⟩, kind := "raw" }),
    ("media", { path := ⟨"/media"⟩, kind := "iso-usb", readOnly := true }),
    ("firmware", { path := ⟨"/firmware"⟩, kind := "firmware", readOnly := true }),
    ("secrets", { path := ⟨"/secrets"⟩, kind := "tpm-data" })]
  networks := .ofList [("lan", { device := "br0" })]

/-- A machine with something on every bus. -/
def desktop : Machine where
  name := "desk"
  definition := {
    attributes := {
      firmware := { code := { name := "ovmf", storage := "firmware" } }
      qmp := { enabled := true }
      agent := { enabled := true, port := 9000 }
      spice := { enabled := true }
      tpm := true }
    volumes := [{ name := "os", storage := "images", bootable := true },
      { name := "setup", storage := "media", bootable := true }]
    connections := [{ name := "eth0", network := "lan" }] }

theorem exists_of_any {ε α : Type} {answer : Except ε α} {p : α → Bool}
    (h : answer.toOption.any p = true) : ∃ a, answer = .ok a ∧ p a = true := by
  cases answer with
  | ok a => exact ⟨a, rfl, h⟩
  | error e => exact nomatch h

theorem exists_build_desktop : ∃ t, desktop.build host {} = .ok t := by
  have hok : (desktop.build host {}).toOption.any (fun _ => true) = true := by decide +kernel
  obtain ⟨t, ht, -⟩ := exists_of_any hok
  exact ⟨t, ht⟩

end Sample

end GuestCompiler
