import GuestCompiler.Proofs.Positions

/-!
# Refused steps

A step that is refused leaves the device tree as it was, and a refusal for want of room tells how
many devices are attached to what is full, which is as many as fit (`DeviceTree.refused_unchanged`).
-/
namespace GuestCompiler

namespace Controller

theorem take_title (c : Controller) : c.title.toList.take 2 = match c.kind with
    | .scsi _ => ['S', 'C']
    | .usb => ['U', 'S']
    | .serial => ['s', 'e'] := by
  cases hkind : c.kind <;> simp [title, ControllerKind.title, hkind]

theorem title_ne_complex (c : Controller) : c.title ≠ "PCI Express root complex" := by
  intro h
  have hstart := c.take_title
  rw [h] at hstart
  cases hkind : c.kind <;> simp [hkind] at hstart

theorem title_ne_sata (c : Controller) : c.title ≠ "SATA controller" := by
  intro h
  have hstart := c.take_title
  rw [h] at hstart
  cases hkind : c.kind <;> simp [hkind] at hstart

/-- A title tells what a controller is numbered under, but not the thread that serves it. -/
theorem title_injective {c c' : Controller} (h : c'.title = c.title) :
    (c'.kind.family, c'.id) = (c.kind.family, c.id) := by
  have hstart := c'.take_title
  rw [h, c.take_title] at hstart
  simp only [title] at h
  cases hkind : c.kind <;> cases hkind' : c'.kind <;>
    simp_all [ControllerKind.title, ControllerKind.family]

end Controller

namespace TopLevel

/-- The resources that a device and the endpoints behind it are attached to. -/
def resources (d : TopLevel) : List String :=
  (d.address?.toList.map fun _ => "PCI Express root complex") ++
    (d.cdromBus?.toList.map fun _ => "SATA controller") ++
    d.controller?.toList.flatMap fun c => c.endpoints.map fun _ => c.title

theorem count_complex (d : TopLevel) :
    d.resources.count "PCI Express root complex" = d.address?.toList.length := by
  have hends : "PCI Express root complex" ∉
      d.controller?.toList.flatMap fun c => c.endpoints.map fun _ => c.title := by
    simp only [List.mem_flatMap, List.mem_map, not_exists, not_and]
    exact fun c _ _ _ => c.title_ne_complex
  rw [resources, List.count_append, List.count_append, List.count_eq_zero.2 hends]
  cases d.address? <;> cases d.cdromBus? <;> simp

theorem count_sata (d : TopLevel) :
    d.resources.count "SATA controller" = d.cdromBus?.toList.length := by
  have hends : "SATA controller" ∉
      d.controller?.toList.flatMap fun c => c.endpoints.map fun _ => c.title := by
    simp only [List.mem_flatMap, List.mem_map, not_exists, not_and]
    exact fun c _ _ _ => c.title_ne_sata
  rw [resources, List.count_append, List.count_append, List.count_eq_zero.2 hends]
  cases d.address? <;> cases d.cdromBus? <;> simp

theorem numbered_of_title_mem {d : TopLevel} {c : Controller} (h : c.title ∈ d.resources) :
    (c.kind.family, c.id) ∈ d.numbered := by
  simp only [resources, List.mem_append, List.mem_map, List.mem_flatMap, Option.mem_toList] at h
  rcases h with (⟨_, _, htitle⟩ | ⟨_, _, htitle⟩) | ⟨c', hc', _, _, htitle⟩
  · exact absurd htitle.symm c.title_ne_complex
  · exact absurd htitle.symm c.title_ne_sata
  · obtain ⟨port, rfl, hport⟩ := downstream?_eq_some.1 (controller?_eq_some.1 hc')
    have hnumbered : (c'.kind.family, c'.id) ∈ (rootPort port).numbered := by
      simp [numbered, hport, Downstream.family, Downstream.id]
    rwa [Controller.title_injective htitle] at hnumbered

end TopLevel

namespace Topology

/-- How many devices are attached to a resource. -/
def attachedTo (t : Topology) (resource : String) : Nat :=
  (t.devices.flatMap TopLevel.resources).count resource

variable {t : Topology}

theorem attachedTo_of_count {α : Type} {resource : String} {f : TopLevel → Option α}
    (h : ∀ d : TopLevel, d.resources.count resource = (f d).toList.length) (t : Topology) :
    t.attachedTo resource = (t.devices.filterMap f).length := by
  calc t.attachedTo resource
      = (t.devices.map fun d => d.resources.count resource).sum := List.count_flatMap
    _ = (t.devices.map fun d => (f d).toList.length).sum := by simp only [h]
    _ = (t.devices.flatMap fun d => (f d).toList).length := List.length_flatMap.symm
    _ = (t.devices.filterMap f).length := by rw [List.filterMap_eq_flatMap_toList]

theorem InOrder.attachedTo_complex (ht : t.InOrder) :
    t.attachedTo "PCI Express root complex" = t.functions := by
  rw [attachedTo_of_count TopLevel.count_complex, ht.addresses, List.length_map, List.length_range]

theorem InOrder.attachedTo_sata (ht : t.InOrder) : t.attachedTo "SATA controller" = t.sata := by
  rw [attachedTo_of_count TopLevel.count_sata, ht.cdroms, List.length_map, List.length_range]

theorem InOrder.attachedTo_controller (ht : t.InOrder) {c : Controller} (hc : c ∈ t.controllers) :
    t.attachedTo c.title = c.endpoints.length := by
  obtain ⟨port, hport, hdown⟩ := mem_controllers.1 hc
  obtain ⟨before, after, hsplit⟩ := List.append_of_mem hport
  -- No other device is numbered as this controller is, so that none has its title.
  have hnodup : ((c.kind.family, c.id) ::
      (before.flatMap TopLevel.numbered ++ after.flatMap TopLevel.numbered)).Nodup := by
    have hids := ht.ids.nodup
    rw [numbered, hsplit, List.flatMap_append, List.flatMap_cons] at hids
    simpa [TopLevel.numbered, hdown, Downstream.family, Downstream.id, List.nodup_middle] using hids
  have hfree {ds : List TopLevel} (h : (c.kind.family, c.id) ∉ ds.flatMap TopLevel.numbered) :
      (ds.flatMap TopLevel.resources).count c.title = 0 := by
    refine List.count_eq_zero.2 fun hmem => h ?_
    obtain ⟨d, hd, htitle⟩ := List.mem_flatMap.1 hmem
    exact List.mem_flatMap.2 ⟨d, hd, TopLevel.numbered_of_title_mem htitle⟩
  have hself : (TopLevel.rootPort port).resources.count c.title = c.endpoints.length := by
    have hcontroller : (TopLevel.rootPort port).controller? = some c :=
      TopLevel.controller?_eq_some.2 hdown
    simp [TopLevel.resources, TopLevel.address?, TopLevel.cdromBus?, hcontroller,
      c.title_ne_complex.symm]
  obtain ⟨hbefore, hafter⟩ := not_or.1 (mt List.mem_append.2 (List.nodup_cons.1 hnodup).1)
  rw [attachedTo, hsplit, List.flatMap_append, List.flatMap_cons, List.count_append,
    List.count_append, hfree hbefore, hfree hafter, hself]
  omega

/-- A refusal for want of room counts what there is, and there is as much as fits. -/
theorem InOrder.refusal_counts (ht : t.InOrder) {resource : String} {limit count : Nat}
    (h : t.Refusal (.capacity resource limit count)) :
    count = limit ∧ count = t.attachedTo resource := by
  cases h with
  | complexFull hfull => exact ⟨Nat.le_antisymm ht.functions hfull, ht.attachedTo_complex.symm⟩
  | sataFull hfull => exact ⟨Nat.le_antisymm ht.sata hfull, ht.attachedTo_sata.symm⟩
  | @controllerFull c hc hfull =>
    obtain ⟨port, hport, hdown⟩ := mem_controllers.1 hc
    have hroom : c.endpoints.length ≤ c.kind.capacity :=
      ((ht.ports port hport).controller c hdown).room
    exact ⟨Nat.le_antisymm hroom hfull, (ht.attachedTo_controller hc).symm⟩

end Topology

namespace DeviceTree

/-- A refused step changes nothing; if it is for want of room, the count that it tells is the limit,
and that many devices are attached. -/
theorem refused_unchanged {steps : List TreeStep} {step : TreeStep} {e : Error}
    {t : DeviceTree} (h : step.edit (run {} steps) = .error e t) : t = run {} steps ∧
    ∀ resource limit count, e = .capacity resource limit count →
      count = limit ∧ count = (run {} steps).topology.attachedTo resource := by
  obtain ⟨hsame, hrefused⟩ := (step.meets (run {} steps)).error h
  refine ⟨hsame, ?_⟩
  rintro resource limit count rfl
  exact (run_inOrder steps).refusal_counts hrefused

/-- A USB controller with its 15 ports in use. -/
theorem full_usb_unchanged :
    let steps : List TreeStep := .usbController :: List.replicate 15 (.addEndpoint ⟨0⟩ .usbTablet)
    (TreeStep.addEndpoint ⟨0⟩ .usbTablet).edit (run {} steps) =
        .error (.capacity "USB controller usb.0" 15 15) (run {} steps) ∧
      15 = (run {} steps).topology.attachedTo "USB controller usb.0" := by
  intro steps
  have hrefused : (TreeStep.addEndpoint ⟨0⟩ .usbTablet).edit (run {} steps) =
      .error (.capacity "USB controller usb.0" 15 15) (run {} steps) := by decide +kernel
  exact ⟨hrefused, ((refused_unchanged hrefused).2 _ _ _ rfl).2⟩

end DeviceTree

end GuestCompiler
