import GuestCompiler.Proofs.CarriedBuild

/-!
# Refused volumes

A volume is attached in several steps, of which the last one, its device, is refused where there is
no room for it. What the steps before it did stays: block nodes, the first thread and a boot
position. The devices and the controllers that they share are as they were, with no port and no
controller made in vain, because a controller that has just been made has room
(`Attachment.apply_refused`).
-/
namespace GuestCompiler

open Edit

namespace Registry

variable {α : Type}

/-- More entries behind those that are there, which are found as before. -/
structure Extends (r : Registry α) (more : List α) (r' : Registry α) : Prop where
  label : r'.label = r.label
  entries : r'.entries = r.entries ++ more
  found : ∀ name entry, r.find? name = some entry → r'.find? name = some entry

theorem Extends.refl (r : Registry α) : r.Extends [] r := ⟨rfl, by simp, fun _ _ => id⟩

theorem Extends.trans {r r₁ r₂ : Registry α} {more next : List α} (h : r.Extends more r₁)
    (h' : r₁.Extends next r₂) : r.Extends (more ++ next) r₂ where
  label := h'.label.trans h.label
  entries := by rw [h'.entries, h.entries, List.append_assoc]
  found name entry hfound := h'.found name entry (h.found name entry hfound)

variable [Named α]

/-- An entry of a new name takes nothing away. -/
theorem extends_insert {r : Registry α} {entry : α} (hnew : r.contains (Named.name entry) = false) :
    r.Extends [entry] (r.insert entry) where
  label := rfl
  entries := rfl
  found name other hfound := by
    obtain ⟨position, hindex, hother⟩ := find?_eq_some.1 hfound
    have hne : name ≠ Named.name entry := by
      rintro rfl
      rw [contains, NameMap.contains, hindex] at hnew
      cases hnew
    refine find?_eq_some.2 ⟨position, ?_, ?_⟩
    · rw [insert, NameMap.get?_insert, if_neg hne, hindex]
    · rw [insert, List.getElem?_append_left (List.getElem?_eq_some_iff.1 hother).1, hother]

theorem add_extends (entry : α) (r : Registry α) : Meets (add entry) r
    (fun _ r' => r.Extends [entry] r') (fun _ r' => r' = r) := by
  unfold Meets add
  by_cases hname : Named.name entry = ""
  · rw [if_pos hname]
  · rw [if_neg hname]
    by_cases hold : r.contains (Named.name entry) = true
    · rw [if_pos hold]
    · rw [if_neg hold]
      exact extends_insert (Bool.eq_false_iff.2 hold)

end Registry

theorem BlockGraph.add_extends (node : BlockNode) (g : BlockGraph) : Meets (add node) g
    (fun _ g' => g.Extends [node] g') (fun _ g' => g' = g) := by
  have hadd := Registry.add_extends node g
  cases hback : node.backing? with
  | none => exact .congr (by simp only [add, hback]) hadd
  | some backing =>
    by_cases hold : g.contains backing = true
    · exact .congr (by simp only [add, hback, hold, if_true]) hadd
    · simp only [Meets, add, hback, hold]
      rfl

/-- Resources with no more than some nodes, the first ones of a list, and a first thread. -/
structure Resources.Leftover (r : Resources) (nodes : List BlockNode) (r' : Resources) : Prop where
  blocks : ∃ added, added <+: nodes ∧ r.blocks.Extends added r'.blocks
  threads : r'.threads = r.threads ∨ r.threads = [] ∧ ∃ thread, r'.threads = [thread]
  charDevices : r'.charDevices = r.charDevices
  tpmDevices : r'.tpmDevices = r.tpmDevices
  taps : r'.taps = r.taps

namespace Target

/-- A target that has the settings and the devices of another one, and no more resources and boot
positions than the attachment of one volume takes. -/
structure Leftover (t : Target) (nodes : List BlockNode) (bootable : Bool) (t' : Target) :
    Prop where
  settings : t'.settings = t.settings
  tree : t'.tree = t.tree
  resources : t.resources.Leftover nodes t'.resources
  bootOrder : t'.bootOrder = t.bootOrder ∨
    bootable = true ∧ t'.bootOrder.used = t.bootOrder.used + 1

variable {t t₁ t₂ : Target} {nodes : List BlockNode} {bootable : Bool}

theorem Leftover.refl (t : Target) (nodes : List BlockNode) (bootable : Bool) :
    t.Leftover nodes bootable t where
  settings := rfl
  tree := rfl
  resources := ⟨⟨[], List.nil_prefix, .refl _⟩, .inl rfl, rfl, rfl, rfl⟩
  bootOrder := .inl rfl

/-- After the nodes, the thread and the boot position. -/
theorem Leftover.trans (h : t.Leftover nodes false t₁) (h' : t₁.Leftover [] bootable t₂) :
    t.Leftover nodes bootable t₂ where
  settings := h'.settings.trans h.settings
  tree := h'.tree.trans h.tree
  resources := {
    blocks := by
      obtain ⟨added, hfront, hadded⟩ := h.resources.blocks
      obtain ⟨none, hnone, hsame⟩ := h'.resources.blocks
      rw [List.prefix_nil.1 hnone] at hsame
      exact ⟨added, hfront, by simpa using hadded.trans hsame⟩
    threads := by
      rcases h'.resources.threads with hsame | ⟨hnil, hfirst⟩
      · rw [hsame]
        exact h.resources.threads
      · -- A first thread comes only where none came before.
        rcases h.resources.threads with hsame | ⟨-, thread, hthread⟩
        · exact .inr ⟨hsame ▸ hnil, hfirst⟩
        · exact nomatch hthread.symm.trans hnil
    charDevices := h'.resources.charDevices.trans h.resources.charDevices
    tpmDevices := h'.resources.tpmDevices.trans h.resources.tpmDevices
    taps := h'.resources.taps.trans h.resources.taps }
  bootOrder := by
    have hsame : t₁.bootOrder = t.bootOrder :=
      h.bootOrder.resolve_right fun hlater => Bool.false_ne_true hlater.1
    exact hsame ▸ h'.bootOrder

section Steps

theorem thread_leftover (t : Target) :
    Meets thread t (fun _ t' => t.Leftover [] false t') (fun _ _ => False) := by
  have hstart := Leftover.refl t [] false
  cases hlast : t.resources.threads.getLast? with
  | some last =>
    have hedit : thread t = .ok last t := by
      simp only [thread, onResources, within, Resources.sharedThread, hlast]
    rw [Meets, hedit]
    exact hstart
  | none =>
    have hnil : t.resources.threads = [] := List.getLast?_eq_none_iff.1 hlast
    have hedit : thread t =
        .ok ⟨0⟩ { t with resources := { t.resources with threads := [⟨0⟩] } } := by
      simp [thread, onResources, within, Resources.sharedThread, Resources.addThread, hnil]
    rw [Meets, hedit]
    exact { hstart with resources := { hstart.resources with threads := .inr ⟨hnil, ⟨0⟩, rfl⟩ } }

theorem bootIndex_leftover (t : Target) (bootable : Bool) :
    Meets (bootIndex bootable) t (fun _ t' => t.Leftover [] bootable t') (fun _ _ => False) := by
  cases bootable with
  | true =>
    refine meets_map.2 ?_
    exact { Leftover.refl t [] true with bootOrder := .inr ⟨rfl, rfl⟩ }
  | false => exact .refl t [] false

theorem addBlock_leftover (node : BlockNode) (t : Target) :
    Meets (onResources (Resources.addBlock node)) t
      (fun _ t' => ∃ blocks, t.resources.blocks.Extends [node] blocks ∧
        t' = { t with resources := { t.resources with blocks := blocks } })
      (fun _ t' => t' = t) := by
  refine meets_within.2 (meets_within.2 ((BlockGraph.add_extends node _).mono ?_ ?_))
  · exact fun _ blocks hblocks => ⟨blocks, hblocks, rfl⟩
  · rintro _ blocks rfl
    rfl

/-- The nodes are added in order: all of them, or the first ones where the next one is refused. -/
theorem addNodes_extends (nodes : List BlockNode) (t : Target) :
    Meets (nodes.forM fun node => do let _ ← onResources (Resources.addBlock node)) t
      (fun _ t' => ∃ blocks, t.resources.blocks.Extends nodes blocks ∧
        t' = { t with resources := { t.resources with blocks := blocks } })
      (fun _ t' => ∃ done blocks, done <+: nodes ∧ t.resources.blocks.Extends done blocks ∧
        t' = { t with resources := { t.resources with blocks := blocks } }) := by
  apply Meets.forM (fun (done : List BlockNode) (t' : Target) => ∃ blocks,
    t.resources.blocks.Extends done blocks ∧
      t' = { t with resources := { t.resources with blocks := blocks } })
  · exact ⟨t.resources.blocks, .refl _, rfl⟩
  · intro done node t₁ hfront hdone
    obtain ⟨blocks, hblocks, rfl⟩ := hdone
    have hnode := addBlock_leftover node
      { t with resources := { t.resources with blocks := blocks } }
    apply Meets.bind (hnode.mono (fun _ _ => id) ?_)
    · intro _ t₂ hnext
      obtain ⟨blocks₂, hblocks₂, rfl⟩ := hnext
      exact ⟨blocks₂, hblocks.trans hblocks₂, rfl⟩
    · intro _ t₂ hsame
      have hshort : done <+: nodes := (List.prefix_append done [node]).trans hfront
      exact ⟨done, blocks, hshort, hblocks, hsame⟩

theorem addNodes_leftover (nodes : List BlockNode) (t : Target) :
    Meets (nodes.forM fun node => do let _ ← onResources (Resources.addBlock node)) t
      (fun _ t' => t.Leftover nodes false t') (fun _ t' => t.Leftover nodes false t') := by
  have hleftover {done : List BlockNode} {blocks : BlockGraph} (hfront : done <+: nodes)
      (hblocks : t.resources.blocks.Extends done blocks) : t.Leftover nodes false
        { t with resources := { t.resources with blocks := blocks } } :=
    ⟨rfl, rfl, ⟨⟨done, hfront, hblocks⟩, .inl rfl, rfl, rfl, rfl⟩, .inl rfl⟩
  apply (addNodes_extends nodes t).mono
  · intro _ t' hall
    obtain ⟨blocks, hblocks, rfl⟩ := hall
    exact hleftover (List.prefix_refl nodes) hblocks
  · intro _ t' hfirst
    obtain ⟨done, blocks, hfront, hblocks, rfl⟩ := hfirst
    exact hleftover hfront hblocks

end Steps

end Target

section Devices

theorem Topology.attachEndpoint_atomic (ref : ControllerRef) (family : String)
    (make : Nat → Endpoint) : Atomic (onController ref (Controller.attach family make)) := by
  intro t
  cases hc : t.controller? ref with
  | error e =>
    simp only [Meets, onController, hc]
  | ok c =>
    have hmeets := Controller.meets_attach family make c
    simp only [Meets, onController, hc]
    cases hrun : Controller.attach family make c with
    | ok id c' => trivial
    | error e c' =>
      rw [(hmeets.error hrun).1]
      exact setDownstream_self hc

/-- A shared controller is not made where its first endpoint is refused. -/
theorem DeviceTree.share_atomic (kind : ControllerKind) (make : Nat → Endpoint) :
    Atomic (share kind make) := by
  intro t
  cases href : t.shared? kind with
  | none => exact (meets_share_first href).mono (fun _ _ _ => trivial) fun _ _ h => h.1
  | some ref =>
    refine Atomic.after (meets_sharedController_next href) ?_
    exact .within (fun _ => rfl) (Topology.attachEndpoint_atomic ref _ make)

/-- Nor is a port where what is to come behind it is refused. -/
theorem DeviceTree.attachNew_atomic (family : String) (make : String → String → Downstream) :
    Atomic (onTopology do Topology.attach (← Topology.addRoot) family make) :=
  .within (fun _ => rfl) (Meets.atomic (Topology.meets_attachNew family make))

theorem DeviceTree.addCdrom_atomic (drive : String) (bootIndex : Option Nat) :
    Atomic (onTopology (Topology.addCdrom drive bootIndex)) :=
  .within (fun _ => rfl) (Meets.atomic (Topology.meets_addCdrom drive bootIndex))

end Devices

namespace Target

variable {t : Target} {bootable : Bool} {α : Type}

/-- The device is the last thing to come, after its boot position. -/
theorem unserved_leftover {device : Option Nat → Edit Error DeviceTree α}
    (hdevice : ∀ bootIndex, Atomic (device bootIndex)) (t : Target) (bootable : Bool) :
    Meets (do
      let bootIndex ← bootIndex bootable
      onTree (device bootIndex)) t (fun _ _ => True) (fun _ t' => t.Leftover [] bootable t') := by
  refine ((bootIndex_leftover t bootable).mono (fun _ _ => id) fun _ _ => False.elim).bind ?_
  intro bootIndex t₁ h₁
  refine (Atomic.within (fun _ => rfl) (hdevice bootIndex) t₁).mono (fun _ _ => id) ?_
  rintro _ _ rfl
  exact h₁

theorem served_leftover {device : IoThread → Option Nat → Edit Error DeviceTree α}
    (hdevice : ∀ thread bootIndex, Atomic (device thread bootIndex)) (t : Target)
    (bootable : Bool) : Meets (do
      let thread ← thread
      let bootIndex ← bootIndex bootable
      onTree (device thread bootIndex)) t
        (fun _ _ => True) (fun _ t' => t.Leftover [] bootable t') := by
  refine ((thread_leftover t).mono (fun _ _ => id) fun _ _ => False.elim).bind ?_
  intro thread t₁ h₁
  exact (unserved_leftover (hdevice thread) t₁ bootable).mono (fun _ _ => id)
    fun _ _ h => h₁.trans h

end Target

theorem Drive.device_atomic (d : Drive) (p : PlacedVolume) (node : String) (thread : IoThread)
    (bootIndex : Option Nat) : Atomic (d.device p node thread bootIndex) := by
  cases d with
  | scsiDisk | scsiCd => exact DeviceTree.share_atomic (.scsi thread) _
  | blockDisk => exact DeviceTree.attachNew_atomic _ _
  | sataCd => exact DeviceTree.addCdrom_atomic _ _
  | usbDisk => exact DeviceTree.share_atomic .usb _

theorem Drive.attach_leftover (d : Drive) (p : PlacedVolume) (node : String) (t : Target) :
    Meets (d.attach p node) t (fun _ _ => True)
      (fun _ t' => t.Leftover [] p.volume.bootable t') := by
  cases hd : d.isThreaded with
  | true =>
    rw [attach_served hd]
    exact Target.served_leftover (fun thread _ => d.device_atomic p node thread _) t _
  | false =>
    rw [attach_unserved hd p node ⟨0⟩]
    exact Target.unserved_leftover (fun _ => d.device_atomic p node ⟨0⟩ _) t _

/-- A volume that is refused leaves no more than its first nodes, a first thread and a boot
position, whatever has been done to the target before. -/
theorem Attachment.apply_refused {a : Attachment} {p : PlacedVolume} {t t' : Target} {e : Error}
    (h : a.apply p t = .error e t') : t.Leftover (a.nodes p) p.volume.bootable t' := by
  have hmeets : Meets (a.apply p) t (fun _ _ => True)
      (fun _ t' => t.Leftover (a.nodes p) p.volume.bootable t') := by
    refine Meets.bind ((Target.addNodes_leftover (a.nodes p) t).mono (fun _ _ => id) ?_) ?_
    · exact fun _ _ hnodes => hnodes.trans (.refl _ _ _)
    · intro _ t₁ hnodes
      cases a.drive? with
      | none => trivial
      | some d =>
        refine Meets.bind ((d.attach_leftover p (a.nodeName p) t₁).mono (fun _ _ => id) ?_)
          fun _ _ _ => trivial
        exact fun _ _ hdrive => hnodes.trans hdrive
  exact hmeets.error h

namespace Sample

/-- A CD-ROM that a guest can be booted from, on a port of the SATA controller. -/
def bootCdrom (n : Nat) : PlacedVolume where
  machine := desktop.info
  volume := { name := "setup" ++ toString n, storage := "media", bootable := true }
  pool := { path := ⟨"/media"⟩, kind := "iso-ahci", readOnly := true }

/-- A target with a CD-ROM on every port. -/
def crowded : Target :=
  (List.range 6).foldl (fun t n => Edit.state (Attachment.isoAhci.apply (bootCdrom n) t)) {}

theorem crowded_refuses : ∃ t', Attachment.isoAhci.apply (bootCdrom 6) crowded =
      .error (.capacity "SATA controller" 6 6) t' ∧
    crowded.Leftover (Attachment.isoAhci.nodes (bootCdrom 6)) true t' := by
  have hrefused : Edit.answer (Attachment.isoAhci.apply (bootCdrom 6) crowded) =
      .error (.capacity "SATA controller" 6 6) := by
    decide +kernel
  cases hrun : Attachment.isoAhci.apply (bootCdrom 6) crowded with
  | ok _ _ =>
    rw [hrun] at hrefused
    cases hrefused
  | error e t' =>
    rw [hrun] at hrefused
    obtain rfl := Except.error.inj hrefused
    exact ⟨t', rfl, Attachment.apply_refused hrun⟩

end Sample

end GuestCompiler
