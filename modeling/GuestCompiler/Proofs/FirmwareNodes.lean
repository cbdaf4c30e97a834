import GuestCompiler.Proofs.NodeNames
import GuestCompiler.Proofs.References

/-!
# Firmware and its nodes

The machine refers to its firmware by the names that the volumes' nodes go by. Only a volume in a
pool of the security module's kind is not attached as a node; the reference to it is to nothing,
unless another volume's node happens to have the name.
-/
namespace GuestCompiler

namespace CommandOption

/-- What a parameter of an option is set to, wherever it is set. -/
def values (o : CommandOption) (name : String) : List String :=
  (o.parameters.filter (·.name == name)).map (·.value)

/-- What the machine refers to as one of its flash devices. -/
def flash (os : List CommandOption) (device : String) : List String :=
  (os.filter (·.kind == "machine")).flatMap (·.values device)

/-- Every flash device of the machine is a block node. -/
def FlashEmitted (os : List CommandOption) : Prop :=
  ∀ name ∈ flash os "pflash0" ++ flash os "pflash1",
    ∃ o ∈ os, o.has "blockdev" "node-name" name = true

end CommandOption

open CommandOption

namespace Guest.Settings

theorem filter_machine (s : Settings) : s.options.filter (·.kind == "machine") =
    [⟨"machine", ⟨"type", "q35"⟩ :: (s.spice.machineParameters ++ s.firmware.parameters)⟩] := by
  simp [options, Identity.options, unlessEmpty, memoryOptions, filter_ite, List.filter_map,
    Function.comp_def]

end Guest.Settings

namespace Target

variable {t : Target}

/-- Only the settings say what the machine refers to. -/
theorem flash_options (t : Target) (device : String) : flash t.options device =
    CommandOption.values ⟨"machine", ⟨"type", "q35"⟩ ::
      (t.settings.spice.machineParameters ++ t.settings.firmware.parameters)⟩ device := by
  rw [flash, filter_options_settings t (by decide), Guest.Settings.filter_machine,
    List.flatMap_singleton]

section Flash

variable {code : String} (h : t.settings.firmware.code = some code)
include h

theorem flash_code : flash t.options "pflash0" = [code] := by
  rw [flash_options]
  cases hspice : t.settings.spice.enabled <;> cases hvars : t.settings.firmware.vars <;>
    simp [CommandOption.values, Guest.Spice.machineParameters, Guest.Firmware.parameters,
      Parameter.given, h, hspice, hvars]

theorem flash_vars : flash t.options "pflash1" = t.settings.firmware.vars.toList := by
  rw [flash_options]
  cases hspice : t.settings.spice.enabled <;> cases hvars : t.settings.firmware.vars <;>
    simp [CommandOption.values, Guest.Spice.machineParameters, Guest.Firmware.parameters,
      Parameter.given, h, hspice, hvars]

end Flash

theorem exists_blockdev_iff {name : String} :
    (∃ o ∈ t.options, o.has "blockdev" "node-name" name = true) ↔
      name ∈ t.resources.blocks.names := by
  constructor
  · rintro ⟨o, ho, hhas⟩
    obtain ⟨hkind, hname⟩ := has_iff.1 hhas
    obtain ⟨node, hnode, hps⟩ := List.mem_map.1 (mem_section t.block_mem_sections ho hkind)
    exact List.mem_map.2 ⟨node, hnode, BlockNode.mem_parameters_nodeName.1 (hps ▸ hname)⟩
  · intro hname
    obtain ⟨node, hnode, rfl⟩ := List.mem_map.1 hname
    have hmem := mem_options t.block_mem_sections (List.mem_map.2 ⟨node, hnode, rfl⟩)
    exact ⟨_, hmem, has_iff.2 ⟨rfl, BlockNode.mem_parameters_nodeName.2 rfl⟩⟩

end Target

/-- The machine refers to its firmware by the names derived for the volumes, and to nothing else. -/
structure FlashNamed (machine : MachineInfo) (pools : NameMap Pool) (f : Firmware)
    (os : List CommandOption) : Prop where
  code : (flash os "pflash0").map some = [f.code.nodeName? machine pools]
  vars : (flash os "pflash1").map some =
    if f.vars.isEmpty then [] else [f.vars.nodeName? machine pools]

namespace Volume

variable {machine : MachineInfo} {pools : NameMap Pool} {v : Volume}

theorem isSome_nodeName? (h : (v.placed? machine pools).isSome = true) :
    ∃ name, v.nodeName? machine pools = some name := by
  obtain ⟨x, hx⟩ := Option.isSome_iff_exists.1 h
  exact ⟨x.1.nodeName x.2, by simp [nodeName?, hx]⟩

/-- A volume that the security module's software opens. -/
def IsTpmData (pools : NameMap Pool) (v : Volume) : Prop :=
  ∃ pool, pools.get? v.storage = some pool ∧ pool.kind = "tpm-data"

theorem isTpmData_iff {a : Attachment} {p : PlacedVolume}
    (h : v.placed? machine pools = some (a, p)) : v.IsTpmData pools ↔ a = .tpmData := by
  obtain ⟨pool, hpool, ha, -⟩ := placed?_eq_some.1 h
  constructor
  · rintro ⟨pool', hpool', hkind⟩
    cases hpool.symm.trans hpool'
    rw [hkind] at ha
    exact (Option.some.inj ha).symm
  · rintro rfl
    refine ⟨pool, hpool, ?_⟩
    unfold Attachment.ofKind? at ha
    repeat' split at ha
    all_goals first | assumption | exact nomatch ha

/-- The node that references name is there, but for volumes of the security module. -/
theorem nodeName?_mem_nodeNames {name : String} (hdata : ¬ v.IsTpmData pools)
    (h : v.nodeName? machine pools = some name) : name ∈ v.nodeNames machine pools := by
  obtain ⟨⟨a, p⟩, hplaced, rfl⟩ := Option.map_eq_some_iff.1 h
  have ha : a ≠ .tpmData := fun ha => hdata ((isTpmData_iff hplaced).2 ha)
  obtain ⟨node, hnode, hname⟩ := Attachment.exists_node ha p
  have hnodes : v.blockNodes machine pools = a.nodes p := by simp [blockNodes, hplaced]
  exact List.mem_map.2 ⟨node, hnodes ▸ hnode, hname⟩

end Volume

namespace Machine

variable {m : Machine} {catalog : Catalog} {locations : Locations} {d : Definition} {t : Target}

theorem flashNamed_of_build (hd : m.resolve catalog = .ok d)
    (h : m.build catalog locations = .ok t) (hcode : d.attributes.firmware.code.isEmpty = false) :
    FlashNamed m.info catalog.pools d.attributes.firmware t.options := by
  obtain ⟨hflash, -, -, hplaced⟩ := blockNodes_of_build hd h
  have hplaced' {v : Volume} (hv : v ∈ d.attributes.firmware.used) :
      ∃ name, v.nodeName? m.info catalog.pools = some name :=
    Volume.isSome_nodeName? (hplaced v (List.mem_append_left _ hv))
  obtain ⟨code, hname⟩ := hplaced' (v := d.attributes.firmware.code)
    (by simp [Firmware.used, hcode])
  have hfirmware : t.settings.firmware.code = some code := by
    simp [hflash, Firmware.flash, hcode, hname]
  refine ⟨?_, ?_⟩
  · rw [Target.flash_code hfirmware, hname]
    rfl
  · rw [Target.flash_vars hfirmware, hflash]
    by_cases hvars : d.attributes.firmware.vars.isEmpty = true
    · simp [Firmware.flash, hcode, hvars]
    · obtain ⟨vars, hvarsName⟩ := hplaced' (v := d.attributes.firmware.vars)
        (by simp [Firmware.used, hcode, hvars])
      simp [Firmware.flash, hcode, hvars, hvarsName]

end Machine

/-- Together, the flash devices are the volumes of the firmware in their order. -/
theorem FlashNamed.mem_iff {machine : MachineInfo} {pools : NameMap Pool} {f : Firmware}
    {os : List CommandOption} (h : FlashNamed machine pools f os) (hcode : f.code.isEmpty = false)
    {name : String} : name ∈ flash os "pflash0" ++ flash os "pflash1" ↔
      ∃ v ∈ f.used, v.nodeName? machine pools = some name := by
  have hall : (flash os "pflash0" ++ flash os "pflash1").map some =
      f.used.map (Volume.nodeName? machine pools) := by
    rw [List.map_append, h.code, h.vars, Firmware.used, hcode]
    cases f.vars.isEmpty <;> rfl
  rw [← List.mem_map, ← hall, List.mem_map]
  constructor
  · intro hmem
    exact ⟨name, hmem, rfl⟩
  · rintro ⟨other, hmem, heq⟩
    cases heq
    exact hmem

namespace Machine

variable {m : Machine} {catalog : Catalog} {locations : Locations} {d : Definition} {t : Target}

/-- Whatever the machine refers to as firmware is emitted as a block node, unless it is a volume for
the security module; such a reference is to a node only where some volume's node has its name. -/
theorem build_flash (hd : m.resolve catalog = .ok d) (h : m.build catalog locations = .ok t)
    (hcode : d.attributes.firmware.code.isEmpty = false) :
    FlashNamed m.info catalog.pools d.attributes.firmware t.options ∧
      (FlashEmitted t.options ↔ ∀ v ∈ d.attributes.firmware.used, v.IsTpmData catalog.pools →
        ∃ w ∈ d.attached, ∃ name ∈ w.nodeNames m.info catalog.pools,
          v.nodeName? m.info catalog.pools = some name) := by
  have hnamed := flashNamed_of_build hd h hcode
  obtain ⟨-, hentries, -, hplaced⟩ := blockNodes_of_build hd h
  have hnames : t.resources.blocks.names =
      d.attached.flatMap (Volume.nodeNames m.info catalog.pools) := by
    rw [← Definition.names_blockNodes, ← hentries]
    rfl
  have hattached {v : Volume} (hv : v ∈ d.attributes.firmware.used) : v ∈ d.attached :=
    List.mem_append_left _ hv
  simp only [FlashEmitted, hnamed.mem_iff hcode, Target.exists_blockdev_iff, hnames,
    List.mem_flatMap]
  refine ⟨hnamed, fun hall v hv _ => ?_, ?_⟩
  · obtain ⟨name, hname⟩ := Volume.isSome_nodeName? (hplaced v (hattached hv))
    obtain ⟨w, hw, hmem⟩ := hall name ⟨v, hv, hname⟩
    exact ⟨w, hw, name, hmem, hname⟩
  · rintro hall name ⟨v, hv, hname⟩
    -- Only a volume for the security module needs another volume's node.
    by_cases hdata : v.IsTpmData catalog.pools
    · obtain ⟨w, hw, name', hmem, hname'⟩ := hall v hv hdata
      cases hname.symm.trans hname'
      exact ⟨w, hw, hmem⟩
    · exact ⟨v, hattached hv, Volume.nodeName?_mem_nodeNames hdata hname⟩

end Machine

namespace Sample

/-- The firmware is kept where the security module's volumes are. -/
def misplaced : Machine where
  name := "desk"
  definition := {
    attributes := { firmware := { code := { name := "ovmf", storage := "secrets" } } } }

/-- The machine is built all the same, and refers to a node that is not there. -/
theorem misplaced_not_emitted : ∃ d t, misplaced.resolve host = .ok d ∧
    d.attributes.firmware.code.isEmpty = false ∧ misplaced.build host {} = .ok t ∧
    ¬ FlashEmitted t.options := by
  have hcode : (misplaced.resolve host).toOption.any
      (fun d => !d.attributes.firmware.code.isEmpty) = true := by decide +kernel
  have hmissing : (misplaced.build host {}).toOption.any (fun t =>
      (flash t.options "pflash0").any fun name =>
        t.options.all fun o => !o.has "blockdev" "node-name" name) = true := by decide +kernel
  obtain ⟨d, hd, hcode⟩ := exists_of_any hcode
  obtain ⟨t, ht, hmissing⟩ := exists_of_any hmissing
  refine ⟨d, t, hd, by simpa using hcode, ht, fun hall => ?_⟩
  obtain ⟨name, hname, hnone⟩ := List.any_eq_true.1 hmissing
  obtain ⟨o, ho, hhas⟩ := hall name (List.mem_append_left _ hname)
  have hnot := List.all_eq_true.1 hnone o ho
  rw [hhas] at hnot
  exact nomatch hnot

theorem desktop_flash : ∃ d t, desktop.resolve host = .ok d ∧ desktop.build host {} = .ok t ∧
    FlashNamed desktop.info host.pools d.attributes.firmware t.options ∧
    FlashEmitted t.options := by
  have hfirmware : (desktop.resolve host).toOption.any (fun d =>
      decide (d.attributes.firmware.code.isEmpty = false ∧
        d.attributes.firmware.used.map Volume.storage = ["firmware"])) = true := by decide +kernel
  have hkind : (host.pools.get? "firmware").map Pool.kind = some "firmware" := by decide +kernel
  obtain ⟨d, hd, hdec⟩ := exists_of_any hfirmware
  obtain ⟨hcode, hstorage⟩ := of_decide_eq_true hdec
  obtain ⟨t, ht⟩ := exists_build_desktop
  obtain ⟨hnamed, hiff⟩ := Machine.build_flash hd ht hcode
  refine ⟨d, t, hd, ht, hnamed, hiff.2 ?_⟩
  rintro v hv ⟨pool, hpool, hdata⟩
  have hv' : v.storage ∈ ["firmware"] := hstorage ▸ List.mem_map.2 ⟨v, hv, rfl⟩
  rw [List.mem_singleton.1 hv'] at hpool
  rw [hpool, Option.map_some, hdata] at hkind
  exact absurd hkind (by decide)

end Sample

end GuestCompiler
