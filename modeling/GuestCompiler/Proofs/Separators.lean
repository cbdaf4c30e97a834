import GuestCompiler.Proofs.BlockNodes
import GuestCompiler.Proofs.Merging
import GuestCompiler.Proofs.Identities
import GuestCompiler.Proofs.PlainTarget
import GuestCompiler.Proofs.WiringBuild

/-!
# Separators in the options of a build

The steps of a build, given texts without commas, keep the target plain. The parameters that a
build's options are written from are then read back from the text.
-/
namespace GuestCompiler

open Edit Parameter

namespace Target

theorem onSettings_plain {change : Guest.Settings → Guest.Settings}
    (h : ∀ s, s.Plain → (change s).Plain) : Stable Plain (onSettings change) :=
  .modify fun t ht => { ht with settings := h t.settings ht.settings }

theorem onResources_plain {α : Type} {answer : α → Prop} {edit : Edit Error Resources α}
    (h : Preserves Resources.Plain answer edit) : Preserves Plain answer (onResources edit) :=
  .within (fun _ ht => ht.resources) (fun _ _ ht hs => { ht with resources := hs }) h

theorem onTree_plain {α : Type} {edit : Edit Error DeviceTree α}
    (h : Stable DeviceTree.Plain edit) : Stable Plain (onTree edit) :=
  .within (fun _ ht => ht.topology) (fun _ _ ht hs => { ht with topology := hs }) h

theorem onTopology_plain {α : Type} {edit : Edit Error Topology α}
    (h : Stable Topology.Plain edit) : Stable Plain (onTopology edit) :=
  onTree_plain (DeviceTree.onTopology_plain h)

/-- An endpoint of a shared controller. -/
theorem onShared_plain {which : Edit Error DeviceTree ControllerRef}
    (hwhich : Stable DeviceTree.Plain which) {family : String}
    {make : Nat → Endpoint} (hmake : ∀ n, AllPlain (make n).ownParameters) :
    Stable Plain (onShared which (Controller.attach family make)) :=
  .bind (onTree_plain hwhich) fun c _ =>
    onTopology_plain (Topology.onController_plain c (Controller.attach_plain family hmake))

theorem thread_plain : Stable Plain thread :=
  onResources_plain Resources.sharedThread_plain

theorem bootIndex_plain (bootable : Bool) : Stable Plain (bootIndex bootable) := by
  cases bootable with
  | true => exact .map fun _ ht => ⟨{ ht with }, trivial⟩
  | false => exact .pure trivial

end Target

theorem Drive.attach_plain (d : Drive) {p : PlacedVolume} (hserial : NoComma p.volume.serial)
    {node : String} (hnode : NoComma node) : Stable Target.Plain (d.attach p node) := by
  have hgiven : ∀ s, p.serial? = some s → NoComma s := by
    intro s hs
    rw [PlacedVolume.serial?] at hs
    split at hs
    · exact nomatch hs
    · exact Option.some.inj hs ▸ hserial
  cases d with
  | scsiDisk =>
    refine .bind Target.thread_plain fun thread _ => .bind (Target.bootIndex_plain _) fun _ _ => ?_
    refine Target.onShared_plain (DeviceTree.scsiController_plain thread) fun n => ?_
    simpa (disch := decide) [Endpoint.ownParameters, Endpoint.scsiParameters, hnode,
      noComma_literal] using hgiven
  | blockDisk =>
    refine .bind Target.thread_plain fun thread _ => .bind (Target.bootIndex_plain _) fun _ _ => ?_
    refine .bind (Target.onTopology_plain Topology.addRoot_plain) fun root _ => ?_
    refine Target.onTopology_plain (Topology.attach_plain root (by decide) ?_)
    intro id port hid hport
    simpa (disch := decide) [Downstream.Plain, Downstream.parameters, hid, hport, hnode,
      noComma_literal] using hgiven
  | sataCd =>
    refine .bind (Target.bootIndex_plain _) fun _ _ => ?_
    exact Target.onTopology_plain (Topology.addCdrom_plain hnode _)
  | scsiCd =>
    refine .bind Target.thread_plain fun thread _ => .bind (Target.bootIndex_plain _) fun _ _ => ?_
    refine Target.onShared_plain (DeviceTree.scsiController_plain thread) fun n => ?_
    simp [Endpoint.ownParameters, Endpoint.scsiParameters, hnode]
  | usbDisk =>
    refine .bind (Target.bootIndex_plain _) fun _ _ => ?_
    refine Target.onShared_plain DeviceTree.usbController_plain fun n => ?_
    simp [Endpoint.ownParameters, hnode]

/-- What a volume is written with has no comma: its own texts, and those of its pool. -/
structure Volume.Plain (pools : NameMap Pool) (v : Volume) : Prop where
  name : NoComma v.name
  serial : NoComma v.serial
  path : ∀ pool, pools.get? v.storage = some pool → NoComma pool.path.text
  pattern : ∀ pool, pools.get? v.storage = some pool → NoComma pool.pattern

/-- What a connection is written with has no comma: its name, and its network's scripts. -/
structure Connection.Plain (networks : NameMap Network) (c : Connection) : Prop where
  name : NoComma c.name
  up : ∀ network, networks.get? c.network = some network → NoComma network.up
  down : ∀ network, networks.get? c.network = some network → NoComma network.down

structure Qmp.Plain (qmp : Qmp) : Prop where
  names : ∀ name ∈ qmp.sockets.names, NoComma name
  paths : ∀ path ∈ qmp.sockets.paths, NoComma path

structure Definition.Plain (catalog : Catalog) (d : Definition) : Prop where
  attached : ∀ v ∈ d.attached, v.Plain catalog.pools
  connections : ∀ c ∈ d.connections, c.Plain catalog.networks
  qmp : d.attributes.qmp.Plain

section Volumes

variable {machine : MachineInfo} {pools : NameMap Pool} {v : Volume} {a : Attachment}
  {p : PlacedVolume}

theorem Volume.Plain.nodeName (hv : v.Plain pools) (hmachine : NoComma machine.name)
    (hp : v.placed? machine pools = some (a, p)) : NoComma (a.nodeName p) := by
  obtain ⟨pool, -, -, rfl⟩ := Volume.placed?_eq_some.1 hp
  have hname := hv.name
  cases a <;> simp (disch := decide) [Attachment.nodeName, PlacedVolume.scopedName, hmachine, hname,
    noComma_literal]

theorem Volume.Plain.nodes (hv : v.Plain pools) (hmachine : NoComma machine.name)
    (hp : v.placed? machine pools = some (a, p)) : ∀ n ∈ a.nodes p, AllPlain n.parameters := by
  have hnode := hv.nodeName hmachine hp
  obtain ⟨pool, hpool, hkind, rfl⟩ := Volume.placed?_eq_some.1 hp
  have hpath := Pool.noComma_volumePath (hv.path pool hpool) (Attachment.noComma_kind hkind)
    (hv.pattern pool hpool) hmachine hv.name
  have hflags (f : NodeFlags) : AllPlain f.parameters := by
    cases hzeroes : f.detectZeroes <;>
      simp (disch := decide) [NodeFlags.parameters, hzeroes, noComma_literal]
  cases a <;> simp (disch := decide) [Attachment.nodes, BlockNode.parameters, BlockNode.driver,
    BlockNode.name, BlockNode.childName, PlacedVolume.path, hnode, hpath, hflags, noComma_literal]

theorem Volume.Plain.apply (hv : v.Plain pools) (hmachine : NoComma machine.name)
    (hp : v.placed? machine pools = some (a, p)) : Stable Target.Plain (a.apply p) := by
  have hnodes := hv.nodes hmachine hp
  have hnode := hv.nodeName hmachine hp
  obtain ⟨pool, -, -, rfl⟩ := Volume.placed?_eq_some.1 hp
  refine .bind (.forM fun node hmem => ?_) fun _ _ => ?_
  · exact .bind (Target.onResources_plain (Resources.addBlock_plain (hnodes node hmem)))
      fun _ _ => .pure trivial
  · cases a.drive? with
    | none => exact .pure trivial
    | some d => exact .bind (d.attach_plain hv.serial hnode) fun _ _ => .pure trivial

end Volumes

section Globals

variable {gs new : List Guest.Global} {g : Guest.Global}

theorem Guest.Global.add_plain (hgs : ∀ g ∈ gs, AllPlain g.parameters)
    (hg : AllPlain g.parameters) : ∀ g' ∈ add gs g, AllPlain g'.parameters := by
  rw [add]
  split
  · exact hgs
  · exact List.forall_mem_append.2 ⟨hgs, List.forall_mem_singleton.2 hg⟩

theorem Guest.Global.addAll_plain (hgs : ∀ g ∈ gs, AllPlain g.parameters)
    (hnew : ∀ g ∈ new, AllPlain g.parameters) : ∀ g ∈ new.foldl add gs, AllPlain g.parameters := by
  induction new generalizing gs with
  | nil => exact hgs
  | cons g new ih =>
    obtain ⟨hg, hrest⟩ := List.forall_mem_cons.1 hnew
    exact ih (add_plain hgs hg) hrest

end Globals

section CharDevices

theorem CharDevice.unixServer_plain {path : Path} (hpath : NoComma path.text) (index : Nat) :
    AllPlain (unixServer ("qmp." ++ toString index) path).parameters := by
  simp (disch := decide) [unixServer, parameters, backend, id, hpath, noComma_literal]

theorem CharDevice.tcpSocket_plain (port : Nat) :
    AllPlain (tcpSocket "guestagent" Build.loopback port).parameters := by
  simp (disch := decide) [parameters, backend, id, Build.loopback, noComma_literal]

theorem CharDevice.spiceChannel_plain {id channel : String} (hid : NoComma id)
    (hchannel : NoComma channel) : AllPlain (spiceChannel id channel).parameters := by
  simp (disch := decide) [parameters, backend, CharDevice.id, hid, hchannel, noComma_literal]

theorem CharDevice.unixSocket_plain {path : Path} (hpath : NoComma path.text) :
    AllPlain (unixSocket "tpm.0.socket" path false true).parameters := by
  simp (disch := decide) [parameters, backend, id, hpath, noComma_literal]

theorem Qmp.socketPaths_plain {machine : String} (hmachine : NoComma machine) {runDir : Path}
    (hrunDir : NoComma runDir.text) {qmp : Qmp} (hqmp : qmp.Plain) :
    ∀ path ∈ qmp.socketPaths runDir machine, NoComma path.text := by
  intro path hpath
  rw [Qmp.socketPaths, distinctBy_eq_firsts] at hpath
  rcases List.mem_append.1 ((firsts_sublist _ _).mem hpath) with hnamed | hverbatim
  · obtain ⟨name, hname, rfl⟩ := List.mem_map.1 hnamed
    have hsocket : NoComma name := by
      rcases List.mem_append.1 hname with hstandard | hown
      · have hall : ∀ name ∈ Qmp.standardSockets, NoComma name := by decide
        exact hall name hstandard
      · exact hqmp.names name hown
    refine Path.noComma_join hrunDir ?_
    simp (disch := decide) [hmachine, hsocket, noComma_literal]
  · obtain ⟨text, htext, rfl⟩ := List.mem_map.1 hverbatim
    exact hqmp.paths text htext

end CharDevices

section Steps

variable {machine : MachineInfo} (hmachine : NoComma machine.name) {catalog : Catalog}
  {locations : Locations} {d : Definition} (hd : d.Plain catalog)

include hmachine hd

theorem SettingStep.change_plain {s : SettingStep}
    (h : (BuildStep.setting s).Found machine catalog locations d) {now : Guest.Settings}
    (hnow : now.Plain) : (s.change now).Plain := by
  have hname {node : String} (hnode : ∃ v ∈ d.attached, ∃ a p,
      v.placed? machine catalog.pools = some (a, p) ∧ node = a.nodeName p) : NoComma node := by
    obtain ⟨v, hv, a, p, hp, rfl⟩ := hnode
    exact (hd.attached v hv).nodeName hmachine hp
  cases s with
  | clock => exact { hnow with }
  | identity m =>
    cases h
    exact { hnow with name := hmachine }
  | code node =>
    refine { hnow with code := ?_ }
    rintro node' ⟨⟩
    exact hname h
  | vars node =>
    refine { hnow with vars := ?_ }
    rintro node' ⟨⟩
    exact hname h
  | secureFlash =>
    refine { hnow with globals := Guest.Global.add_plain hnow.globals ?_ }
    simp (disch := decide) [Guest.Global.parameters, noComma_literal]
  | processor p => exact { hnow with }
  | memory ram => exact { hnow with }
  | display port =>
    have hglobals : ∀ g ∈ Build.displayGlobals, AllPlain g.parameters := by
      simp (disch := decide) [Build.displayGlobals, Guest.Global.parameters, noComma_literal]
    have haddress : NoComma Build.loopback := by decide
    exact { hnow with
      address := haddress
      globals := Guest.Global.addAll_plain hnow.globals hglobals }

/-- A step for what has no comma keeps the target plain. -/
theorem BuildStep.edit_plain (hrunDir : NoComma locations.runDir.text) {step : BuildStep}
    (h : step.Found machine catalog locations d) : Stable Target.Plain step.edit := by
  cases step with
  | missing e _ => exact .throw
  | setting s => exact Target.onSettings_plain fun _ hnow => s.change_plain hmachine hd h hnow
  | monitor path index =>
    have hpath := Qmp.socketPaths_plain hmachine hrunDir hd.qmp path h
    refine .bind (Target.onResources_plain (Resources.addCharDevice_plain
      (CharDevice.unixServer_plain hpath index))) fun id hid => ?_
    exact Target.onSettings_plain fun s hs => { hs with
      monitors := List.forall_mem_append.2 ⟨hs.monitors, List.forall_mem_singleton.2 hid⟩ }
  | panic =>
    exact .bind (Target.onTopology_plain Topology.addPanic_plain) fun _ _ => .pure trivial
  | display =>
    exact .bind (Target.onTopology_plain Topology.addDisplay_plain) fun _ _ => .pure trivial
  | tablet =>
    refine .bind (Target.onShared_plain DeviceTree.usbController_plain fun n => ?_)
      fun _ _ => .pure trivial
    simp [Endpoint.ownParameters]
  | serialChannel c name =>
    have hplain : AllPlain c.parameters ∧ NoComma name := by
      rcases h with ⟨port, rfl, rfl⟩ | ⟨rfl, rfl⟩
      · exact ⟨CharDevice.tcpSocket_plain port, by decide⟩
      · exact ⟨CharDevice.spiceChannel_plain (by decide) (by decide), by decide⟩
    refine .bind (Target.onResources_plain (Resources.addCharDevice_plain hplain.1))
      fun id hid => ?_
    refine .bind (Target.onShared_plain DeviceTree.serialController_plain fun n => ?_)
      fun _ _ => .pure trivial
    simp [Endpoint.ownParameters, hid, hplain.2]
  | usbChannel c =>
    obtain ⟨n, rfl⟩ := h
    have hid : NoComma ("usbredir." ++ toString n) := by
      simp (disch := decide) [noComma_literal]
    refine .bind (Target.onResources_plain (Resources.addCharDevice_plain
      (CharDevice.spiceChannel_plain hid (by decide)))) fun channel hchannel => ?_
    refine .bind (Target.onShared_plain DeviceTree.usbController_plain fun n => ?_)
      fun _ _ => .pure trivial
    simp [Endpoint.ownParameters, hchannel]
  | securityModule path =>
    cases h
    have hname : NoComma (machine.name ++ ".swtpm.sock") := by
      simp (disch := decide) [hmachine, noComma_literal]
    refine .bind (Target.onResources_plain (Resources.addCharDevice_plain
      (CharDevice.unixSocket_plain (Path.noComma_join hrunDir hname)))) fun socket hsocket => ?_
    refine .bind (Target.onResources_plain (Resources.addEmulatedTpm_plain (by decide) hsocket))
      fun device hdevice => ?_
    exact Target.onTopology_plain (Topology.addTpm_plain hdevice)
  | volume a p =>
    obtain ⟨v, hv, hp⟩ := h
    exact (hd.attached v hv).apply hmachine hp
  | connection m network mac c =>
    obtain ⟨rfl, hc, hnetwork, -⟩ := h
    have hplain := hd.connections c hc
    have hlink := Connection.noComma_linkName hmachine hplain.name
    refine .bind (Target.onResources_plain (Resources.addTap_plain hlink
      (hplain.up network hnetwork) (hplain.down network hnetwork))) fun tap htap => ?_
    refine .bind (Target.onTopology_plain Topology.addRoot_plain) fun root _ => ?_
    refine .bind (Target.onTopology_plain (Topology.attach_plain root (by decide) ?_))
      fun _ _ => .pure trivial
    intro id port hid hport
    simp (disch := decide) [Downstream.Plain, Downstream.parameters, hid, hport, htap,
      noComma_literal]
  | passthrough v path =>
    have hplain : NoComma path.text := by
      obtain ⟨id, -, rfl⟩ := Option.map_eq_some_iff.1 h
      exact Path.noComma_join (by decide) id.noComma_toString
    refine .bind (Target.onTopology_plain Topology.addRoot_plain) fun root _ => ?_
    refine .bind (Target.onTopology_plain (Topology.attach_plain root (by decide) ?_))
      fun _ _ => .pure trivial
    intro id port hid hport
    simp (disch := decide) [Downstream.Plain, Downstream.parameters, hid, hport, hplain,
      noComma_literal]

end Steps

section Populate

variable {seed : Seed}

theorem Volume.Plain.populate {pools : NameMap Pool} {v : Volume} (hv : v.Plain pools) :
    (v.populate seed).Plain pools := by
  rw [Volume.populate]
  split
  · exact hv
  · refine { hv with serial := ?_ }
    simp [hv.serial]

theorem Connection.Plain.populate {networks : NameMap Network} {c : Connection}
    (hc : c.Plain networks) : (c.populate seed).Plain networks := by
  rw [Connection.populate]
  split
  · exact hc
  · exact { hc with }

/-- Identities that are filled in have no comma. -/
theorem Definition.Plain.populate {catalog : Catalog} {d : Definition} (hd : d.Plain catalog)
    (machine : String) : (d.populate machine seed).Plain catalog where
  attached := by
    obtain ⟨hfirmware, hvolumes⟩ := List.forall_mem_append.1 hd.attached
    refine List.forall_mem_append.2 ⟨hfirmware, ?_⟩
    intro v hv
    obtain ⟨v, hmem, rfl⟩ := List.mem_map.1 hv
    exact (hvolumes v hmem).populate
  connections := by
    intro c hc
    obtain ⟨c, hmem, rfl⟩ := List.mem_map.1 hc
    exact (hd.connections c hmem).populate
  qmp := hd.qmp

end Populate

namespace Machine

variable {m : Machine} {catalog : Catalog} {locations : Locations} {t : Target}

/-- No text that the options of a machine are made of has a comma: the machine's name, the place of
its sockets, and the texts of its definition and tags and of the pools and networks they name. -/
structure Plain (m : Machine) (catalog : Catalog) (locations : Locations) : Prop where
  name : NoComma m.name
  runDir : NoComma locations.runDir.text
  definition : (Definition.merge (m.fragments catalog)).Plain catalog

theorem plain_of_build (h : m.build catalog locations = .ok t) (hm : m.Plain catalog locations) :
    t.Plain := by
  obtain ⟨d, hd, hrun⟩ := addDefinition_of_build h
  have hresolved : d.Plain catalog := by
    rw [eq_of_resolve hd]
    exact hm.definition.populate m.name
  have hname : NoComma m.info.name := hm.name
  rw [Build.addDefinition_eq] at hrun
  have hsteps : Stable Target.Plain (BuildStep.run (d.steps m.info catalog locations)) :=
    .forM fun step hstep => step.edit_plain hname hresolved hm.runDir
      (Definition.found_of_mem step hstep)
  exact ((stable_iff.1 hsteps) {} Target.plain_empty).ok hrun

/-- An option of a build is read back just when no value of it has a comma, as none has that is made
of texts without commas; and each of its parameters is read back alone, but for a name with an
equals sign. -/
theorem options_readBack (h : m.build catalog locations = .ok t) :
    (∀ o ∈ t.options, o.ReadsBack ↔ ∀ p ∈ o.parameters, NoComma p.value) ∧
    (m.Plain catalog locations → ∀ o ∈ t.options, o.ReadsBack) ∧
    ∀ o ∈ t.options, ∀ p ∈ o.parameters, (o.kind = "name" → '=' ∉ p.value.toList) →
      ofText p.text = p.word := by
  have hiff (o : CommandOption) (ho : o ∈ t.options) :
      o.ReadsBack ↔ ∀ p ∈ o.parameters, NoComma p.value :=
    CommandOption.readsBack_iff (Target.shaped_options ho)
  refine ⟨hiff, ?_, ?_⟩
  · intro hm o ho
    exact (hiff o ho).2 ((plain_of_build h hm).options o ho)
  · intro o ho p hp hsign
    rcases Target.name_or_legible ho with ⟨rfl, hname⟩ | hlegible
    · rw [List.mem_singleton.1 hp] at hsign ⊢
      exact (legible_bare ⟨hname, hsign rfl⟩).ofText_text
    · exact (hlegible p hp).ofText_text

end Machine

namespace Sample

/-- A name that goes on like a parameter. -/
def renamed : Machine := { name := "desk,debug-threads=on" }

theorem renamed_not_readBack : ∃ t, renamed.build {} {} = .ok t ∧ ∃ o ∈ t.options,
    o.parameters.map text = ["desk,debug-threads=on"] ∧
      split (texts o.parameters) = ["desk", "debug-threads=on"] ∧ ¬ o.ReadsBack := by
  have hcheck : (renamed.build {} {}).toOption.any (fun t => t.options.any fun o =>
      o.parameters.map text = ["desk,debug-threads=on"] &&
        split (texts o.parameters) = ["desk", "debug-threads=on"]) = true := by
    decide +kernel
  obtain ⟨t, ht, hany⟩ := exists_of_any hcheck
  obtain ⟨o, ho, hboth⟩ := List.any_eq_true.1 hany
  simp only [Bool.and_eq_true, decide_eq_true_eq] at hboth
  obtain ⟨htexts, hpieces⟩ := hboth
  refine ⟨t, ht, o, ho, htexts, hpieces, ?_⟩
  intro hread
  have hnone : o.parameters ≠ [] := by
    intro h
    simp [h] at htexts
  have heq := hread (texts o.parameters) (by simp [CommandOption.args, hnone])
  rw [htexts, hpieces] at heq
  simp at heq

theorem laptop_readsBack : ∃ t, laptop.build host {} = .ok t ∧ ∀ o ∈ t.options, o.ReadsBack := by
  have hok : (laptop.build host {}).toOption.any (fun _ => true) = true := by decide +kernel
  obtain ⟨t, ht, -⟩ := exists_of_any hok
  obtain ⟨-, hread, -⟩ := Machine.options_readBack ht
  have hpool (pool : Pool) (h : host.pools.get? os.storage = some pool) :
      NoComma pool.path.text ∧ NoComma pool.pattern := by
    have himages : host.pools.get? os.storage = some { path := ⟨"/images"⟩, kind := "raw" } := rfl
    cases himages.symm.trans h
    decide
  have hos : os.Plain host.pools := {
    name := by decide
    serial := by decide
    path := fun pool h => (hpool pool h).1
    pattern := fun pool h => (hpool pool h).2 }
  have hdefinition : (Definition.merge (laptop.fragments host)).Plain host := {
    attached := by
      intro v hv
      have hlone : v ∈ [os] := hv
      exact List.mem_singleton.1 hlone ▸ hos
    connections := nofun
    qmp := ⟨nofun, nofun⟩ }
  exact ⟨t, ht, hread { name := by decide, runDir := by decide, definition := hdefinition }⟩

end Sample

end GuestCompiler
