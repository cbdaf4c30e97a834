import GuestCompiler.Proofs.Resources
import GuestCompiler.Proofs.Settings

/-!
# The character devices of a build

Each attribute brings its own character devices, after those of the attributes before: sockets for
the monitors, the agent's port, the channels of the display and the socket of the security module.
No other step of a build brings any, so that they are listed by the definition alone
(`Definition.channels`), and their ids never meet.
-/
namespace GuestCompiler

open BuildStep

def Qmp.channels (q : Qmp) (runDir : Path) (machine : String) : List CharDevice :=
  if q.enabled then
    (q.socketPaths runDir machine).mapIdx fun i path => .unixServer ("qmp." ++ toString i) path
  else []

/-- The agent's port, where one is set or named by a pattern. -/
def Agent.channels (a : Agent) (vars : Vars) : List CharDevice :=
  if a.enabled then
    (Build.agentPort a vars).toOption.toList.map (.tcpSocket "guestagent" Build.loopback)
  else []

def Spice.channels (s : Spice) : List CharDevice :=
  if s.enabled then
    [.spiceChannel "vdagent" "vdagent", .spiceChannel "usbredir.0" "usbredir",
      .spiceChannel "usbredir.1" "usbredir"]
  else []

/-- All character devices of a guest, in order. -/
def Definition.channels (d : Definition) (machine : MachineInfo) (runDir : Path) :
    List CharDevice :=
  d.attributes.qmp.channels runDir machine.name ++
    d.attributes.agent.channels (Vars.merge [machine.vars, d.vars]) ++
    d.attributes.spice.channels ++
    if d.attributes.tpm then
      [.unixSocket "tpm.0.socket" (Attributes.tpmSocketPath runDir machine.name) false true]
    else []

section Lists

variable {machine : MachineInfo} {catalog : Catalog} {locations : Locations}

theorem Definition.lists_channels (d : Definition) :
    Lists (fun step => step.entries.charDevices) (d.steps machine catalog locations)
      (d.channels machine locations.runDir) := by
  have hqmp : (if d.attributes.qmp.enabled then
      (d.attributes.qmp.socketPaths locations.runDir machine.name).zipIdx.flatMap fun x =>
        [CharDevice.unixServer ("qmp." ++ toString x.2) x.1] else []) =
      d.attributes.qmp.channels locations.runDir machine.name := by
    unfold Qmp.channels
    rw [List.mapIdx_eq_zipIdx_map, List.map_eq_flatMap]
  have hagent (port : Nat)
      (hport : Build.agentPort d.attributes.agent (Vars.merge [machine.vars, d.vars]) = .ok port) :
      [CharDevice.tcpSocket "guestagent" Build.loopback port] =
        (Build.agentPort d.attributes.agent (Vars.merge [machine.vars, d.vars])).toOption.toList.map
          (.tcpSocket "guestagent" Build.loopback) := by
    rw [hport]
    rfl
  refine (lists_steps _ (fun _ => []) (fun _ => []) (fun _ => []) (fun _ => rfl)
    (fun _ _ _ _ => rfl) hagent (fun _ _ _ => rfl) fun _ _ => rfl).of_eq ?_
  simp only [Attributes.listing, entries, hqmp, List.flatMap_replicate]
  simp [channels, Agent.channels, Spice.channels]

/-- There is one security module at most. -/
theorem Definition.lists_tpmDevices (d : Definition) :
    Lists (fun step => step.entries.tpmDevices) (d.steps machine catalog locations)
      (if d.attributes.tpm then [.emulated "tpm.0" "tpm.0.socket"] else []) := by
  refine (lists_steps [] (fun _ => []) (fun _ => []) (fun _ => []) (fun _ => rfl)
    (fun _ _ _ _ => rfl) (fun _ _ => rfl) (fun _ _ _ => rfl) fun _ _ => rfl).of_eq ?_
  simp [Attributes.listing, entries, List.flatMap_replicate]

end Lists

section Ids

namespace Build

theorem nodup_monitorIds (paths : List Path) : (monitorIds paths).Nodup := by
  have hids : monitorIds paths = (List.range paths.length).map fun k => "qmp." ++ toString k := by
    rw [List.range_eq_range', ← List.zipIdx_map_snd 0 paths, List.map_map]
    rfl
  exact hids ▸ nodup_numbered _ _

def displayIds : List String := ["vdagent", "usbredir.0", "usbredir.1"]

end Build

/-- The sockets are numbered. -/
theorem Qmp.number_of_mem_monitorIds {q : Qmp} {name id : String} {runDir : Path}
    (h : id ∈ q.monitorIds name runDir) :
    ∃ n < (q.socketPaths runDir name).length, id = "qmp." ++ toString n := by
  unfold monitorIds at h
  split at h
  · obtain ⟨⟨path, n⟩, hn, rfl⟩ := List.mem_map.1 h
    exact ⟨n, List.snd_lt_of_mem_zipIdx hn, rfl⟩
  · exact nomatch h

namespace Attributes

/-- The ids of the character devices that attributes call for beside those of monitors. -/
def ownIds (a : Attributes) : List String :=
  (if a.agent.enabled then ["guestagent"] else []) ++
    ((if a.spice.enabled then Build.displayIds else []) ++ if a.tpm then ["tpm.0.socket"] else [])

def channelIds (name : String) (runDir : Path) (a : Attributes) : List String :=
  a.qmp.monitorIds name runDir ++ a.ownIds

theorem ownIds_sublist (a : Attributes) :
    a.ownIds.Sublist ("guestagent" :: (Build.displayIds ++ ["tpm.0.socket"])) := by
  unfold ownIds
  cases a.agent.enabled <;> cases a.spice.enabled <;> cases a.tpm <;> decide

theorem not_mem_monitorIds {name id : String} {runDir : Path} {a : Attributes}
    (h : id.toList.head? ≠ some 'q') : id ∉ a.qmp.monitorIds name runDir := by
  intro hmem
  obtain ⟨n, -, rfl⟩ := Qmp.number_of_mem_monitorIds hmem
  exact h (by simp)

/-- No two character devices of a guest have one id. -/
theorem nodup_channelIds (name : String) (runDir : Path) (a : Attributes) :
    (a.channelIds name runDir).Nodup := by
  have hheads : ∀ id ∈ "guestagent" :: (Build.displayIds ++ ["tpm.0.socket"]),
      id.toList.head? ≠ some 'q' := by decide
  have hmonitors : (a.qmp.monitorIds name runDir).Nodup := by
    unfold Qmp.monitorIds
    split
    · exact Build.nodup_monitorIds _
    · exact List.nodup_nil
  have hown : a.ownIds.Nodup := List.Nodup.sublist a.ownIds_sublist (by decide)
  refine List.nodup_append.2 ⟨hmonitors, hown, fun id hid other hother heq => ?_⟩
  exact not_mem_monitorIds (hheads other (a.ownIds_sublist.subset hother)) (heq ▸ hid)

end Attributes

theorem Qmp.map_id_channels (q : Qmp) (runDir : Path) (machine : String) :
    (q.channels runDir machine).map CharDevice.id = q.monitorIds machine runDir := by
  unfold channels monitorIds Build.monitorIds
  split
  · rw [List.mapIdx_eq_zipIdx_map, List.map_map]
    rfl
  · rfl

theorem Definition.map_id_channels_sublist (d : Definition) (machine : MachineInfo)
    (runDir : Path) : ((d.channels machine runDir).map CharDevice.id).Sublist
      (d.attributes.channelIds machine.name runDir) := by
  have hagent (vars : Vars) : ((d.attributes.agent.channels vars).map CharDevice.id).Sublist
      (if d.attributes.agent.enabled then ["guestagent"] else []) := by
    unfold Agent.channels
    split
    · cases Build.agentPort d.attributes.agent vars with
      | ok port => exact .refl _
      | error e => exact List.nil_sublist _
    · exact .refl _
  have hspice : d.attributes.spice.channels.map CharDevice.id =
      if d.attributes.spice.enabled then Build.displayIds else [] := by
    unfold Spice.channels
    split <;> rfl
  have htpm (path : Path) : (if d.attributes.tpm then
      [CharDevice.unixSocket "tpm.0.socket" path false true] else []).map CharDevice.id =
      if d.attributes.tpm then ["tpm.0.socket"] else [] := by
    split <;> rfl
  rw [channels, List.append_assoc, List.append_assoc, List.map_append, List.map_append,
    List.map_append, Qmp.map_id_channels, hspice, htpm]
  exact (List.Sublist.refl _).append ((hagent _).append (.refl _))

end Ids

section Monitors

/-- The ids of the character devices that monitors listen on. -/
def CharDevice.isMonitorId (id : String) : Bool := "qmp.".toList.isPrefixOf id.toList

theorem CharDevice.isMonitorId_numbered (i : Nat) : isMonitorId ("qmp." ++ toString i) = true := by
  simp [isMonitorId, List.isPrefixOf]

theorem Qmp.isMonitorId_of_mem_channels {q : Qmp} {runDir : Path} {machine : String}
    {c : CharDevice} (h : c ∈ q.channels runDir machine) : CharDevice.isMonitorId c.id = true := by
  unfold channels at h
  split at h
  · obtain ⟨i, hi, rfl⟩ := List.mem_mapIdx.1 h
    exact CharDevice.isMonitorId_numbered i
  · exact nomatch h

theorem Agent.id_of_mem_channels {a : Agent} {vars : Vars} {c : CharDevice}
    (h : c ∈ a.channels vars) : c.id = "guestagent" := by
  unfold channels at h
  split at h
  · obtain ⟨port, -, rfl⟩ := List.mem_map.1 h
    rfl
  · exact nomatch h

/-- Of the character devices of a guest only those of its monitors have ids like theirs. -/
theorem Definition.filter_channels (d : Definition) (machine : MachineInfo) (runDir : Path) :
    (d.channels machine runDir).filter (fun c => CharDevice.isMonitorId c.id) =
      d.attributes.qmp.channels runDir machine.name := by
  have hagent (vars : Vars) : (d.attributes.agent.channels vars).filter
      (fun c => CharDevice.isMonitorId c.id) = [] := by
    have hid : CharDevice.isMonitorId "guestagent" = false := by decide
    apply List.filter_eq_nil_iff.2
    intro c hc
    rw [Agent.id_of_mem_channels hc]
    exact Bool.eq_false_iff.1 hid
  have hspice : d.attributes.spice.channels.filter
      (fun c => CharDevice.isMonitorId c.id) = [] := by
    unfold Spice.channels
    split
    · decide
    · rfl
  have htpm : CharDevice.isMonitorId "tpm.0.socket" = false := by decide
  rw [channels, List.filter_append, List.filter_append, List.filter_append,
    List.filter_eq_self.2 fun c hc => Qmp.isMonitorId_of_mem_channels hc, hagent, hspice,
    List.append_nil, List.append_nil]
  split <;> simp [CharDevice.id, htpm]

end Monitors

namespace Machine

variable {m : Machine} {catalog : Catalog} {locations : Locations} {t : Target} {d : Definition}

/-- What a build answers has the character devices of the resolved definition. -/
theorem channels_of_build (hd : m.resolve catalog = .ok d)
    (h : m.build catalog locations = .ok t) :
    t.resources.charDevices.entries = d.channels m.info locations.runDir := by
  obtain ⟨hall, -, hledger⟩ := ledger_of_build hd h
  have hdevices : t.resources.charDevices = _ := congrArg Ledger.charDevices hledger
  rw [hdevices, ← d.lists_channels.flatMap_eq hall]
  exact Registry.entries_insertAll _ _

/-- The monitors are in the order of their character devices. -/
theorem monitors_of_build (hd : m.resolve catalog = .ok d)
    (h : m.build catalog locations = .ok t) : t.settings.monitors.map (·.charDevice) =
      t.resources.charDevices.names.filter CharDevice.isMonitorId := by
  obtain ⟨host, port, -, hsettings⟩ := settings_of_build hd h
  have hnames : t.resources.charDevices.names.filter CharDevice.isMonitorId =
      (t.resources.charDevices.entries.filter fun c => CharDevice.isMonitorId c.id).map
        CharDevice.id := List.filter_map
  rw [hnames, channels_of_build hd h, d.filter_channels, Qmp.map_id_channels, hsettings,
    Definition.settings, Attributes.settle, List.nil_append, List.map_map]
  exact List.map_id _

end Machine

end GuestCompiler
