import GuestCompiler.Proofs.EmissionOrder
import GuestCompiler.Proofs.Layering
import GuestCompiler.Proofs.PathComponents

/-!
# Monitors

A guest with a control protocol listens on the standard sockets, on those that its definitions name
and on those whose paths they give. Names and paths are told apart as texts where definitions are
merged, and sockets as paths where they are opened; what is left is the first of each place among
all that is configured (`Machine.build_monitors`).
-/
namespace GuestCompiler

open CommandOption Parameter

section Distinct

variable {α β κ κ' : Type} [DecidableEq κ] [DecidableEq κ']

/-- A coarse key leaves nothing of what a finer one has left out before. -/
theorem distinctBy_map_distinctBy {key : β → κ} {fine : α → κ'} {f : α → β}
    (hfine : ∀ x y, fine x = fine y → key (f x) = key (f y)) (xs : List α) :
    distinctBy key ((distinctBy fine xs).map f) = distinctBy key (xs.map f) := by
  induction xs using List.reverseRecOn with
  | nil => rfl
  | append_singleton xs x ih =>
    rw [distinctBy_concat, List.map_append, List.map_singleton]
    by_cases hx : fine x ∈ (distinctBy fine xs).map fine
    · -- The first one of the same fine key stands for `x` under the coarse one too.
      have hold : key (f x) ∈ (distinctBy key (xs.map f)).map key := by
        rw [mem_map_distinctBy, List.map_map]
        obtain ⟨y, hy, hsame⟩ := List.mem_map.1 ((mem_map_distinctBy fine xs _).1 hx)
        exact List.mem_map.2 ⟨y, hy, hfine y x hsame⟩
      rw [if_pos hx, ih, distinctBy_concat, if_pos hold]
    · rw [if_neg hx, List.map_append, List.map_singleton, ← distinctBy_append, ih,
        distinctBy_append]

/-- What is left of two lists together is decided by what is left of each. -/
theorem distinctBy_append_congr {key : α → κ} {xs xs' ys ys' : List α}
    (hxs : distinctBy key xs = distinctBy key xs') (hys : distinctBy key ys = distinctBy key ys') :
    distinctBy key (xs ++ ys) = distinctBy key (xs' ++ ys') := by
  have hsplit (us vs : List α) :
      distinctBy key (us ++ vs) = distinctBy key (distinctBy key us ++ distinctBy key vs) := by
    rw [distinctBy_append_distinctBy, distinctBy_append]
  rw [hsplit xs ys, hsplit xs' ys', hxs, hys]

end Distinct

namespace Definition

/-- The sockets that some definitions configure: standard ones, named ones and paths, in order. -/
def controlSockets (runDir : Path) (machine : String) (defs : List Definition) : List Path :=
  (Qmp.standardSockets ++ defs.flatMap (·.attributes.qmp.sockets.names)).map
      (Qmp.socketPath runDir machine) ++
    (defs.flatMap (·.attributes.qmp.sockets.paths)).map Path.mk

variable (runDir : Path) (machine : String) (defs : List Definition)

theorem standard_mem_controlSockets :
    Qmp.socketPath runDir machine "systemd.0" ∈ controlSockets runDir machine defs := by
  apply List.mem_append_left
  exact List.mem_map_of_mem (List.mem_append_left _ List.mem_cons_self)

/-- It does not matter that names and paths have been made distinct before. -/
theorem socketPaths_merge : (merge defs).attributes.qmp.socketPaths runDir machine =
    firsts Path.components (controlSockets runDir machine defs) := by
  have hnames : (merge defs).attributes.qmp.sockets.names =
      distinctBy id (defs.flatMap (·.attributes.qmp.sockets.names)) := by
    rw [distinctBy_eq_firsts]
    exact firsts_merge (·.attributes.qmp.sockets.names) (fun _ _ => rfl) rfl defs
  have hpaths : (merge defs).attributes.qmp.sockets.paths =
      distinctBy id (defs.flatMap (·.attributes.qmp.sockets.paths)) := by
    rw [distinctBy_eq_firsts]
    exact firsts_merge (·.attributes.qmp.sockets.paths) (fun _ _ => rfl) rfl defs
  have hmap {α : Type} [DecidableEq α] (f : α → Path) (xs : List α) :
      distinctBy Path.components ((distinctBy id xs).map f) =
        distinctBy Path.components (xs.map f) :=
    distinctBy_map_distinctBy (fun x y hxy => by rw [show x = y from hxy]) xs
  rw [Qmp.socketPaths, hnames, hpaths, ← distinctBy_eq_firsts, controlSockets, List.map_append,
    List.map_append]
  apply distinctBy_append_congr
  · apply distinctBy_append_congr
    · rfl
    · exact hmap (Qmp.socketPath runDir machine) _
  · exact hmap Path.mk _

end Definition

theorem map_mapIdx {α β γ : Type} (f : Nat → α → β) (g : β → γ) (xs : List α) :
    (xs.mapIdx f).map g = xs.mapIdx fun i x => g (f i x) := by
  rw [List.mapIdx_eq_zipIdx_map, List.mapIdx_eq_zipIdx_map, List.map_map]
  rfl

/-- Options by which a guest listens on some sockets: a character device for each, in order, and a
monitor on each of them. -/
structure CommandOption.ListensOn (os : List CommandOption) (sockets : List Path) : Prop where
  charDevices :
    (os.filter fun o => o.kind == "chardev" && (o.values "id").any CharDevice.isMonitorId) =
      sockets.mapIdx fun i path => ⟨"chardev", [.bare "socket", ⟨"id", "qmp." ++ toString i⟩,
        ⟨"server", "on"⟩, ⟨"wait", "off"⟩, ⟨"path", path.text⟩]⟩
  monitors : rows os "mon" ["chardev", "mode"] =
    sockets.mapIdx fun i _ => [["qmp." ++ toString i], ["control"]]

namespace Target

variable {t : Target}

/-- The character devices of some ids are written in their order. -/
theorem filter_options_charDevices (t : Target) (p : String → Bool) :
    (t.options.filter fun o => o.kind == "chardev" && (o.values "id").any p) =
      (t.resources.charDevices.entries.filter fun c => p c.id).map
        fun c => ⟨"chardev", c.parameters⟩ := by
  have hid (c : CharDevice) : (column c.parameters "id").any p = p c.id := by
    rw [CharDevice.column_id]
    simp
  have hsplit : (t.options.filter fun o => o.kind == "chardev" && (o.values "id").any p) =
      (t.options.filter (·.kind == "chardev")).filter fun o => (o.values "id").any p := by
    rw [List.filter_filter]
    exact List.filter_congr fun o _ => Bool.and_comm ..
  rw [hsplit, filter_options t.charDevice_mem_sections, ofKind, List.map_map, List.filter_map]
  exact congrArg (List.map _) (List.filter_congr fun c _ => hid c)

theorem monitorRows_control (t : Target) : rows t.options "mon" ["chardev", "mode"] =
    t.settings.monitors.map fun m => [[m.charDevice], ["control"]] := by
  have hmonitor (m : Guest.Monitor) :
      ["chardev", "mode"].map (column m.parameters) = [[m.charDevice], ["control"]] := by
    cases hpretty : m.pretty <;> simp [Guest.Monitor.parameters, flag, hpretty]
  simp only [rows, table, Bool.and_true, filter_options_mon, List.map_map]
  exact List.map_congr_left fun m _ => hmonitor m

theorem listensOn_options {sockets : List Path}
    (hdevices : t.resources.charDevices.entries.filter (fun c => CharDevice.isMonitorId c.id) =
      sockets.mapIdx fun i path => .unixServer ("qmp." ++ toString i) path)
    (hmonitors : t.settings.monitors.map (·.charDevice) =
      t.resources.charDevices.names.filter CharDevice.isMonitorId) :
    ListensOn t.options sockets where
  charDevices := by
    rw [filter_options_charDevices, hdevices, map_mapIdx]
    rfl
  monitors := by
    have hnames : t.resources.charDevices.names.filter CharDevice.isMonitorId =
        (t.resources.charDevices.entries.filter fun c => CharDevice.isMonitorId c.id).map
          CharDevice.id := List.filter_map
    have hids : t.settings.monitors.map (·.charDevice) =
        sockets.mapIdx fun i _ => "qmp." ++ toString i := by
      rw [hmonitors, hnames, hdevices, map_mapIdx]
      rfl
    calc rows t.options "mon" ["chardev", "mode"]
      _ = (t.settings.monitors.map (·.charDevice)).map fun id => [[id], ["control"]] := by
          rw [monitorRows_control, List.map_map]
          rfl
      _ = sockets.mapIdx fun i _ => [["qmp." ++ toString i], ["control"]] := by
          rw [hids, map_mapIdx]

end Target

namespace Machine

variable {m : Machine} {catalog : Catalog} {locations : Locations} {t : Target}

theorem monitorDevices_of_build
    (henabled : (m.fragments catalog).any (·.attributes.qmp.enabled) = true)
    (h : m.build catalog locations = .ok t) :
    t.resources.charDevices.entries.filter (fun c => CharDevice.isMonitorId c.id) =
      (firsts Path.components (Definition.controlSockets locations.runDir m.name
        (m.fragments catalog))).mapIdx fun i path => .unixServer ("qmp." ++ toString i) path := by
  obtain ⟨d, hd, -⟩ := addDefinition_of_build h
  have hattributes : d.attributes = (Definition.merge (m.fragments catalog)).attributes := by
    rw [eq_of_resolve hd]
    rfl
  have hqmp : d.attributes.qmp.enabled = true := by
    have hany := Definition.any_merge (·.attributes.qmp.enabled) (fun _ _ => rfl) rfl
      (m.fragments catalog)
    rw [hattributes]
    exact hany.trans henabled
  have hsockets := Definition.socketPaths_merge locations.runDir m.name (m.fragments catalog)
  rw [channels_of_build hd h, Definition.filter_channels, Qmp.channels, if_pos hqmp, hattributes,
    ← hsockets]
  rfl

/-- A guest with a control protocol listens on the first socket of each place that is configured,
standard ones before named ones and these before paths. It has one at least, no two in one place,
and one in the place of every one that is configured, whatever separators are repeated or stand at
the end of its path. -/
theorem build_monitors (henabled : (m.fragments catalog).any (·.attributes.qmp.enabled) = true)
    (h : m.build catalog locations = .ok t) :
    ∃ configured sockets : List Path,
      configured =
        Definition.controlSockets locations.runDir m.name (m.fragments catalog) ∧
      sockets = firsts Path.components configured ∧
      ListensOn t.options sockets ∧
      0 < sockets.length ∧
      (sockets.map Path.components).Nodup ∧
      (∀ path ∈ configured, path.components ∈ sockets.map Path.components) ∧
      (∀ a b : String, Path.components ⟨a ++ "//" ++ b⟩ = Path.components ⟨a ++ "/" ++ b⟩) ∧
      ∀ a : String, a ≠ "" → Path.components ⟨a ++ "/"⟩ = Path.components ⟨a⟩ := by
  obtain ⟨d, hd, -⟩ := addDefinition_of_build h
  let configured := Definition.controlSockets locations.runDir m.name (m.fragments catalog)
  have hlistens : ListensOn t.options (firsts Path.components configured) :=
    Target.listensOn_options (monitorDevices_of_build henabled h) (monitors_of_build hd h)
  have hmem : ∀ path ∈ configured,
      path.components ∈ (firsts Path.components configured).map Path.components := by
    intro path hpath
    rw [← distinctBy_eq_firsts, mem_map_distinctBy]
    exact List.mem_map_of_mem hpath
  have hpos : 0 < (firsts Path.components configured).length := by
    -- The standard sockets are configured always.
    have hplace := List.length_pos_of_mem (hmem _ (Definition.standard_mem_controlSockets ..))
    rwa [List.length_map] at hplace
  exact ⟨configured, _, rfl, rfl, hlistens, hpos, nodup_map_firsts _ _, hmem,
    Path.components_slashes, fun _ => Path.components_trailing⟩

end Machine

namespace Sample

/-- A machine whose tag names a socket again, and gives two paths to one place. -/
def monitored : Machine where
  name := "desk"
  tags := ["remote"]
  definition := { attributes := { qmp := { sockets := {
    names := ["command.0", "extra"], paths := ["/run/qforge/desk.qmp.extra.sock"] } } } }

def monitoredCatalog : Catalog where
  tags := .ofList [("remote", { attributes := { qmp := { enabled := true, sockets := {
    names := ["extra", "audit"], paths := ["/tmp//q.sock", "/tmp/q.sock/"] } } } })]

theorem monitored_monitors : ∃ t, monitored.build monitoredCatalog {} = .ok t ∧
    ListensOn t.options [⟨"/run/qforge/desk.qmp.systemd.0.sock"⟩,
      ⟨"/run/qforge/desk.qmp.command.0.sock"⟩, ⟨"/run/qforge/desk.qmp.command.1.sock"⟩,
      ⟨"/run/qforge/desk.qmp.extra.sock"⟩, ⟨"/run/qforge/desk.qmp.audit.sock"⟩,
      ⟨"/tmp//q.sock"⟩] := by
  have hok : (monitored.build monitoredCatalog {}).toOption.any (fun _ => true) = true := by
    decide +kernel
  obtain ⟨t, ht, -⟩ := exists_of_any hok
  obtain ⟨configured, sockets, hconfigured, hsockets, hlistens, -⟩ :=
    Machine.build_monitors (by decide +kernel) ht
  have hfirsts : sockets = [⟨"/run/qforge/desk.qmp.systemd.0.sock"⟩,
      ⟨"/run/qforge/desk.qmp.command.0.sock"⟩, ⟨"/run/qforge/desk.qmp.command.1.sock"⟩,
      ⟨"/run/qforge/desk.qmp.extra.sock"⟩, ⟨"/run/qforge/desk.qmp.audit.sock"⟩,
      ⟨"/tmp//q.sock"⟩] := by
    rw [hsockets, hconfigured]
    decide +kernel
  exact ⟨t, ht, hfirsts ▸ hlistens⟩

end Sample

end GuestCompiler
