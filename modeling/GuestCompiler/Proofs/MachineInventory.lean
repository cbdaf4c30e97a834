import GuestCompiler.Proofs.CarriedBuild
import GuestCompiler.Proofs.WiringBuild

/-!
# The inventory of a machine

Only attributes have ids, and no two of them have one id. So whatever a machine's build answers
carries the inventory of its definition (`Machine.carries_of_build`), and a build that fails does so
for want of a tag or for a reason that lies in the inventory (`Machine.fault_of_build`).
-/
namespace GuestCompiler

open Edit

section Ids

variable {machine : MachineInfo} {pools : NameMap Pool} {runDir : Path}

theorem Volume.exists_of_mem_items {v : Volume} {x : Item} (h : x ∈ v.items machine pools) :
    ∃ d p node, x = .drive d p node := by
  obtain ⟨⟨a, p⟩, -, hdrive⟩ := Option.bind_eq_some_iff.1 (Option.mem_toList.1 h)
  obtain ⟨d, -, rfl⟩ := Option.map_eq_some_iff.1 hdrive
  exact ⟨d, p, _, rfl⟩

/-- Only attributes have ids. -/
theorem Definition.filterMap_items {f : Item → Option String} (hfunction : f .function = none)
    (hdrive : ∀ d p node, f (.drive d p node) = none) (hnetwork : ∀ c, f (.network c) = none)
    (hpassthrough : ∀ d, f (.passthrough d) = none) (d : Definition) :
    (d.items machine pools runDir).filterMap f =
      (d.attributes.items machine.name runDir).filterMap f := by
  have hvolumes (vs : List Volume) :
      (vs.flatMap (Volume.items machine pools)).filterMap f = [] := by
    refine List.filterMap_eq_nil_iff.2 fun x hx => ?_
    obtain ⟨v, -, hv⟩ := List.mem_flatMap.1 hx
    obtain ⟨d, p, node, rfl⟩ := Volume.exists_of_mem_items hv
    exact hdrive d p node
  simp [items, hvolumes, hfunction, hnetwork, hpassthrough, List.filterMap_map]

/-- The displays have no ids. -/
theorem Spice.filterMap_items {f : Item → Option String} (hfunction : f .function = none)
    (s : Spice) : s.items.filterMap f = if s.enabled then
      [.charDevice "vdagent", .serialPort, .usbPort, .charDevice "usbredir.0", .usbPort,
        .charDevice "usbredir.1", .usbPort].filterMap f
    else [] := by
  unfold items
  split
  · rw [List.filterMap_append]
    have hdisplays (n : Nat) : (List.replicate n Item.function).filterMap f = [] := by
      simp [hfunction]
    rw [hdisplays, List.nil_append]
    rfl
  · rfl

/-- All that attributes call for has an id of its own. -/
theorem Attributes.charDeviceIds_items (a : Attributes) (machine : String) :
    Item.charDeviceIds (a.items machine runDir) = a.channelIds machine runDir := by
  have hmonitors : Item.charDeviceIds (a.qmp.items machine runDir) =
      a.qmp.monitorIds machine runDir := by
    unfold Qmp.items Item.charDeviceIds Qmp.monitorIds
    split <;> simp [List.filterMap_map, Function.comp_def, Item.charDeviceId?]
  have hagent : Item.charDeviceIds a.agent.items =
      if a.agent.enabled then ["guestagent"] else [] := by
    unfold Agent.items Item.charDeviceIds
    split <;> simp [Item.charDeviceId?]
  have hspice : Item.charDeviceIds a.spice.items =
      if a.spice.enabled then Build.displayIds else [] := Spice.filterMap_items rfl _
  have htpm : Item.charDeviceIds
      (if a.tpm then [.charDevice "tpm.0.socket", .tpmDevice "tpm.0"] else []) =
      if a.tpm then ["tpm.0.socket"] else [] := by
    split <;> rfl
  rw [channelIds, ownIds, ← hmonitors, ← hagent, ← hspice, ← htpm]
  simp only [items, Item.charDeviceIds, List.filterMap_append, List.append_assoc]

theorem Attributes.tpmDeviceIds_sublist (a : Attributes) (machine : String) :
    (Item.tpmDeviceIds (a.items machine runDir)).Sublist ["tpm.0"] := by
  have hqmp : (a.qmp.items machine runDir).filterMap Item.tpmDeviceId? = [] := by
    unfold Qmp.items
    split <;> simp [List.filterMap_map, Function.comp_def, Item.tpmDeviceId?]
  have hagent : a.agent.items.filterMap Item.tpmDeviceId? = [] := by
    unfold Agent.items
    split <;> simp [Item.tpmDeviceId?]
  have hspice : a.spice.items.filterMap Item.tpmDeviceId? = [] := by
    rw [Spice.filterMap_items rfl]
    split <;> rfl
  simp only [items, Item.tpmDeviceIds, List.filterMap_append, hqmp, hagent, hspice]
  split
  · exact .refl _
  · exact List.nil_sublist _

theorem Definition.charDeviceIds_items (d : Definition) :
    Item.charDeviceIds (d.items machine pools runDir) =
      Item.charDeviceIds (d.attributes.items machine.name runDir) :=
  d.filterMap_items rfl (fun _ _ _ => rfl) (fun _ => rfl) fun _ => rfl

theorem Definition.tpmDeviceIds_items (d : Definition) :
    Item.tpmDeviceIds (d.items machine pools runDir) =
      Item.tpmDeviceIds (d.attributes.items machine.name runDir) :=
  d.filterMap_items rfl (fun _ _ _ => rfl) (fun _ => rfl) fun _ => rfl

theorem Definition.wellNamed_items (d : Definition) :
    Item.WellNamed (d.items machine pools runDir) where
  charDevices := by
    rw [d.charDeviceIds_items, Attributes.charDeviceIds_items]
    exact d.attributes.nodup_channelIds _ _
  tpmDevices := by
    rw [d.tpmDeviceIds_items]
    exact (List.nodup_singleton _).sublist (d.attributes.tpmDeviceIds_sublist _)
  charDevices_ne hmem := by
    rw [d.charDeviceIds_items, Attributes.charDeviceIds_items] at hmem
    rcases List.mem_append.1 hmem with hmonitor | hown
    · exact Attributes.not_mem_monitorIds (by decide) hmonitor
    · exact absurd (d.attributes.ownIds_sublist.subset hown) (by decide)
  tpmDevices_ne hmem := by
    rw [d.tpmDeviceIds_items] at hmem
    exact absurd ((d.attributes.tpmDeviceIds_sublist machine.name).subset hmem) (by decide)

end Ids

theorem Catalog.collectTags_eq_error {c : Catalog} {machine : String} {names : List String}
    {e : Error} (h : c.collectTags machine names = .error e) :
    ∃ name, e = .unresolved "tag" ("machine " ++ machine) name := by
  induction names with
  | nil => exact nomatch h
  | cons name names ih =>
    rw [collectTags, List.mapM_cons] at h
    rcases exceptBind_eq_error.1 h with hfirst | ⟨_, -, hrest⟩
    · split at hfirst <;> cases hfirst
      exact ⟨name, rfl⟩
    · rcases exceptBind_eq_error.1 hrest with hrest | ⟨_, -, hnone⟩
      · exact ih hrest
      · exact nomatch hnone

namespace Machine

variable {m : Machine} {catalog : Catalog} {locations : Locations} {d : Definition}

/-- What a build answers carries the inventory of the definition. -/
theorem carries_of_build {t : Target} (hd : m.resolve catalog = .ok d)
    (h : m.build catalog locations = .ok t) :
    t.Carries m.info catalog.networks (d.items m.info catalog.pools locations.runDir) := by
  obtain ⟨d', hd', hrun⟩ := addDefinition_of_build h
  cases hd.symm.trans hd'
  exact ((Build.addDefinition_adds m.info d catalog locations {} []
    (Target.carries_empty _ _) d.wellNamed_items).ok hrun).1

theorem resolve_eq_error {e : Error} (h : m.resolve catalog = .error e) :
    ∃ name, e = .unresolved "tag" ("machine " ++ m.name) name := by
  rcases exceptBind_eq_error.1 h with htags | ⟨_, -, hnone⟩
  · exact Catalog.collectTags_eq_error htags
  · exact nomatch hnone

/-- A build fails with an error that names the machine, for want of a tag or for a reason that lies
in the inventory. -/
theorem fault_of_build {e : Error} (h : m.build catalog locations = .error e) :
    ∃ cause, e = .machine m.name cause ∧
      ((∃ name, cause = .unresolved "tag" ("machine " ++ m.name) name) ∨
        ∃ d, m.resolve catalog = .ok d ∧
          Fault (d.items m.info catalog.pools locations.runDir) cause) := by
  unfold build at h
  cases hcompile : m.compile catalog locations with
  | ok t => simp [hcompile, Except.mapError] at h
  | error cause =>
    rw [hcompile] at h
    cases h
    rcases exceptBind_eq_error.1 hcompile with htag | ⟨d, hd, hrun⟩
    · obtain ⟨name, rfl⟩ := resolve_eq_error htag
      exact ⟨_, rfl, .inl ⟨name, rfl⟩⟩
    · split at hrun <;> cases hrun
      rename_i hrun
      have hfault := (Build.addDefinition_adds m.info d catalog locations {} []
        (Target.carries_empty _ _) d.wellNamed_items).error hrun
      refine ⟨cause, ?_, .inr ⟨d, hd, hfault⟩⟩
      -- No fault names a machine yet.
      cases hfault <;> rfl

end Machine

end GuestCompiler
