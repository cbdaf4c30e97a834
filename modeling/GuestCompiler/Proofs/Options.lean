import GuestCompiler.Build.Target
import GuestCompiler.Proofs.Resources

/-!
# The options of a target by kind

Resources and devices are written in sections, one for each kind of option, and nothing else is of
these kinds. `filter_options` says so; with it, the options of a kind are counted or traced back by
their section alone.
-/
namespace GuestCompiler

namespace Parameter

@[simp] theorem mem_switch {p : Parameter} {name : String} {on : Bool} :
    p ∈ switch name on ↔ on = true ∧ p = ⟨name, "on"⟩ := by
  cases on <;> simp [switch]

@[simp] theorem mem_given {p : Parameter} {name : String} {value : Option String} :
    p ∈ given name value ↔ ∃ v, value = some v ∧ p = ⟨name, v⟩ := by
  cases value <;> simp [given]

end Parameter

namespace CommandOption

/-- Whether an option is of a kind and has a parameter. -/
def has (o : CommandOption) (kind name value : String) : Bool :=
  o.kind == kind && o.parameters.contains ⟨name, value⟩

theorem has_iff {o : CommandOption} {kind name value : String} :
    o.has kind name value = true ↔ o.kind = kind ∧ ⟨name, value⟩ ∈ o.parameters := by
  simp [has]

theorem filter_ite (p : CommandOption → Bool) {c : Prop} [Decidable c]
    (os os' : List CommandOption) :
    (if c then os else os').filter p = if c then os.filter p else os'.filter p :=
  apply_ite _ c os os'

/-- Options of one kind. -/
def ofKind (kind : String) (pss : List (List Parameter)) : List CommandOption :=
  pss.map (CommandOption.mk kind)

theorem filter_ofKind (k kind : String) (pss : List (List Parameter)) :
    (ofKind k pss).filter (·.kind == kind) = if k = kind then ofKind kind pss else [] := by
  by_cases hk : k = kind
  · rw [if_pos hk, List.filter_eq_self.2 (by simp [ofKind, hk]), hk]
  · rw [if_neg hk, List.filter_eq_nil_iff]
    simp [ofKind, hk]

theorem filter_sections {ss : List (String × List (List Parameter))} {kind : String}
    {pss : List (List Parameter)} (hss : (ss.map (·.1)).Nodup) (h : (kind, pss) ∈ ss) :
    (ss.flatMap fun s => ofKind s.1 s.2).filter (·.kind == kind) = ofKind kind pss := by
  induction ss with
  | nil => exact nomatch h
  | cons s rest ih =>
    obtain ⟨hnew, hrest⟩ := List.nodup_cons.1 hss
    rw [List.flatMap_cons, List.filter_append, filter_ofKind]
    rcases List.mem_cons.1 h with rfl | h
    · -- No later section is of this kind.
      have hnil : (rest.flatMap fun s => ofKind s.1 s.2).filter (·.kind == kind) = [] := by
        simp only [List.filter_flatMap, List.flatMap_eq_nil_iff, filter_ofKind]
        exact fun s hs => if_neg fun hk => hnew (List.mem_map.2 ⟨s, hs, hk⟩)
      rw [if_pos rfl, hnil, List.append_nil]
    · have hne : s.1 ≠ kind := fun hk => hnew (List.mem_map.2 ⟨(kind, pss), h, hk.symm⟩)
      rw [if_neg hne, List.nil_append, ih hrest h]

end CommandOption

open CommandOption

namespace Guest.Settings

/-- The kinds of options that settings are written as, apart from monitors. -/
def kinds : List String := ["uuid", "name", "enable-kvm", "nodefaults", "nographic", "machine",
  "cpu", "smp", "m", "rtc", "spice", "global", "boot"]

theorem monitor_or_kind_of_mem_options {s : Settings} {o : CommandOption} (h : o ∈ s.options) :
    (∃ m ∈ s.monitors, o = ⟨"mon", m.parameters⟩) ∨ o.kind ∈ kinds := by
  simp only [options, Identity.options, unlessEmpty, memoryOptions, List.mem_append, List.mem_map,
    List.mem_cons, List.mem_ite_nil_left, List.mem_ite_nil_right, List.not_mem_nil, or_false,
    or_assoc] at h
  rcases h with ⟨_, _, rfl⟩ | ⟨_, rfl⟩ | rfl | rfl | rfl | rfl | rfl | ⟨_, rfl⟩ | ⟨_, rfl⟩ |
    ⟨_, rfl⟩ | ⟨m, hm, rfl⟩ | ⟨_, rfl⟩ | ⟨_, _, rfl⟩ | rfl
  case inr.inr.inr.inr.inr.inr.inr.inr.inr.inr.inl => exact .inl ⟨m, hm, rfl⟩
  all_goals exact .inr (by simp [kinds])

theorem filter_mon (s : Settings) : s.options.filter (·.kind == "mon") =
    s.monitors.map fun m => ⟨"mon", m.parameters⟩ := by
  simp [options, Identity.options, unlessEmpty, memoryOptions, filter_ite, List.filter_map,
    Function.comp_def]

end Guest.Settings

namespace Target

/-- The kinds of options after the settings, each with the parameters of its options. -/
def sections (t : Target) : List (String × List (List Parameter)) := [
  ("object", t.resources.threads.map fun thread => [.bare "iothread", ⟨"id", thread.id⟩]),
  ("blockdev", t.resources.blocks.entries.map BlockNode.parameters),
  ("chardev", t.resources.charDevices.entries.map CharDevice.parameters),
  ("tpmdev", t.resources.tpmDevices.entries.map TpmDevice.parameters),
  ("netdev", t.resources.taps.map Tap.parameters),
  ("device", t.tree.topology.devices.flatMap TopLevel.allParameters)]

section Sections

variable (t : Target)

theorem thread_mem_sections : ("object", t.resources.threads.map fun thread =>
    [Parameter.bare "iothread", ⟨"id", thread.id⟩]) ∈ t.sections := by simp [sections]

theorem block_mem_sections :
    ("blockdev", t.resources.blocks.entries.map BlockNode.parameters) ∈ t.sections := by
  simp [sections]

theorem charDevice_mem_sections :
    ("chardev", t.resources.charDevices.entries.map CharDevice.parameters) ∈ t.sections := by
  simp [sections]

theorem tpmDevice_mem_sections :
    ("tpmdev", t.resources.tpmDevices.entries.map TpmDevice.parameters) ∈ t.sections := by
  simp [sections]

theorem tap_mem_sections : ("netdev", t.resources.taps.map Tap.parameters) ∈ t.sections := by
  simp [sections]

theorem device_mem_sections :
    ("device", t.tree.topology.devices.flatMap TopLevel.allParameters) ∈ t.sections := by
  simp [sections]

end Sections

theorem options_eq_sections (t : Target) :
    t.options = t.settings.options ++ t.sections.flatMap fun s => ofKind s.1 s.2 := by
  simp [options, Resources.options, Topology.options, sections, ofKind, Function.comp_def]

variable {t : Target} {kind : String} {pss : List (List Parameter)}

/-- Options of other kinds than those of the sections are among the settings. -/
theorem filter_options_settings (t : Target)
    (h : kind ∉ ["object", "blockdev", "chardev", "tpmdev", "netdev", "device"]) :
    t.options.filter (·.kind == kind) = t.settings.options.filter (·.kind == kind) := by
  have hsections : (t.sections.flatMap fun s => ofKind s.1 s.2).filter (·.kind == kind) = [] := by
    simp only [List.filter_flatMap, List.flatMap_eq_nil_iff, filter_ofKind]
    refine fun s hs => if_neg fun hkind => h ?_
    have hmem : s.1 ∈ t.sections.map (·.1) := List.mem_map.2 ⟨s, hs, rfl⟩
    exact hkind ▸ hmem
  rw [options_eq_sections, List.filter_append, hsections, List.append_nil]

theorem filter_options (h : (kind, pss) ∈ t.sections) :
    t.options.filter (·.kind == kind) = ofKind kind pss := by
  have hnew : kind ∉ "mon" :: Guest.Settings.kinds := by
    simp only [sections, List.mem_cons, Prod.mk.injEq, List.not_mem_nil, or_false] at h
    rcases h with ⟨rfl, -⟩ | ⟨rfl, -⟩ | ⟨rfl, -⟩ | ⟨rfl, -⟩ | ⟨rfl, -⟩ | ⟨rfl, -⟩ <;> decide
  have hsettings : t.settings.options.filter (·.kind == kind) = [] := by
    refine List.filter_eq_nil_iff.2 fun o ho hkind => hnew ?_
    rw [← beq_iff_eq.1 hkind]
    rcases Guest.Settings.monitor_or_kind_of_mem_options ho with ⟨m, -, rfl⟩ | hmem
    · exact List.mem_cons_self
    · exact List.mem_cons_of_mem _ hmem
  have hnodup : (t.sections.map (·.1)).Nodup := by
    change ["object", "blockdev", "chardev", "tpmdev", "netdev", "device"].Nodup
    decide
  rw [options_eq_sections, List.filter_append, hsettings, List.nil_append,
    filter_sections hnodup h]

theorem countP_options (h : (kind, pss) ∈ t.sections) (p : List Parameter → Bool) :
    t.options.countP (fun o => o.kind == kind && p o.parameters) = pss.countP p := by
  have hfilter : t.options.countP (fun o => o.kind == kind && p o.parameters) =
      (t.options.filter (·.kind == kind)).countP fun o => p o.parameters := by
    rw [List.countP_filter]
    exact List.countP_congr fun o _ => by rw [Bool.and_comm]
  rw [hfilter, filter_options h, ofKind, List.countP_map]
  rfl

theorem mem_section {o : CommandOption} (h : (kind, pss) ∈ t.sections) (ho : o ∈ t.options)
    (hkind : o.kind = kind) : o.parameters ∈ pss := by
  have hmem : o ∈ t.options.filter (·.kind == kind) :=
    List.mem_filter.2 ⟨ho, beq_iff_eq.2 hkind⟩
  rw [filter_options h] at hmem
  obtain ⟨ps, hps, rfl⟩ := List.mem_map.1 hmem
  exact hps

theorem mem_options {ps : List Parameter} (h : (kind, pss) ∈ t.sections) (hps : ps ∈ pss) :
    ⟨kind, ps⟩ ∈ t.options := by
  have hmem : ⟨kind, ps⟩ ∈ t.options.filter (·.kind == kind) := by
    rw [filter_options h]
    exact List.mem_map.2 ⟨ps, hps, rfl⟩
  exact (List.mem_filter.1 hmem).1

/-- What stands before an option in its section stands before it. -/
theorem split_section {o : CommandOption} {before after : List CommandOption}
    (h : (kind, pss) ∈ t.sections) (ho : t.options = before ++ o :: after) (hkind : o.kind = kind) :
    ∃ b a, pss = b ++ o.parameters :: a ∧ ∀ ps ∈ b, ⟨kind, ps⟩ ∈ before := by
  have hfilter := filter_options h
  rw [ho, List.filter_append, List.filter_cons, if_pos (beq_iff_eq.2 hkind)] at hfilter
  obtain ⟨b, rest, rfl, hb, hrest⟩ := List.map_eq_append_iff.1 hfilter.symm
  obtain ⟨ps, a, rfl, rfl, -⟩ := List.map_eq_cons_iff.1 hrest
  refine ⟨b, a, rfl, fun ps hps => ?_⟩
  exact (List.mem_filter.1 (hb ▸ List.mem_map.2 ⟨ps, hps, rfl⟩ : _ ∈ before.filter _)).1

/-- A monitor is written only among the settings. -/
theorem filter_options_mon (t : Target) : t.options.filter (·.kind == "mon") =
    t.settings.monitors.map fun m => ⟨"mon", m.parameters⟩ :=
  (filter_options_settings t (by decide)).trans t.settings.filter_mon

theorem monitor_of_mem_options {o : CommandOption} (ho : o ∈ t.options) (hkind : o.kind = "mon") :
    ∃ m ∈ t.settings.monitors, o = ⟨"mon", m.parameters⟩ := by
  have hmem : o ∈ t.options.filter (·.kind == "mon") :=
    List.mem_filter.2 ⟨ho, beq_iff_eq.2 hkind⟩
  rw [filter_options_mon] at hmem
  obtain ⟨m, hm, heq⟩ := List.mem_map.1 hmem
  exact ⟨m, hm, heq.symm⟩

end Target

end GuestCompiler
