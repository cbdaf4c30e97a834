import GuestCompiler.Proofs.BuildListing
import GuestCompiler.Proofs.Identities
import GuestCompiler.Proofs.NameMaps
import GuestCompiler.Proofs.WiringBuild

/-!
# Catalogs that take in more

A build looks things up in the host's catalog by name, or asks whether anything in it supplies a
class of devices. What is found once is found in every catalog that has more beside it, so a machine
that builds goes on to build as it did, provided that its processor is still the same one
(`Machine.build_absorb`).
-/
namespace GuestCompiler

open Edit

namespace Catalog

/-- All that a catalog offers, another one offers too. -/
structure Within (c c' : Catalog) : Prop where
  pools : c.pools.Le c'.pools
  networks : c.networks.Le c'.networks
  mediatedDevices : c.mediatedDevices.Le c'.mediatedDevices
  processors : c.processors.Le c'.processors
  tags : c.tags.Le c'.tags

theorem within_absorb (c other : Catalog) : c.Within (c.absorb other) where
  pools := NameMap.le_fill _ _
  networks := NameMap.le_fill _ _
  mediatedDevices := NameMap.le_fill _ _
  processors := NameMap.le_fill _ _
  tags := NameMap.le_fill _ _

variable {c c' : Catalog}

theorem devicesOfClass_eq_nil_iff {deviceClass : String} : c.devicesOfClass deviceClass = [] ↔
    ∀ name d, c.mediatedDevices.get? name = some d → d.classes.contains deviceClass = false := by
  rw [devicesOfClass, ← List.length_eq_zero_iff, List.length_mergeSort, List.length_eq_zero_iff,
    List.filter_eq_nil_iff]
  simp only [NameMap.mem_values_iff, Bool.not_eq_true, forall_exists_index]
  exact forall_comm

/-- A class that is supplied is supplied by more. -/
theorem Within.devicesOfClass_ne_nil (h : c.Within c') {deviceClass : String}
    (hclass : c.devicesOfClass deviceClass ≠ []) : c'.devicesOfClass deviceClass ≠ [] := by
  refine mt (fun hnil => ?_) hclass
  rw [devicesOfClass_eq_nil_iff] at hnil ⊢
  exact fun name d hd => hnil name d (h.mediatedDevices name d hd)

theorem Within.collectTags (h : c.Within c') {machine : String} {names : List String}
    {tags : List Definition} (htags : c.collectTags machine names = .ok tags) :
    c'.collectTags machine names = .ok tags :=
  collectTags_eq_ok_iff.2 ((collectTags_eq_ok_iff.1 htags).imp fun name d => h.tags name d)

end Catalog

theorem Machine.resolve_within {c c' : Catalog} (h : c.Within c') {m : Machine} {d : Definition}
    (hd : m.resolve c = .ok d) : m.resolve c' = .ok d := by
  obtain ⟨tags, htags, rfl⟩ := resolve_eq_ok_iff.1 hd
  exact resolve_eq_ok_iff.2 ⟨tags, h.collectTags htags, rfl⟩

namespace Build

variable {c c' : Catalog} {machine : MachineInfo}

theorem hostProcessor?_within (h : c.Within c') {name : String} {cpu : Cpu}
    (hname : processorName cpu c' = processorName cpu c) {host : Option Processor}
    (hhost : hostProcessor? name cpu c = .ok host) : hostProcessor? name cpu c' = .ok host := by
  unfold hostProcessor? at hhost ⊢
  rw [hname]
  by_cases hempty : processorName cpu c = ""
  · rw [if_pos hempty] at hhost ⊢
    exact hhost
  · rw [if_neg hempty] at hhost ⊢
    cases hfound : c.processors.get? (processorName cpu c) with
    | none => rw [hfound] at hhost; cases hhost
    | some p =>
      rw [hfound] at hhost
      rw [h.processors _ p hfound]
      exact hhost

theorem resolve_within {pools pools' : NameMap Pool} (h : pools.Le pools') (v : Volume)
    (placed : PlacedVolume) (hplaced : PlacedVolume.resolve machine v pools = .ok placed) :
    PlacedVolume.resolve machine v pools' = .ok placed := by
  unfold PlacedVolume.resolve at hplaced ⊢
  cases hpool : pools.get? v.storage with
  | none => rw [hpool] at hplaced; cases hplaced
  | some pool =>
    rw [hpool] at hplaced
    rw [h _ pool hpool]
    exact hplaced

/-- The processor of a machine that names none is the first of the default ones, which is another
one only if there are new ones. -/
theorem processorName_absorb {cpu : Cpu} {other : Catalog}
    (h : cpu.processor ≠ "" ∨
      ∀ name, other.processors.contains name = true → c.processors.contains name = true) :
    processorName cpu (c.absorb other) = processorName cpu c := by
  rcases h with hnamed | hknown
  · simp only [processorName, orText, if_neg hnamed]
  · have hsame : (c.absorb other).processors = c.processors := NameMap.fill_eq_self hknown
    simp only [processorName, Catalog.defaultProcessor?, hsame]

end Build

section Steps

open BuildStep

variable {c c' : Catalog} {machine : MachineInfo}

/-- Steps that are the same as others up to a look-up that fails. -/
abbrev BuildStep.Repeats (steps again : List BuildStep) : Prop :=
  Lists (fun step => [step]) steps again

theorem BuildStep.Lists.same (steps : List BuildStep) : Repeats steps steps := by
  simpa using lists_flatMap (fun step : BuildStep => [step]) steps

theorem BuildStep.Lists.replays {steps again : List BuildStep} (h : Repeats steps again) :
    Replays (run steps) (run again) := by
  induction h with
  | nil => exact .refl _
  | cons step _ ih => exact .bind (.refl step.edit) fun _ => ih
  | missing h steps again => exact fun _ _ _ hrun => nomatch hrun

theorem BuildStep.repeats_lookup {α : Type} {answer answer' : Except Error α}
    {h : ∀ e, answer = .error e → Unfound e} {h' : ∀ e, answer' = .error e → Unfound e}
    (hok : ∀ a, answer = .ok a → answer' = .ok a) (steps : α → List BuildStep) :
    Repeats (lookup answer h steps) (lookup answer' h' steps) := by
  refine lists_lookup fun a ha => ?_
  cases hok a ha
  exact .same _

theorem Volume.steps_within {pools pools' : NameMap Pool} (h : pools.Le pools') (v : Volume)
    (refer : String → List SettingStep) :
    Repeats (v.steps machine pools refer) (v.steps machine pools' refer) :=
  repeats_lookup (Build.resolve_within h v) _

theorem Firmware.steps_within {pools pools' : NameMap Pool} (h : pools.Le pools') (f : Firmware) :
    Repeats (f.steps machine pools) (f.steps machine pools') := by
  unfold steps
  split
  · exact .same _
  · refine (f.code.steps_within h _).append (.append ?_ (.same _))
    split
    · exact .same _
    · exact f.vars.steps_within h _

theorem Connection.steps_within {networks networks' : NameMap Network} (h : networks.Le networks')
    (x : Connection) : Repeats (x.steps machine networks) (x.steps machine networks') := by
  unfold steps
  cases hnetwork : networks.get? x.network with
  | none => exact .missing _ _ _
  | some network =>
    rw [h _ network hnetwork]
    exact .same _

theorem Device.steps_within (h : c.Within c') (d : Device) :
    Repeats (d.steps c) (d.steps c') := by
  unfold steps
  by_cases hclass : c.devicesOfClass d.deviceClass = []
  · rw [if_pos hclass]
    exact .missing _ _ _
  · rw [if_neg hclass, if_neg (h.devicesOfClass_ne_nil hclass)]
    exact .same _

theorem Definition.steps_within (h : c.Within c') {d : Definition} {locations : Locations}
    (hname : Build.processorName d.attributes.cpu c' = Build.processorName d.attributes.cpu c) :
    Repeats (d.steps machine c locations) (d.steps machine c' locations) := by
  refine .append (.same _) (.append (Firmware.steps_within h.pools _) (.append ?_ (.append ?_
    (.append ?_ ?_))))
  · exact .append (repeats_lookup (fun _ => Build.hostProcessor?_within h hname) _) (.same _)
  · exact .forall fun v _ => v.steps_within h.pools _
  · exact .forall fun x _ => x.steps_within h.networks
  · exact .forall fun v _ => v.steps_within h

end Steps

/-- A machine that builds builds in the same way when the host's catalog takes in another one, if it
names its processor or no new processors come. -/
theorem Machine.build_absorb {m : Machine} {catalog other : Catalog} {locations : Locations}
    {d : Definition} {t : Target} (hd : m.resolve catalog = .ok d)
    (hprocessor : d.attributes.cpu.processor ≠ "" ∨ ∀ name,
      other.processors.contains name = true → catalog.processors.contains name = true)
    (h : m.build catalog locations = .ok t) :
    m.build (catalog.absorb other) locations = .ok t := by
  have hwithin := catalog.within_absorb other
  obtain ⟨_, hresolve, hrun⟩ := addDefinition_of_build h
  cases hd.symm.trans hresolve
  rw [Build.addDefinition_eq] at hrun
  have hagain := (Definition.steps_within hwithin (Build.processorName_absorb hprocessor)).replays
    _ _ _ hrun
  rw [← Build.addDefinition_eq] at hagain
  exact build_of_addDefinition (Machine.resolve_within hwithin hd) hagain

namespace Sample

/-- The host with one processor. -/
def rack : Catalog :=
  { host with processors := .ofList [("xeon", { brand := "Intel", threads := 2 })] }

/-- Another processor, which is preferred, and a pool of a name that is taken. -/
def upgrade : Catalog where
  processors := .ofList [("epyc", { brand := "AMD", isDefault := true })]
  pools := .ofList [("images", { path := ⟨"/srv/images"⟩, kind := "raw-block" })]

/-- The machine with something on every bus, on a processor of its choice. -/
def pinned : Machine := { desktop with definition := { desktop.definition with
  attributes := { desktop.definition.attributes with cpu := { processor := "xeon" } } } }

theorem pinned_absorb : ∃ t, pinned.build rack {} = .ok t ∧
    pinned.build (rack.absorb upgrade) {} = .ok t := by
  have hok : (pinned.build rack {}).toOption.any (fun _ => true) = true := by decide +kernel
  have hd : pinned.resolve rack = .ok ((Definition.merge [pinned.definition]).populate
      pinned.name pinned.info.seed) := rfl
  obtain ⟨t, ht, -⟩ := exists_of_any hok
  exact ⟨t, ht, Machine.build_absorb hd (.inl (by decide)) ht⟩

/-- A machine that leaves the choice to the host is moved to the new processor. -/
example : Build.processorName {} rack = "xeon" ∧
    Build.processorName {} (rack.absorb upgrade) = "epyc" := by decide

end Sample

end GuestCompiler
