import GuestCompiler.Proofs.Options
import GuestCompiler.Proofs.PlainText

/-!
# The shape of options

Whatever a target is made of, the parameters of its options have names without signs, or are lone
values that are not empty. Only the value of `-name` is a lone text from outside.
-/
namespace GuestCompiler

namespace Parameter

def Each (P : Parameter → Prop) (ps : List Parameter) : Prop := ∀ p ∈ ps, P p

section Each

variable {P : Parameter → Prop} {ps qs : List Parameter}

@[simp] theorem each_nil : Each P [] := nofun

@[simp] theorem each_cons {p : Parameter} : Each P (p :: ps) ↔ P p ∧ Each P ps :=
  List.forall_mem_cons

@[simp] theorem each_append : Each P (ps ++ qs) ↔ Each P ps ∧ Each P qs := List.forall_mem_append

@[simp] theorem each_switch {name : String} {on : Bool} :
    Each P (switch name on) ↔ (on = true → P ⟨name, "on"⟩) := by
  cases on <;> simp [switch]

@[simp] theorem each_given {name : String} {value : Option String} :
    Each P (given name value) ↔ ∀ v, value = some v → P ⟨name, v⟩ := by
  cases value <;> simp [given]

@[simp] theorem each_ite {c : Prop} [Decidable c] :
    Each P (if c then ps else qs) ↔ (c → Each P ps) ∧ (¬ c → Each P qs) := by
  by_cases hc : c <;> simp [hc]

end Each

@[simp] theorem value_flag (name : String) : (flag name).value = "" := rfl

@[simp] theorem value_bare (value : String) : (bare value).value = value := rfl

@[simp] theorem value_number (name : String) (n : Nat) : (number name n).value = toString n := rfl

@[simp] theorem legible_mk {name value : String} (h : Key name) : Legible ⟨name, value⟩ := .inl h

@[simp] theorem legible_flag {name : String} (h : Key name) : (flag name).Legible := .inl h

@[simp] theorem legible_number {name : String} {n : Nat} (h : Key name) : (number name n).Legible :=
  .inl h

@[simp] theorem legible_bare {value : String} (h : value ≠ "" ∧ '=' ∉ value.toList) :
    (bare value).Legible := .inr ⟨rfl, h⟩

end Parameter

open Parameter

theorem NodeFlags.legible_parameters (f : NodeFlags) : Each Legible f.parameters := by
  simp only [parameters, each_append, each_switch, each_ite]
  cases f.detectZeroes <;> simp (disch := decide)

theorem BlockNode.legible_parameters (n : BlockNode) : Each Legible n.parameters := by
  have hflags := NodeFlags.legible_parameters
  cases n <;> simp (disch := decide) [parameters, hflags]

theorem CharDevice.legible_parameters (d : CharDevice) : Each Legible d.parameters := by
  cases d <;> simp (disch := decide) [parameters, backend]

theorem TpmDevice.legible_parameters (d : TpmDevice) : Each Legible d.parameters := by
  cases d <;> simp (disch := decide) [parameters, backend]

theorem Tap.legible_parameters (t : Tap) : Each Legible t.parameters := by
  simp (disch := decide) [parameters]

theorem IoThread.legible_parameters (t : IoThread) :
    Each Legible [.bare "iothread", ⟨"id", t.id⟩] := by
  simp (disch := decide)

theorem PciAddress.legible_parameters (a : PciAddress) : Each Legible a.parameters := by
  simp (disch := decide) [parameters]

theorem legible_bootParameter (bootIndex : Option Nat) :
    Each Legible (bootParameter bootIndex) := by
  simp (disch := decide) [bootParameter]

theorem Endpoint.legible_ownParameters (e : Endpoint) : Each Legible e.ownParameters := by
  have hboot := legible_bootParameter
  cases e <;> simp (disch := decide) [ownParameters, scsiParameters, hboot]

theorem Controller.legible_parameters (c : Controller) : Each Legible c.parameters := by
  simp only [parameters, kindParameters, each_append]
  cases c.kind <;> simp (disch := decide)

theorem Controller.legible_endpointParameters (c : Controller) :
    ∀ ps ∈ c.endpointParameters, Each Legible ps := by
  intro ps hps
  obtain ⟨i, hi, rfl⟩ := List.mem_mapIdx.1 hps
  have hown := Endpoint.legible_ownParameters
  simp (disch := decide) [hown]

theorem Downstream.legible_parameters (d : Downstream) : Each Legible d.parameters := by
  have hboot := legible_bootParameter
  cases d with
  | controller c => exact c.legible_parameters
  | _ => simp (disch := decide) [parameters, hboot]

theorem TopLevel.legible_parameters (d : TopLevel) : Each Legible d.parameters := by
  have hboot := legible_bootParameter
  have haddress := PciAddress.legible_parameters
  cases d <;> simp (disch := decide) [parameters, RootPort.parameters, hboot, haddress]

theorem TopLevel.legible_allParameters (d : TopLevel) :
    ∀ ps ∈ d.allParameters, Each Legible ps := by
  simp only [allParameters, List.forall_mem_cons]
  refine ⟨d.legible_parameters, ?_⟩
  cases d.downstream? with
  | none => exact List.forall_mem_nil _
  | some device =>
    cases device with
    | controller c =>
      exact List.forall_mem_cons.2 ⟨c.legible_parameters, c.legible_endpointParameters⟩
    | _ => exact List.forall_mem_singleton.2 (Downstream.legible_parameters _)

namespace Guest

theorem Processor.legible_parameters (p : Processor) : Each Legible p.parameters := by
  simp (disch := decide) [parameters, enlightenments]

theorem Processor.legible_layout (p : Processor) : Each Legible p.layout := by
  simp (disch := decide) [layout, count]

theorem Clock.legible_parameters (c : Clock) : Each Legible c.parameters := by
  simp (disch := decide) [parameters]

theorem Firmware.legible_parameters (f : Firmware) : Each Legible f.parameters := by
  rw [parameters]
  cases f.code <;> simp (disch := decide)

theorem Spice.legible_parameters (s : Spice) : Each Legible s.parameters := by
  simp (disch := decide) [parameters]

theorem Monitor.legible_parameters (m : Monitor) : Each Legible m.parameters := by
  simp (disch := decide) [parameters]

theorem Global.legible_parameters (g : Global) : Each Legible g.parameters := by
  simp (disch := decide) [parameters]

/-- The option that shows a guest's name. -/
def Identity.nameOption (i : Identity) : CommandOption := ⟨"name", [.bare i.name]⟩

/-- The options that settings are written as, one case for each kind with parameters. -/
inductive Settings.Writes (s : Settings) : CommandOption → Prop
  | id (id : Uuid) : Writes s ⟨"uuid", [.bare id.toString]⟩
  | name (h : s.identity.name ≠ "") : Writes s s.identity.nameOption
  | bare (kind : String) : Writes s ⟨kind, []⟩
  | machine : Writes s
      ⟨"machine", ⟨"type", "q35"⟩ :: (s.spice.machineParameters ++ s.firmware.parameters)⟩
  | processor : Writes s ⟨"cpu", s.processor.parameters⟩
  | layout : Writes s ⟨"smp", s.processor.layout⟩
  | memory : Writes s ⟨"m", [⟨"size", toString s.memory.toNat ++ "M"⟩]⟩
  | clock : Writes s ⟨"rtc", s.clock.parameters⟩
  | monitor (m : Monitor) (h : m ∈ s.monitors) : Writes s ⟨"mon", m.parameters⟩
  | spice : Writes s ⟨"spice", s.spice.parameters⟩
  | global (g : Global) (h : g ∈ s.globals) : Writes s ⟨"global", g.parameters⟩
  | boot : Writes s ⟨"boot", [⟨"menu", "on"⟩, .number "reboot-timeout" 5000]⟩

theorem Settings.writes_of_mem_options {s : Settings} {o : CommandOption} (h : o ∈ s.options) :
    s.Writes o := by
  simp only [options, Identity.options, unlessEmpty, memoryOptions, List.mem_append, List.mem_map,
    List.mem_cons, List.mem_ite_nil_left, List.mem_ite_nil_right, List.not_mem_nil, or_false,
    or_assoc] at h
  rcases h with ⟨id, _, rfl⟩ | ⟨hname, rfl⟩ | rfl | rfl | rfl | rfl | rfl | ⟨_, rfl⟩ | ⟨_, rfl⟩ |
    ⟨_, rfl⟩ | ⟨m, hm, rfl⟩ | ⟨_, rfl⟩ | ⟨g, hg, rfl⟩ | rfl
  · exact .id id
  · exact .name hname
  · exact .bare "enable-kvm"
  · exact .bare "nodefaults"
  · exact .bare "nographic"
  · exact .machine
  · exact .processor
  · exact .layout
  · exact .memory
  · exact .clock
  · exact .monitor m hm
  · exact .spice
  · exact .global g hg
  · exact .boot

theorem Settings.name_or_legible {s : Settings} {o : CommandOption} (h : o ∈ s.options) :
    (o = s.identity.nameOption ∧ s.identity.name ≠ "") ∨ Each Legible o.parameters := by
  cases writes_of_mem_options h with
  | name hname => exact .inl ⟨rfl, hname⟩
  | id id =>
    have hid : id.toString ≠ "" ∧ '=' ∉ id.toString.toList :=
      ⟨id.toString_ne_empty, id.not_mem_toString (.inr rfl)⟩
    exact .inr (each_cons.2 ⟨legible_bare hid, each_nil⟩)
  | bare kind => exact .inr each_nil
  | machine =>
    have hflash := s.firmware.legible_parameters
    exact .inr (by simp (disch := decide) [Spice.machineParameters, hflash])
  | processor => exact .inr s.processor.legible_parameters
  | layout => exact .inr s.processor.legible_layout
  | memory => exact .inr (by simp (disch := decide))
  | clock => exact .inr s.clock.legible_parameters
  | monitor m hm => exact .inr m.legible_parameters
  | spice => exact .inr s.spice.legible_parameters
  | global g hg => exact .inr g.legible_parameters
  | boot => exact .inr (by simp (disch := decide))

end Guest

theorem Resources.legible_options {r : Resources} {o : CommandOption} (h : o ∈ r.options) :
    Each Legible o.parameters := by
  simp only [options, List.mem_append, List.mem_map, or_assoc] at h
  rcases h with ⟨thread, _, rfl⟩ | ⟨n, _, rfl⟩ | ⟨d, _, rfl⟩ | ⟨d, _, rfl⟩ | ⟨tap, _, rfl⟩
  · exact thread.legible_parameters
  · exact n.legible_parameters
  · exact d.legible_parameters
  · exact d.legible_parameters
  · exact tap.legible_parameters

theorem Topology.legible_options {t : Topology} {o : CommandOption} (h : o ∈ t.options) :
    Each Legible o.parameters := by
  obtain ⟨ps, hps, rfl⟩ := List.mem_map.1 h
  obtain ⟨d, _, hd⟩ := List.mem_flatMap.1 hps
  exact d.legible_allParameters ps hd

/-- A lone text from outside is only in the option of the name. -/
theorem Target.name_or_legible {t : Target} {o : CommandOption} (h : o ∈ t.options) :
    (o = t.settings.identity.nameOption ∧ t.settings.identity.name ≠ "") ∨
      Each Legible o.parameters := by
  rcases List.mem_append.1 h with hfront | htopology
  · rcases List.mem_append.1 hfront with hsettings | hresources
    · exact Guest.Settings.name_or_legible hsettings
    · exact .inr (Resources.legible_options hresources)
  · exact .inr (Topology.legible_options htopology)

theorem Target.shaped_options {t : Target} {o : CommandOption} (h : o ∈ t.options) :
    Each Shaped o.parameters := by
  rcases name_or_legible h with ⟨rfl, hname⟩ | hlegible
  · exact each_cons.2 ⟨.inr ⟨rfl, hname⟩, each_nil⟩
  · exact fun p hp => (hlegible p hp).shaped

end GuestCompiler
