import GuestCompiler.Proofs.Ledger

/-!
# The settings of a guest

Where all that a definition refers to is found, the settings of its guest are told by the definition
and by what has been found: the nodes of its firmware, a processor of the host and a port for the
display (`Definition.settings`).
-/
namespace GuestCompiler

open BuildStep

section Definitions

variable (machine : MachineInfo) (pools : NameMap Pool)

/-- The name of a volume's block node, as references write it. -/
def Volume.nodeName? (v : Volume) : Option String :=
  (v.placed? machine pools).map fun x => x.1.nodeName x.2

/-- The nodes that a machine with the firmware refers to. -/
def Firmware.flash (f : Firmware) : Guest.Firmware :=
  if f.code.isEmpty then {}
  else {
    code := f.code.nodeName? machine pools
    vars := if f.vars.isEmpty then none else f.vars.nodeName? machine pools }

/-- With firmware, its flash is written to in the secure state only. -/
def Firmware.globals (f : Firmware) (gs : List Guest.Global) : List Guest.Global :=
  if f.code.isEmpty then gs else Guest.Global.add gs ⟨"cfi.pflash01", "secure", "on"⟩

end Definitions

namespace Build

def monitorIds (paths : List Path) : List String :=
  paths.zipIdx.map fun x => "qmp." ++ toString x.2

end Build

def Qmp.monitorIds (name : String) (runDir : Path) (q : Qmp) : List String :=
  if q.enabled then Build.monitorIds (q.socketPaths runDir name) else []

/-- What attributes set, by the processor of the host and by the port of the display. -/
def Attributes.settle (name : String) (runDir : Path) (host : Option Processor) (port : Option Nat)
    (a : Attributes) (s : Guest.Settings) : Guest.Settings := { s with
  processor := Build.guestProcessor a.cpu host a.enlightenments
  memory := a.ram
  monitors := s.monitors ++ (a.qmp.monitorIds name runDir).map fun id => { charDevice := id }
  spice := if a.spice.enabled then .listening port else s.spice
  globals :=
    if a.spice.enabled then Build.displayGlobals.foldl Guest.Global.add s.globals else s.globals }

/-- What is looked up for attributes is found: a processor where one is meant, and ports. -/
structure Attributes.Finds (name : String) (vars : Vars) (catalog : Catalog)
    (host : Option Processor) (port : Option Nat) (a : Attributes) : Prop where
  processor : Build.hostProcessor? name a.cpu catalog = .ok host
  agent : a.agent.enabled = true → ∃ p, Build.agentPort a.agent vars = .ok p
  display : a.spice.enabled = true →
    Build.effectivePort "SPICE" a.spice.port a.spice.portPattern vars = .ok port

def Definition.settings (machine : MachineInfo) (pools : NameMap Pool) (runDir : Path)
    (host : Option Processor) (port : Option Nat) (d : Definition) : Guest.Settings :=
  d.attributes.settle machine.name runDir host port {
    identity := ⟨machine.name, some machine.id⟩
    clock := Build.clock
    firmware := d.attributes.firmware.flash machine pools
    globals := d.attributes.firmware.globals [] }

section Steps

variable {machine : MachineInfo} {pools : NameMap Pool}

theorem Volume.steps_of_complete {v : Volume} {refer : String → List SettingStep}
    (h : Complete (v.steps machine pools refer)) : ∃ a p, v.placed? machine pools = some (a, p) ∧
      v.steps machine pools refer = (refer (a.nodeName p)).map .setting ++ [.volume a p] := by
  obtain ⟨p, hp, h, hsteps⟩ := complete_lookup h
  obtain ⟨a, ha, -, hsteps'⟩ := complete_lookup h
  exact ⟨a, p, placed?_of_ok hp ha, hsteps.trans hsteps'⟩

theorem Volume.settle_steps {v : Volume} {refer : String → List SettingStep}
    (h : Complete (v.steps machine pools refer)) : ∃ node, v.nodeName? machine pools = some node ∧
      ∀ s, (allEntries (v.steps machine pools refer)).settle s =
        (refer node).foldl (fun s step => step.change s) s := by
  obtain ⟨a, p, hplaced, hsteps⟩ := steps_of_complete h
  refine ⟨a.nodeName p, by simp [nodeName?, hplaced], fun s => ?_⟩
  rw [hsteps, allEntries_append, Entries.settle_append]
  exact List.foldl_map ..

theorem Firmware.settle_steps {f : Firmware} (h : Complete (f.steps machine pools))
    {s : Guest.Settings} (hs : s.firmware = {}) : (allEntries (f.steps machine pools)).settle s =
      { s with firmware := f.flash machine pools, globals := f.globals s.globals } := by
  unfold steps at h ⊢
  unfold flash globals
  cases hcode : f.code.isEmpty with
  | true =>
    rw [if_pos rfl, if_pos rfl, if_pos rfl, ← hs]
    rfl
  | false =>
    rw [hcode, if_neg Bool.false_ne_true, complete_append] at h
    obtain ⟨code, hname, hfirst⟩ := Volume.settle_steps h.1
    cases hvars : f.vars.isEmpty with
    | true => simp [hfirst, hname, hs, entries, SettingStep.change]
    | false =>
      rw [hvars, if_neg Bool.false_ne_true, complete_append] at h
      obtain ⟨vars, hname', hsecond⟩ := Volume.settle_steps h.2.1
      simp [hfirst, hsecond, hname, hname', hs, entries, SettingStep.change]

theorem Qmp.settle_steps (name : String) (runDir : Path) (q : Qmp) (s : Guest.Settings) :
    (allEntries (q.steps name runDir)).settle s = { s with
      monitors := s.monitors ++
        (q.monitorIds name runDir).map fun id => { charDevice := id } } := by
  unfold steps monitorIds
  split
  · unfold Build.monitorIds
    induction (q.socketPaths runDir name).zipIdx generalizing s with
    | nil => simp
    | cons x xs ih =>
      rw [List.map_cons, allEntries_cons, Entries.settle_append, ih]
      simp [entries]
  · simp

theorem Agent.settle_steps {a : Agent} {vars : Vars} (h : Complete (a.steps vars)) :
    (∀ s, (allEntries (a.steps vars)).settle s = s) ∧
      (a.enabled = true → ∃ p, Build.agentPort a vars = .ok p) := by
  unfold steps at h ⊢
  split
  · rename_i henabled
    rw [if_pos henabled] at h
    obtain ⟨p, hp, -, hsteps⟩ := complete_lookup h
    rw [hsteps]
    exact ⟨fun _ => rfl, fun _ => ⟨p, hp⟩⟩
  · rename_i henabled
    exact ⟨fun _ => rfl, fun h => absurd h henabled⟩

theorem Spice.settle_steps {sp : Spice} {vars : Vars} (h : Complete (sp.steps vars)) :
    ∃ port, (sp.enabled = true →
        Build.effectivePort "SPICE" sp.port sp.portPattern vars = .ok port) ∧
      ∀ s, (allEntries (sp.steps vars)).settle s = { s with
        spice := if sp.enabled then .listening port else s.spice
        globals := if sp.enabled then Build.displayGlobals.foldl Guest.Global.add s.globals
          else s.globals } := by
  have hdisplays (n : Nat) (s : Guest.Settings) :
      (allEntries (List.replicate n .display)).settle s = s := by
    induction n with
    | zero => rfl
    | succ n ih => exact ih
  unfold steps at h ⊢
  split
  · rename_i henabled
    rw [if_pos henabled] at h
    obtain ⟨port, hport, -, hsteps⟩ := complete_lookup h
    refine ⟨port, fun _ => hport, fun s => ?_⟩
    rw [hsteps]
    simp [hdisplays, entries, SettingStep.change]
  · rename_i henabled
    exact ⟨none, fun h => absurd h henabled, fun s => by simp⟩

theorem Attributes.settle_steps {a : Attributes} {name : String} {vars : Vars} {catalog : Catalog}
    {runDir : Path} (h : Complete (a.steps name vars catalog runDir)) :
    ∃ host port, a.Finds name vars catalog host port ∧
      ∀ s, (allEntries (a.steps name vars catalog runDir)).settle s =
        a.settle name runDir host port s := by
  unfold steps at h ⊢
  simp only [complete_append, complete_cons] at h
  obtain ⟨hprocessor, -, hqmp, hagent, hspice, htpm⟩ := h
  obtain ⟨host, hhost, -, hfirst⟩ := complete_lookup hprocessor
  obtain ⟨port, hport, hdisplay⟩ := Spice.settle_steps hspice
  obtain ⟨hidle, hfound⟩ := Agent.settle_steps hagent
  refine ⟨host, port, ⟨hhost, hfound, hport⟩, fun s => ?_⟩
  have hmodule (s : Guest.Settings) : (allEntries
      (if a.tpm then [.securityModule (tpmSocketPath runDir name)] else [])).settle s = s := by
    split <;> rfl
  rw [hfirst]
  simp [hmodule, hdisplay, hidle, Qmp.settle_steps, settle, entries, SettingStep.change]

theorem Connection.settle_steps {networks : NameMap Network} (c : Connection) (s : Guest.Settings) :
    (allEntries (c.steps machine networks)).settle s = s := by
  unfold steps
  split <;> rfl

theorem Device.settle_steps {catalog : Catalog} (v : Device) (s : Guest.Settings) :
    (allEntries (v.steps catalog)).settle s = s := by
  unfold steps
  split
  · rfl
  · split <;> rfl

theorem settle_flatMap {α : Type} {l : List α} {steps : α → List BuildStep}
    (h : ∀ a ∈ l, ∀ s, (allEntries (steps a)).settle s = s) (s : Guest.Settings) :
    (allEntries (l.flatMap steps)).settle s = s := by
  induction l with
  | nil => rfl
  | cons a l ih =>
    obtain ⟨ha, hl⟩ := List.forall_mem_cons.1 h
    rw [List.flatMap_cons, allEntries_append, Entries.settle_append, ha, ih hl]

end Steps

section Definitions

variable {machine : MachineInfo} {catalog : Catalog} {locations : Locations} {d : Definition}

theorem Definition.placed_of_complete (h : Complete (d.steps machine catalog locations)) :
    ∀ v ∈ d.attached, (v.placed? machine catalog.pools).isSome = true := by
  have hplaced {v : Volume} {refer : String → List SettingStep}
      (h : Complete (v.steps machine catalog.pools refer)) :
      (v.placed? machine catalog.pools).isSome = true := by
    obtain ⟨a, p, hplaced, -⟩ := Volume.steps_of_complete h
    rw [hplaced]
    rfl
  simp only [steps, entrySteps, complete_append, complete_flatMap] at h
  obtain ⟨-, hfirmware, -, hvolumes, -⟩ := h
  refine List.forall_mem_append.2 ⟨?_, fun v hv => hplaced (hvolumes v hv)⟩
  unfold Firmware.steps at hfirmware
  unfold Firmware.used
  cases hcode : d.attributes.firmware.code.isEmpty with
  | true => exact List.forall_mem_nil _
  | false =>
    rw [hcode, if_neg Bool.false_ne_true, complete_append] at hfirmware
    refine List.forall_mem_cons.2 ⟨hplaced hfirmware.1, ?_⟩
    cases hvars : d.attributes.firmware.vars.isEmpty with
    | true => exact List.forall_mem_nil _
    | false =>
      rw [hvars, if_neg Bool.false_ne_true, complete_append] at hfirmware
      exact List.forall_mem_singleton.2 (hplaced hfirmware.2.1)

theorem Definition.settle_steps (h : Complete (d.steps machine catalog locations)) :
    ∃ host port,
      d.attributes.Finds machine.name (Vars.merge [machine.vars, d.vars]) catalog host port ∧
      (allEntries (d.steps machine catalog locations)).settle {} =
        d.settings machine catalog.pools locations.runDir host port := by
  simp only [steps, entrySteps, complete_append, complete_flatMap] at h
  obtain ⟨-, hfirmware, hattributes, hvolumes, -, -⟩ := h
  obtain ⟨host, port, hfinds, hsettle⟩ := Attributes.settle_steps hattributes
  refine ⟨host, port, hfinds, ?_⟩
  have hvolume (v : Volume) (hv : v ∈ d.volumes) (s : Guest.Settings) :
      (allEntries (v.steps machine catalog.pools fun _ => [])).settle s = s := by
    obtain ⟨node, -, hnode⟩ := Volume.settle_steps (hvolumes v hv)
    exact hnode s
  have hentries (s : Guest.Settings) : (allEntries (entrySteps machine catalog d.volumes
      d.connections d.devices)).settle s = s := by
    simp only [entrySteps, allEntries_append, Entries.settle_append]
    rw [settle_flatMap hvolume, settle_flatMap fun c _ => c.settle_steps,
      settle_flatMap fun v _ => v.settle_steps]
  simp only [steps, allEntries_append, Entries.settle_append, hentries, hsettle]
  rw [Firmware.settle_steps hfirmware rfl]
  rfl

end Definitions

namespace Machine

variable {m : Machine} {catalog : Catalog} {locations : Locations} {d : Definition} {t : Target}

/-- The settings of what a build answers. -/
theorem settings_of_build (hd : m.resolve catalog = .ok d) (h : m.build catalog locations = .ok t) :
    ∃ host port,
      d.attributes.Finds m.name (Vars.merge [m.info.vars, d.vars]) catalog host port ∧
      t.settings = d.settings m.info catalog.pools locations.runDir host port := by
  obtain ⟨hall, -, hledger⟩ := ledger_of_build hd h
  obtain ⟨host, port, hfinds, hsettle⟩ := Definition.settle_steps hall
  exact ⟨host, port, hfinds, (congrArg Ledger.settings hledger).trans hsettle⟩

end Machine

end GuestCompiler
