import GuestCompiler.Proofs.Monitors
import GuestCompiler.Proofs.Numerals

/-!
# Ports of a guest

The agent and the remote display of a guest listen on ports of the host. The port that is set is
taken, and else the one that a pattern names by the values of the machine; what the machine is
stands before what is configured under the same name. So a build comes to ports only as the
definition has them, each from 1 to 65535 (`Machine.build_ports`).
-/
namespace GuestCompiler

open CommandOption Parameter Edit

section Values

variable {vars : Vars} {pattern : String}

/-- What a name stands for in the patterns of a machine. -/
def MachineInfo.valueOf (machine : MachineInfo) (configured : Vars) (name : String) : String :=
  if name = "machine-name" then machine.name
  else if name = "machine-description" then machine.description
  else if name = "machine-id" then machine.id.toString
  else configured.lookup name

theorem MachineInfo.get?_vars (machine : MachineInfo) (name : String) : machine.vars.get? name =
    if name = "machine-id" then some machine.id.toString
    else if name = "machine-description" then some machine.description
    else if name = "machine-name" then some machine.name else none := by
  simp only [vars, NameMap.ofList, List.foldl_cons, List.foldl_nil, NameMap.get?_insert,
    NameMap.get?_empty]

/-- The machine's own values stand before the configured ones. -/
theorem MachineInfo.lookup_merge (machine : MachineInfo) (configured : Vars) :
    (Vars.merge [machine.vars, configured]).lookup = machine.valueOf configured := by
  funext name
  have hmerge : Vars.merge [machine.vars, configured] =
      ((∅ : Vars).fill machine.vars).fill configured := rfl
  rw [Vars.lookup, hmerge, NameMap.get?_fill, NameMap.get?_fill, NameMap.get?_empty,
    Option.none_or, machine.get?_vars, valueOf]
  by_cases hname : name = "machine-name"
  · subst hname
    rfl
  · by_cases hdescription : name = "machine-description"
    · subst hdescription
      rfl
    · by_cases hid : name = "machine-id"
      · subst hid
        rfl
      · simp only [hname, hdescription, hid, if_false, Option.none_or]
        rfl

theorem Vars.port_eq_ok_iff {p : Nat} : vars.port pattern = .ok p ↔
    Pattern.NamesPort (Pattern.expand vars.lookup pattern) p := by
  rw [← Pattern.readPort_eq_ok_iff, port, Pattern.expandPort]
  cases Pattern.readPort (Pattern.expand vars.lookup pattern) <;> simp [Except.mapError]

/-- What names no port is an error in the configuration, and nothing else is. -/
theorem Vars.port_eq_error_iff :
    (∃ fault, vars.port pattern = .error (.config (.port pattern fault))) ↔
      ∀ p, ¬ Pattern.NamesPort (Pattern.expand vars.lookup pattern) p := by
  simp only [← port_eq_ok_iff, port]
  cases Pattern.expandPort vars.lookup pattern <;> simp [Except.mapError]

/-- The port that is set, and else the one that the pattern names. -/
def SelectsPort (value : String → String) (port : UInt16) (pattern : String) (p : Nat) : Prop :=
  if port ≠ 0 then p = port.toNat else Pattern.NamesPort (Pattern.expand value pattern) p

theorem SelectsPort.range {value : String → String} {port : UInt16} {p : Nat}
    (h : SelectsPort value port pattern p) : 1 ≤ p ∧ p ≤ 65535 := by
  unfold SelectsPort at h
  split at h
  · rename_i hport
    have hpos : port.toNat ≠ 0 := fun hzero => hport (UInt16.toNat_inj.1 hzero)
    have hlt := port.toNat_lt
    omega
  · exact ⟨h.1, h.2.1⟩

namespace Build

variable {service : String} {port : UInt16}

theorem selectsPort_of_effectivePort {p : Nat}
    (h : effectivePort service port pattern vars = .ok (some p)) :
    SelectsPort vars.lookup port pattern p := by
  unfold effectivePort at h
  unfold SelectsPort
  split at h
  · rename_i hport
    cases h
    rw [if_pos hport]
  · rename_i hport
    rw [if_neg hport]
    split at h
    · split at h <;> cases h
      rename_i hexpand
      exact Pattern.readPort_eq_ok_iff.1 hexpand
    · cases h

/-- Without a port and a pattern there is none. -/
theorem effectivePort_eq_none {answer : Option Nat}
    (h : effectivePort service port pattern vars = .ok answer) :
    answer = none ↔ port = 0 ∧ pattern = "" := by
  unfold effectivePort at h
  split at h
  · rename_i hport
    cases h
    simp [hport]
  · rename_i hport
    split at h
    · rename_i hpattern
      split at h <;> cases h
      simp [hpattern]
    · rename_i hpattern
      cases h
      simpa using ⟨not_not.1 hport, not_not.1 hpattern⟩

theorem selectsPort_of_agentPort {agent : Agent} {p : Nat} (h : agentPort agent vars = .ok p) :
    SelectsPort vars.lookup agent.port agent.portPattern p := by
  obtain ⟨answer, hanswer, h⟩ := exceptBind_eq_ok.1 h
  cases answer <;> cases h
  exact selectsPort_of_effectivePort hanswer

end Build

end Values

theorem Guest.Settings.filter_spice (s : Settings) : s.options.filter (·.kind == "spice") =
    if s.spice.enabled then [⟨"spice", s.spice.parameters⟩] else [] := by
  simp [options, Identity.options, unlessEmpty, memoryOptions, filter_ite, List.filter_map,
    Function.comp_def]

/-- A port that the display listens on is written, and where there is none it is left out. -/
theorem Guest.Spice.column_listening {port : Option Nat} (hport : ∀ p ∈ port, 1 ≤ p) :
    column (listening port).parameters "port" = (port.map toString).toList := by
  cases port with
  | none => decide
  | some p =>
    have hp : p ≠ 0 := Nat.one_le_iff_ne_zero.1 (hport p rfl)
    have hloopback : Build.loopback ≠ "" := by decide
    simp [parameters, listening, hp, hloopback, number]

/-- The agent's port is a character device of its own. -/
theorem Definition.filter_channels_agent (d : Definition) (machine : MachineInfo) (runDir : Path) :
    (d.channels machine runDir).filter (fun c => c.id == "guestagent") =
      d.attributes.agent.channels (Vars.merge [machine.vars, d.vars]) := by
  have hqmp : (d.attributes.qmp.channels runDir machine.name).filter
      (fun c => c.id == "guestagent") = [] := by
    have hid : CharDevice.isMonitorId "guestagent" = false := by decide
    apply List.filter_eq_nil_iff.2
    intro c hc hagent
    have hmonitor := Qmp.isMonitorId_of_mem_channels hc
    rw [eq_of_beq hagent, hid] at hmonitor
    cases hmonitor
  have hagent : ∀ c ∈ d.attributes.agent.channels (Vars.merge [machine.vars, d.vars]),
      (c.id == "guestagent") = true := fun c hc => beq_iff_eq.2 (Agent.id_of_mem_channels hc)
  have hspice : d.attributes.spice.channels.filter (fun c => c.id == "guestagent") = [] := by
    unfold Spice.channels
    split
    · decide
    · rfl
  rw [channels, List.filter_append, List.filter_append, List.filter_append, hqmp,
    List.filter_eq_self.2 hagent, hspice, List.nil_append, List.append_nil]
  split <;> simp [CharDevice.id]

/-- Options by which the agent and the display of a guest listen where its attributes say: the agent
on one port, and the display on none only where neither a port nor a pattern is set. -/
structure Attributes.PortsIn (a : Attributes) (value : String → String)
    (os : List CommandOption) : Prop where
  agent : a.agent.enabled = true → ∃ p, SelectsPort value a.agent.port a.agent.portPattern p ∧
    1 ≤ p ∧ p ≤ 65535 ∧
    table os "chardev" (fun o => (o.values "id").any (· == "guestagent")) ["port"] =
      [[[toString p]]]
  display : a.spice.enabled = true → ∃ port : Option Nat,
    (∀ p ∈ port, SelectsPort value a.spice.port a.spice.portPattern p ∧ 1 ≤ p ∧ p ≤ 65535) ∧
    (port = none ↔ a.spice.port = 0 ∧ a.spice.portPattern = "") ∧
    rows os "spice" ["port"] = [[(port.map toString).toList]]

theorem Target.rows_spice {t : Target} {port : Option Nat}
    (h : t.settings.spice = .listening port) (hport : ∀ p ∈ port, 1 ≤ p) :
    rows t.options "spice" ["port"] = [[(port.map toString).toList]] := by
  have hoptions : t.options.filter (·.kind == "spice") =
      [⟨"spice", (Guest.Spice.listening port).parameters⟩] := by
    rw [filter_options_settings t (by decide), Guest.Settings.filter_spice, h]
    rfl
  simp only [rows, table, Bool.and_true]
  rw [hoptions, ← Guest.Spice.column_listening hport]
  rfl

namespace Machine

variable {m : Machine} {catalog : Catalog} {locations : Locations} {d : Definition} {t : Target}

theorem agentPort_of_build (hd : m.resolve catalog = .ok d)
    (h : m.build catalog locations = .ok t) (henabled : d.attributes.agent.enabled = true) {p : Nat}
    (hp : Build.agentPort d.attributes.agent (Vars.merge [m.info.vars, d.vars]) = .ok p) :
    table t.options "chardev" (fun o => (o.values "id").any (· == "guestagent")) ["port"] =
      [[[toString p]]] := by
  have hchannels : d.attributes.agent.channels (Vars.merge [m.info.vars, d.vars]) =
      [.tcpSocket "guestagent" Build.loopback p] := by
    rw [Agent.channels, if_pos henabled, hp]
    rfl
  rw [table, t.filter_options_charDevices, channels_of_build hd h, d.filter_channels_agent,
    hchannels]
  rfl

theorem portsIn_of_build (hd : m.resolve catalog = .ok d)
    (h : m.build catalog locations = .ok t) :
    d.attributes.PortsIn (m.info.valueOf d.vars) t.options := by
  obtain ⟨host, port, hfinds, hsettings⟩ := settings_of_build hd h
  rw [← MachineInfo.lookup_merge]
  constructor
  · intro henabled
    obtain ⟨p, hp⟩ := hfinds.agent henabled
    have hselects := Build.selectsPort_of_agentPort hp
    exact ⟨p, hselects, hselects.range.1, hselects.range.2, agentPort_of_build hd h henabled hp⟩
  · intro henabled
    have hport := hfinds.display henabled
    have hspice : t.settings.spice = .listening port := by
      rw [hsettings, Definition.settings, Attributes.settle, if_pos henabled]
    have hselects : ∀ p ∈ port, SelectsPort (Vars.merge [m.info.vars, d.vars]).lookup
        d.attributes.spice.port d.attributes.spice.portPattern p := by
      intro p hp
      cases hp
      exact Build.selectsPort_of_effectivePort hport
    exact ⟨port, fun p hp => ⟨hselects p hp, (hselects p hp).range⟩,
      Build.effectivePort_eq_none hport,
      Target.rows_spice hspice fun p hp => (hselects p hp).range.1⟩

/-- A pattern names a port exactly where its expansion is the numeral of one, and is an error in the
configuration otherwise. In every guest that is built, the agent and the display listen on the port
that is set or else on the one that the pattern names, by the values of the machine before the
configured ones. -/
theorem build_ports (m : Machine) (catalog : Catalog) (locations : Locations) :
    (∀ (vars : Vars) (pattern : String),
      (∀ p, vars.port pattern = .ok p ↔
        Pattern.NamesPort (Pattern.expand vars.lookup pattern) p) ∧
      ((∃ fault, vars.port pattern = .error (.config (.port pattern fault))) ↔
        ∀ p, ¬ Pattern.NamesPort (Pattern.expand vars.lookup pattern) p)) ∧
    ∀ t, m.build catalog locations = .ok t → ∃ d, m.resolve catalog = .ok d ∧
      d.attributes.PortsIn (m.info.valueOf d.vars) t.options := by
  refine ⟨fun vars pattern => ⟨fun p => Vars.port_eq_ok_iff, Vars.port_eq_error_iff⟩, ?_⟩
  intro t h
  obtain ⟨d, hd, -⟩ := addDefinition_of_build h
  exact ⟨d, hd, portsIn_of_build hd h⟩

end Machine

namespace Sample

/-- A machine whose description stands before a configured value of that name, and whose display has
a port besides a pattern that names none. -/
def served : Machine where
  name := "desk"
  description := "59"
  definition := {
    vars := .ofList [("machine-description", "1"), ("offset", "01")]
    attributes := {
      agent := { enabled := true, portPattern := " +$\x7bmachine-description\x7d$offset" }
      spice := { enabled := true, port := 5930, portPattern := "$offset-" } } }

theorem served_ports : ∃ t, served.build {} {} = .ok t ∧
    table t.options "chardev" (fun o => (o.values "id").any (· == "guestagent")) ["port"] =
      [[["5901"]]] ∧
    rows t.options "spice" ["port"] = [[["5930"]]] := by
  have hok : (served.build {} {}).toOption.any (fun _ => true) = true := by decide +kernel
  have hresolved : (served.resolve {}).toOption.any (fun d => decide (
      d.attributes.agent.enabled = true ∧ d.attributes.agent.port = 0 ∧
      d.attributes.spice.enabled = true ∧ d.attributes.spice.port = 5930 ∧
      (Vars.merge [served.info.vars, d.vars]).port d.attributes.agent.portPattern = .ok 5901)) =
        true := by decide +kernel
  obtain ⟨t, ht, -⟩ := exists_of_any hok
  obtain ⟨hpatterns, hbuilds⟩ := Machine.build_ports served {} {}
  obtain ⟨d, hd, hagent, hdisplay⟩ := hbuilds t ht
  obtain ⟨d', hd', hdec⟩ := exists_of_any hresolved
  cases hd.symm.trans hd'
  obtain ⟨hagentOn, hagentPort, hspiceOn, hspicePort, hpattern⟩ := of_decide_eq_true hdec
  obtain ⟨p, hp, -, -, hagentRow⟩ := hagent hagentOn
  obtain ⟨port, hport, hnone, hspiceRow⟩ := hdisplay hspiceOn
  have hagentValue : p = 5901 := by
    rw [hagentPort, ← MachineInfo.lookup_merge] at hp
    have hread := ((hpatterns _ _).1 p).2 hp
    cases hread.symm.trans hpattern
    rfl
  have hspiceValue : port = some 5930 := by
    rw [hspicePort] at hport hnone
    cases port with
    | none => exact absurd (hnone.1 rfl).1 (by decide)
    | some q => exact congrArg some (hport q rfl).1
  subst hagentValue hspiceValue
  exact ⟨t, ht, hagentRow, hspiceRow⟩

end Sample

end GuestCompiler
