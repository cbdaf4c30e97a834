import GuestCompiler.Proofs.BuildSteps
import Mathlib.Data.List.TakeWhile

/-!
# What the steps of a build come to

Whatever each step of a build comes to (an item, a device, a node), the steps of a definition come
to all of it in the order of the definition (`Definition.lists_steps`); from a look-up that fails on
there is no more to tell. And of a step of a definition it is known what has been looked up for it
(`Definition.found_of_mem`).
-/
namespace GuestCompiler

open Edit

/-- How a volume is attached, and where it is; nothing where its pool or the pool's kind is not
known. -/
def Volume.placed? (machine : MachineInfo) (pools : NameMap Pool) (v : Volume) :
    Option (Attachment × PlacedVolume) :=
  (pools.get? v.storage).bind fun pool =>
    (Attachment.ofKind? pool.kind).map fun a => (a, ⟨machine, v, pool⟩)

/-- The volumes of a machine's firmware that are attached. -/
def Firmware.used (f : Firmware) : List Volume :=
  if f.code.isEmpty then [] else f.code :: if f.vars.isEmpty then [] else [f.vars]

/-- The volumes that a build attaches, in order. -/
def Definition.attached (d : Definition) : List Volume := d.attributes.firmware.used ++ d.volumes

section Placed

variable {machine : MachineInfo} {pools : NameMap Pool} {v : Volume} {a : Attachment}
  {p : PlacedVolume}

theorem Volume.placed?_eq_some : v.placed? machine pools = some (a, p) ↔
    ∃ pool, pools.get? v.storage = some pool ∧ Attachment.ofKind? pool.kind = some a ∧
      p = ⟨machine, v, pool⟩ := by
  simp only [placed?, Option.bind_eq_some_iff, Option.map_eq_some_iff, Prod.mk.injEq]
  constructor
  · rintro ⟨pool, hpool, a', ha, rfl, rfl⟩
    exact ⟨pool, hpool, ha, rfl⟩
  · rintro ⟨pool, hpool, ha, rfl⟩
    exact ⟨pool, hpool, a, ha, rfl, rfl⟩

theorem Volume.placed?_of_ok (hp : PlacedVolume.resolve machine v pools = .ok p)
    (ha : Attachment.of p = .ok a) : v.placed? machine pools = some (a, p) := by
  unfold PlacedVolume.resolve at hp
  split at hp <;> cases hp
  rename_i pool hpool
  unfold Attachment.of at ha
  split at ha <;> cases ha
  rename_i hkind
  exact Volume.placed?_eq_some.2 ⟨pool, hpool, hkind, rfl⟩

end Placed

namespace BuildStep

section Missing

/-- A look-up that fails. -/
def isMissing : BuildStep → Bool
  | missing .. => true
  | _ => false

/-- The steps before the first look-up that fails. -/
def beforeMissing (steps : List BuildStep) : List BuildStep :=
  steps.takeWhile fun step => !step.isMissing

/-- Nothing is missing for the steps. -/
def Complete (steps : List BuildStep) : Prop := ∀ step ∈ steps, step.isMissing = false

variable {step : BuildStep} {steps more : List BuildStep}

@[simp] theorem complete_cons :
    Complete (step :: steps) ↔ step.isMissing = false ∧ Complete steps :=
  List.forall_mem_cons

@[simp] theorem complete_append : Complete (steps ++ more) ↔ Complete steps ∧ Complete more :=
  List.forall_mem_append

theorem complete_flatMap {α : Type} {l : List α} {steps : α → List BuildStep} :
    Complete (l.flatMap steps) ↔ ∀ a ∈ l, Complete (steps a) :=
  List.forall_mem_flatMap

theorem complete_lookup {α : Type} {answer : Except Error α}
    {herror : ∀ e, answer = .error e → Unfound e} {steps : α → List BuildStep}
    (h : Complete (lookup answer herror steps)) :
    ∃ a, answer = .ok a ∧ Complete (steps a) ∧ lookup answer herror steps = steps a := by
  cases answer with
  | ok a => exact ⟨a, rfl, h, rfl⟩
  | error e => exact nomatch (complete_cons.1 h).1

theorem beforeMissing_cons (h : step.isMissing = false) :
    beforeMissing (step :: steps) = step :: beforeMissing steps :=
  List.takeWhile_cons_of_pos (by simp [h])

theorem beforeMissing_eq (h : Complete steps) : beforeMissing steps = steps :=
  List.takeWhile_eq_self_iff.2 fun step hstep => by simp [h step hstep]

end Missing

section Listing

variable {ι : Type}

/-- What steps come to, each by itself. From a look-up that fails on, it may be anything. -/
inductive Lists (f : BuildStep → List ι) : List BuildStep → List ι → Prop
  | nil : Lists f [] []
  | cons (step : BuildStep) {steps : List BuildStep} {xs : List ι} :
    Lists f steps xs → Lists f (step :: steps) (f step ++ xs)
  | missing {e : Error} (h : Unfound e) (steps : List BuildStep) (xs : List ι) :
    Lists f (.missing e h :: steps) xs

variable {f : BuildStep → List ι} {steps more : List BuildStep} {xs ys : List ι}

theorem Lists.append (h : Lists f steps xs) (h' : Lists f more ys) :
    Lists f (steps ++ more) (xs ++ ys) := by
  induction h with
  | nil => exact h'
  | cons step _ ih =>
    rw [List.append_assoc]
    exact .cons step ih
  | missing h steps xs => exact .missing h _ _

@[simp] theorem flatMap_idle {α : Type} (l : List α) : l.flatMap (fun _ => ([] : List ι)) = [] :=
  List.flatMap_eq_nil_iff.2 fun _ _ => rfl

theorem Lists.of_eq (h : Lists f steps xs) (heq : xs = ys) : Lists f steps ys := heq ▸ h

/-- A step that comes to nothing. -/
theorem Lists.idle {step : BuildStep} (hstep : f step = []) (h : Lists f steps xs) :
    Lists f (step :: steps) xs := by
  have hcons := Lists.cons step h
  rwa [hstep, List.nil_append] at hcons

theorem lists_flatMap (f : BuildStep → List ι) (steps : List BuildStep) :
    Lists f steps (steps.flatMap f) := by
  induction steps with
  | nil => exact .nil
  | cons step steps ih =>
    rw [List.flatMap_cons]
    exact .cons step ih

theorem lists_lone (f : BuildStep → List ι) (step : BuildStep) : Lists f [step] (f step) := by
  simpa using lists_flatMap f [step]

theorem Lists.forall {α : Type} {l : List α} {steps : α → List BuildStep} {items : α → List ι}
    (h : ∀ a ∈ l, Lists f (steps a) (items a)) : Lists f (l.flatMap steps) (l.flatMap items) := by
  induction l with
  | nil => exact .nil
  | cons a l ih =>
    obtain ⟨ha, hl⟩ := List.forall_mem_cons.1 h
    rw [List.flatMap_cons, List.flatMap_cons]
    exact ha.append (ih hl)

theorem lists_lookup {α : Type} {answer : Except Error α}
    {herror : ∀ e, answer = .error e → Unfound e} {steps : α → List BuildStep}
    (h : ∀ a, answer = .ok a → Lists f (steps a) xs) : Lists f (lookup answer herror steps) xs := by
  cases answer with
  | ok a => exact h a rfl
  | error e => exact .missing _ _ _

theorem Lists.prefix_beforeMissing (h : Lists f steps xs) :
    (beforeMissing steps).flatMap f <+: xs := by
  induction h with
  | nil => exact List.nil_prefix
  | cons step _ ih =>
    cases hstep : step.isMissing with
    | true =>
      rw [beforeMissing, List.takeWhile_cons_of_neg (by simp [hstep])]
      exact List.nil_prefix
    | false =>
      rw [beforeMissing_cons hstep, List.flatMap_cons]
      exact (List.prefix_append_right_inj _).2 ih
  | missing h steps xs => exact List.nil_prefix

/-- Where nothing is missing, steps come to what they list. -/
theorem Lists.flatMap_eq (h : Lists f steps xs) (hsteps : Complete steps) :
    steps.flatMap f = xs := by
  induction h with
  | nil => rfl
  | cons step _ ih =>
    rw [List.flatMap_cons, ih (complete_cons.1 hsteps).2]
  | missing h steps xs => exact nomatch (complete_cons.1 hsteps).1

/-- Where each step adds what it comes to, steps add what they list. -/
theorem Lists.adds {tally : Tally Error Target ι} (h : Lists f steps xs)
    (hmissing : ∀ e, Unfound e → ∀ held, tally.Accounts held e)
    (hstep : ∀ step ∈ steps, Adds tally step.edit (f step) fun _ => True) :
    Adds tally (run steps) xs fun _ => True := by
  induction h with
  | nil => exact .pure trivial
  | cons step _ ih =>
    obtain ⟨hfirst, hrest⟩ := List.forall_mem_cons.1 hstep
    exact hfirst.bind fun _ _ => ih hrest
  | missing he steps xs => exact fun _ _ _ _ => hmissing _ he _

end Listing

end BuildStep

section Listing

open BuildStep

variable {ι : Type} {f : BuildStep → List ι} {machine : MachineInfo} {pools : NameMap Pool}

section Volumes

variable {g : Volume → List ι} (hsetting : ∀ s, f (.setting s) = [])
  (hvolume : ∀ v a p, v.placed? machine pools = some (a, p) → f (.volume a p) = g v)

include hsetting hvolume

theorem Volume.lists_steps (v : Volume) (refer : String → List SettingStep) :
    Lists f (v.steps machine pools refer) (g v) := by
  refine lists_lookup fun p hp => lists_lookup fun a ha => ?_
  rw [← hvolume v a p (Volume.placed?_of_ok hp ha)]
  induction refer (a.nodeName p) with
  | nil => exact lists_lone f _
  | cons s rest ih => exact .idle (hsetting s) ih

theorem Firmware.lists_steps (fw : Firmware) :
    Lists f (fw.steps machine pools) (fw.used.flatMap g) := by
  have hsecure : Lists f [.setting .secureFlash] [] := .idle (hsetting _) .nil
  have hvolume (v : Volume) (refer : String → List SettingStep) :=
    v.lists_steps hsetting hvolume refer
  unfold steps used
  cases fw.code.isEmpty with
  | true => exact .nil
  | false =>
    cases fw.vars.isEmpty with
    | true => simpa using (hvolume fw.code _).append hsecure
    | false =>
      simpa using (hvolume fw.code _).append ((hvolume fw.vars _).append hsecure)

end Volumes

/-- What attributes come to, by what their agent comes to. -/
def Attributes.listing (f : BuildStep → List ι) (agent : List ι) (name : String) (runDir : Path)
    (a : Attributes) : List ι :=
  (if a.qmp.enabled then
    (a.qmp.socketPaths runDir name).zipIdx.flatMap fun x => f (.monitor x.1 x.2) else []) ++
  ((if a.agent.enabled then agent else []) ++
  ((if a.spice.enabled then
    (List.replicate (Build.displayCount a.spice.displays) .display).flatMap f ++
      (f (.serialChannel (.spiceChannel "vdagent" "vdagent") "com.redhat.spice.0") ++
        (f .tablet ++ (f (.usbChannel (.spiceChannel "usbredir.0" "usbredir")) ++
          f (.usbChannel (.spiceChannel "usbredir.1" "usbredir"))))) else []) ++
  if a.tpm then f (.securityModule (tpmSocketPath runDir name)) else []))

theorem Attributes.lists_steps (hsetting : ∀ s, f (.setting s) = []) (name : String) (vars : Vars)
    (catalog : Catalog) (runDir : Path) {a : Attributes} {agent : List ι}
    (hagent : ∀ port, Build.agentPort a.agent vars = .ok port → f (.serialChannel
      (.tcpSocket "guestagent" Build.loopback port) "org.qemu.guest_agent.0") = agent) :
    Lists f (a.steps name vars catalog runDir) (a.listing f agent name runDir) := by
  have hprocessor (host : Option Processor) :
      Lists f [.setting (.processor (Build.guestProcessor a.cpu host a.enlightenments))] [] :=
    .idle (hsetting _) .nil
  refine (lists_lookup fun host _ => hprocessor host).append (.idle (hsetting _)
    (.append ?qmp (.append ?agent (.append ?spice ?tpm))))
  case qmp =>
    unfold Qmp.steps
    split
    · rw [← List.flatMap_map]
      exact lists_flatMap f _
    · exact .nil
  case agent =>
    unfold Agent.steps
    split
    · exact lists_lookup fun port hport => hagent port hport ▸ lists_lone f _
    · exact .nil
  case spice =>
    unfold Spice.steps
    split
    · refine lists_lookup fun port _ => .idle (hsetting _) ?_
      have hall := lists_flatMap f (List.replicate (Build.displayCount a.spice.displays) .display ++
        [.serialChannel (.spiceChannel "vdagent" "vdagent") "com.redhat.spice.0", .tablet,
        .usbChannel (.spiceChannel "usbredir.0" "usbredir"),
        .usbChannel (.spiceChannel "usbredir.1" "usbredir")])
      simpa using hall
    · exact .nil
  case tpm =>
    split
    · exact lists_lone f _
    · exact .nil

theorem Connection.lists_steps {networks : NameMap Network} {xs : List ι} (c : Connection)
    (h : ∀ network mac, f (.connection machine network mac c) = xs) :
    Lists f (c.steps machine networks) xs := by
  unfold steps
  split
  · exact .missing _ _ _
  · exact .missing _ _ _
  · rename_i network mac _ _
    exact h network mac ▸ lists_lone f _

theorem Device.lists_steps {catalog : Catalog} {xs : List ι} (d : Device)
    (h : ∀ path, f (.passthrough d path) = xs) : Lists f (d.steps catalog) xs := by
  unfold steps
  split
  · exact .missing _ _ _
  · split
    · exact .missing _ _ _
    · rename_i path _
      exact h path ▸ lists_lone f _

/-- What the steps of a definition come to, by what each of its entries comes to. -/
theorem Definition.lists_steps {catalog : Catalog} {locations : Locations} {d : Definition}
    (agent : List ι) (g : Volume → List ι) (c : Connection → List ι) (v : Device → List ι)
    (hsetting : ∀ s, f (.setting s) = [])
    (hvolume : ∀ v a p, v.placed? machine catalog.pools = some (a, p) → f (.volume a p) = g v)
    (hagent : ∀ port, Build.agentPort d.attributes.agent (Vars.merge [machine.vars, d.vars]) =
      .ok port → f (.serialChannel (.tcpSocket "guestagent" Build.loopback port)
        "org.qemu.guest_agent.0") = agent)
    (hconnection : ∀ network mac x, f (.connection machine network mac x) = c x)
    (hdevice : ∀ x path, f (.passthrough x path) = v x) :
    Lists f (d.steps machine catalog locations) (f .panic ++
      (d.attributes.firmware.used.flatMap g ++
        (d.attributes.listing f agent machine.name locations.runDir ++
          (d.volumes.flatMap g ++ (d.connections.flatMap c ++ d.devices.flatMap v))))) := by
  have hidentity : Lists f [.setting (.identity machine)] [] := .idle (hsetting _) .nil
  refine .append (.idle (hsetting _) (by simpa using Lists.cons .panic hidentity)) (.append ?_ ?_)
  · exact Firmware.lists_steps hsetting hvolume _
  refine .append (Attributes.lists_steps hsetting _ _ _ _ hagent) (.append ?_ (.append ?_ ?_))
  · exact .forall fun v _ => v.lists_steps hsetting hvolume _
  · exact .forall fun x _ => x.lists_steps fun network mac => hconnection network mac x
  · exact .forall fun x _ => x.lists_steps (hdevice x)

end Listing

section Found

open BuildStep

/-- What is known of a step by what has been looked up for it. -/
def BuildStep.Found (machine : MachineInfo) (catalog : Catalog) (locations : Locations)
    (d : Definition) : BuildStep → Prop
  | setting (.identity m) => m = machine
  | setting (.code node) | setting (.vars node) => ∃ v ∈ d.attached, ∃ a p,
    v.placed? machine catalog.pools = some (a, p) ∧ node = a.nodeName p
  | monitor path _ => path ∈ d.attributes.qmp.socketPaths locations.runDir machine.name
  | serialChannel c name =>
    (∃ port, c = .tcpSocket "guestagent" Build.loopback port ∧ name = "org.qemu.guest_agent.0") ∨
      c = .spiceChannel "vdagent" "vdagent" ∧ name = "com.redhat.spice.0"
  | usbChannel c => ∃ n : Nat, c = .spiceChannel ("usbredir." ++ toString n) "usbredir"
  | securityModule path => path = Attributes.tpmSocketPath locations.runDir machine.name
  | volume a p => ∃ v ∈ d.attached, v.placed? machine catalog.pools = some (a, p)
  | connection m network mac c => m = machine ∧ c ∈ d.connections ∧
    catalog.networks.get? c.network = some network ∧ c.mac = some mac
  | passthrough v path => v.sysfsPath = some path
  | _ => True

theorem BuildStep.forall_mem_lookup {α : Type} {answer : Except Error α} {P : BuildStep → Prop}
    {herror : ∀ e, answer = .error e → Unfound e} {steps : α → List BuildStep}
    (hmissing : ∀ e h, P (.missing e h)) (h : ∀ a, answer = .ok a → ∀ step ∈ steps a, P step) :
    ∀ step ∈ lookup answer herror steps, P step := by
  cases answer with
  | ok a => exact h a rfl
  | error e => exact List.forall_mem_singleton.2 (hmissing _ _)

variable {machine : MachineInfo} {catalog : Catalog} {locations : Locations} {d : Definition}

theorem Volume.found_of_mem {v : Volume} (hv : v ∈ d.attached) {refer : String → List SettingStep}
    (hrefer : ∀ a p, v.placed? machine catalog.pools = some (a, p) →
      ∀ s ∈ refer (a.nodeName p), (setting s).Found machine catalog locations d) :
    ∀ step ∈ v.steps machine catalog.pools refer, step.Found machine catalog locations d := by
  refine forall_mem_lookup (fun _ _ => trivial) fun p hp =>
    forall_mem_lookup (fun _ _ => trivial) fun a ha => ?_
  have hplaced := Volume.placed?_of_ok hp ha
  exact List.forall_mem_append.2 ⟨List.forall_mem_map.2 (hrefer a p hplaced),
    List.forall_mem_singleton.2 ⟨v, hv, hplaced⟩⟩

theorem Firmware.found_of_mem : ∀ step ∈ d.attributes.firmware.steps machine catalog.pools,
    step.Found machine catalog locations d := by
  have hcode (v : Volume) (hv : v ∈ d.attached) :
      ∀ step ∈ v.steps machine catalog.pools fun node => [.code node],
        step.Found machine catalog locations d :=
    Volume.found_of_mem hv fun a p hplaced =>
      List.forall_mem_singleton.2 ⟨v, hv, a, p, hplaced, rfl⟩
  have hvars (v : Volume) (hv : v ∈ d.attached) :
      ∀ step ∈ v.steps machine catalog.pools fun node => [.vars node],
        step.Found machine catalog locations d :=
    Volume.found_of_mem hv fun a p hplaced =>
      List.forall_mem_singleton.2 ⟨v, hv, a, p, hplaced, rfl⟩
  have hsecure : ∀ step ∈ [setting .secureFlash], step.Found machine catalog locations d :=
    List.forall_mem_singleton.2 trivial
  unfold steps
  split
  · exact List.forall_mem_nil _
  rename_i hused
  refine List.forall_mem_append.2 ⟨hcode _ ?_, List.forall_mem_append.2 ⟨?_, hsecure⟩⟩
  · simp [Definition.attached, used, hused]
  · split
    · exact List.forall_mem_nil _
    · rename_i hboth
      exact hvars _ (by simp [Definition.attached, used, hused, hboth])

theorem Attributes.found_of_mem {vars : Vars} :
    ∀ step ∈ d.attributes.steps machine.name vars catalog locations.runDir,
      step.Found machine catalog locations d := by
  refine List.forall_mem_append.2 ⟨?processor, List.forall_mem_cons.2 ⟨trivial,
    List.forall_mem_append.2 ⟨?qmp, List.forall_mem_append.2 ⟨?agent,
      List.forall_mem_append.2 ⟨?spice, ?tpm⟩⟩⟩⟩⟩
  case processor =>
    exact forall_mem_lookup (fun _ _ => trivial) fun _ _ => List.forall_mem_singleton.2 trivial
  case qmp =>
    unfold Qmp.steps
    split
    · exact List.forall_mem_map.2 fun x hx => List.fst_mem_of_mem_zipIdx hx
    · exact List.forall_mem_nil _
  case agent =>
    unfold Agent.steps
    split
    · exact forall_mem_lookup (fun _ _ => trivial) fun port _ =>
        List.forall_mem_singleton.2 (.inl ⟨port, rfl, rfl⟩)
    · exact List.forall_mem_nil _
  case spice =>
    unfold Spice.steps
    split
    · refine forall_mem_lookup (fun _ _ => trivial) fun port _ => ?_
      rw [List.cons_append, List.forall_mem_cons, List.forall_mem_append]
      refine ⟨trivial, fun step hstep => ?_, ?_⟩
      · rw [List.eq_of_mem_replicate hstep]
        trivial
      · simp only [List.forall_mem_cons]
        exact ⟨.inr ⟨rfl, rfl⟩, trivial, ⟨0, rfl⟩, ⟨1, rfl⟩, List.forall_mem_nil _⟩
    · exact List.forall_mem_nil _
  case tpm =>
    split
    · exact List.forall_mem_singleton.2 rfl
    · exact List.forall_mem_nil _

theorem Connection.found_of_mem {c : Connection} (hc : c ∈ d.connections) :
    ∀ step ∈ c.steps machine catalog.networks, step.Found machine catalog locations d := by
  unfold steps
  split
  · exact List.forall_mem_singleton.2 trivial
  · exact List.forall_mem_singleton.2 trivial
  · exact List.forall_mem_singleton.2 ⟨rfl, hc, ‹_›, ‹_›⟩

theorem Device.found_of_mem {v : Device} :
    ∀ step ∈ v.steps catalog, step.Found machine catalog locations d := by
  unfold steps
  split
  · exact List.forall_mem_singleton.2 trivial
  · split
    · exact List.forall_mem_singleton.2 trivial
    · exact List.forall_mem_singleton.2 ‹_›

theorem Definition.found_of_mem : ∀ step ∈ d.steps machine catalog locations,
    step.Found machine catalog locations d := by
  have hstart : ∀ step ∈ [BuildStep.setting .clock, .panic, .setting (.identity machine)],
      step.Found machine catalog locations d := by
    simp only [List.forall_mem_cons]
    exact ⟨trivial, trivial, rfl, List.forall_mem_nil _⟩
  refine List.forall_mem_append.2 ⟨hstart, List.forall_mem_append.2 ⟨Firmware.found_of_mem,
    List.forall_mem_append.2 ⟨Attributes.found_of_mem, List.forall_mem_append.2 ⟨?_,
      List.forall_mem_append.2 ⟨?_, ?_⟩⟩⟩⟩⟩
  · exact List.forall_mem_flatMap.2 fun v hv =>
      Volume.found_of_mem (List.mem_append_right _ hv) fun _ _ _ => List.forall_mem_nil _
  · exact List.forall_mem_flatMap.2 fun c hc => Connection.found_of_mem hc
  · exact List.forall_mem_flatMap.2 fun v _ => Device.found_of_mem

end Found

end GuestCompiler
