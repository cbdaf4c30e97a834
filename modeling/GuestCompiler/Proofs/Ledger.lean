import GuestCompiler.Proofs.BuildListing
import GuestCompiler.Proofs.Registry

/-!
# What a target keeps beside its devices

The ledger of a target is its settings, and what it keeps under names. What a step of a build enters
in it is told by the step alone (`BuildStep.entries`), and a step fails for a name that is taken
only where an entry of its own has the name of another entry (`BuildStep.edit_enters`). Edits of
devices, of threads and of interfaces are quiet: they enter nothing, and never fail for such a name.
-/
namespace GuestCompiler

open Edit

structure Ledger where
  settings : Guest.Settings
  blocks : BlockGraph
  charDevices : CharDevices
  tpmDevices : TpmDevices

def Target.ledger (t : Target) : Ledger where
  settings := t.settings
  blocks := t.resources.blocks
  charDevices := t.resources.charDevices
  tpmDevices := t.resources.tpmDevices

section Entries

/-- What is entered in a ledger. -/
structure Entries where
  settle : Guest.Settings → Guest.Settings := id
  blocks : List BlockNode := []
  charDevices : List CharDevice := []
  tpmDevices : List TpmDevice := []

/-- The first entries come first. -/
instance : Append Entries where
  append m m' := {
    settle := fun s => m'.settle (m.settle s)
    blocks := m.blocks ++ m'.blocks
    charDevices := m.charDevices ++ m'.charDevices
    tpmDevices := m.tpmDevices ++ m'.tpmDevices }

namespace Entries

variable (m m' : Entries)

@[simp] theorem settle_append (s : Guest.Settings) :
    (m ++ m').settle s = m'.settle (m.settle s) := rfl

@[simp] theorem blocks_append : (m ++ m').blocks = m.blocks ++ m'.blocks := rfl

@[simp] theorem charDevices_append : (m ++ m').charDevices = m.charDevices ++ m'.charDevices := rfl

@[simp] theorem tpmDevices_append : (m ++ m').tpmDevices = m.tpmDevices ++ m'.tpmDevices := rfl

theorem append_assoc (m'' : Entries) : m ++ m' ++ m'' = m ++ (m' ++ m'') := by
  change Entries.mk _ _ _ _ = Entries.mk _ _ _ _
  simp

@[simp] theorem append_empty : m ++ {} = m := by
  change Entries.mk _ _ _ _ = m
  simp

end Entries

section Registry

variable {α : Type} [Named α]

def Registry.insertAll (r : Registry α) (xs : List α) : Registry α := xs.foldl insert r

@[simp] theorem Registry.entries_insertAll (r : Registry α) (xs : List α) :
    (r.insertAll xs).entries = r.entries ++ xs := by
  induction xs generalizing r with
  | nil => simp [insertAll]
  | cons x xs ih =>
    have hrest := ih (r.insert x)
    rw [insertAll] at hrest ⊢
    rw [List.foldl_cons, hrest]
    simp [insert]

theorem Registry.names_insertAll (r : Registry α) (xs : List α) :
    (r.insertAll xs).names = r.names ++ xs.map Named.name := by
  simp [names]

end Registry

namespace Ledger

def enter (l : Ledger) (m : Entries) : Ledger where
  settings := m.settle l.settings
  blocks := Registry.insertAll l.blocks m.blocks
  charDevices := Registry.insertAll l.charDevices m.charDevices
  tpmDevices := Registry.insertAll l.tpmDevices m.tpmDevices

@[simp] theorem enter_empty (l : Ledger) : l.enter {} = l := rfl

theorem enter_append (l : Ledger) (m m' : Entries) : l.enter (m ++ m') = (l.enter m).enter m' := by
  simp [enter, Registry.insertAll]

structure Sound (l : Ledger) : Prop where
  blocks : BlockGraph.Sound l.blocks
  charDevices : Registry.Sound l.charDevices
  tpmDevices : Registry.Sound l.tpmDevices

theorem sound_empty : ({} : Target).ledger.Sound :=
  ⟨BlockGraph.sound_empty, Registry.sound_empty _, Registry.sound_empty _⟩

/-- No two entries of one sort have one name. -/
structure Distinct (l : Ledger) : Prop where
  blocks : (Registry.names l.blocks).Nodup
  charDevices : (Registry.names l.charDevices).Nodup
  tpmDevices : (Registry.names l.tpmDevices).Nodup

/-- What has been entered is not mended by more. -/
theorem Distinct.of_enter {l : Ledger} {m : Entries} (h : (l.enter m).Distinct) : l.Distinct where
  blocks := (List.nodup_append.1 (Registry.names_insertAll l.blocks _ ▸ h.blocks)).1
  charDevices := (List.nodup_append.1 (Registry.names_insertAll l.charDevices _ ▸ h.charDevices)).1
  tpmDevices := (List.nodup_append.1 (Registry.names_insertAll l.tpmDevices _ ▸ h.tpmDevices)).1

end Ledger

end Entries

section Quiet

/-- Does not fail for a name that is taken. -/
abbrev Tame {σ α : Type} (edit : Edit Error σ α) : Prop :=
  Keeps (fun _ => ()) (·.isDuplicateName = false) edit

abbrev Quiet {α : Type} (edit : Edit Error Target α) : Prop :=
  Keeps Target.ledger (·.isDuplicateName = false) edit

section Devices

theorem tame_of_error {σ α : Type} {edit : Edit Error σ α}
    (h : ∀ s e s', edit s = .error e s' → e.isDuplicateName = false) : Tame edit := fun s =>
  meets_iff.2 ⟨fun _ _ _ => rfl, h s⟩

theorem Controller.attach_tame (family : String) (make : Nat → Endpoint) :
    Tame (attach family make) := by
  refine tame_of_error fun c e c' h => ?_
  simp only [attach] at h
  split at h
  · cases h
    rfl
  · split at h <;> cases h
    rfl

namespace Topology

theorem addFunction_tame {α : Type} (make : Topology → TopLevel × FamilyCounts × α) :
    Tame (addFunction make) := by
  refine tame_of_error fun t e t' h => ?_
  simp only [addFunction] at h
  split at h <;> cases h
  rfl

theorem addCdrom_tame (drive : String) (bootIndex : Option Nat) :
    Tame (addCdrom drive bootIndex) := by
  refine tame_of_error fun t e t' h => ?_
  simp only [addCdrom] at h
  split at h <;> cases h
  rfl

theorem addTpm_tame (tpmDevice : String) : Tame (addTpm tpmDevice) := fun _ => rfl

theorem attach_tame (r : RootPortRef) (family : String) (make : String → String → Downstream) :
    Tame (attach r family make) := by
  refine tame_of_error fun t e t' h => ?_
  simp only [attach] at h
  split at h
  · rename_i hroot
    cases h
    unfold root? at hroot
    split at hroot <;> cases hroot
    rfl
  · split at h <;> cases h
    rfl

theorem onController_tame {α : Type} (c : ControllerRef) {edit : Edit Error Controller α}
    (hedit : Tame edit) : Tame (onController c edit) := by
  refine tame_of_error fun t e t' h => ?_
  simp only [onController] at h
  split at h
  · rename_i hc
    cases h
    unfold controller? at hc
    split at hc <;> cases hc
    rfl
  · rename_i controller _
    split at h <;> cases h
    rename_i hrun
    exact (hedit controller).error hrun

end Topology

namespace DeviceTree

theorem onTopology_tame {α : Type} {edit : Edit Error Topology α} (hedit : Tame edit) :
    Tame (onTopology edit) :=
  .within (fun _ _ => rfl) hedit

theorem shared_tame (known : DeviceTree → Option ControllerRef)
    (remember : ControllerRef → DeviceTree → DeviceTree) (kind : ControllerKind) :
    Tame (shared known remember kind) := by
  refine .bind .get fun t => ?_
  cases known t with
  | some c => exact .pure c
  | none =>
    refine .bind (onTopology_tame (Topology.addFunction_tame _)) fun root => ?_
    refine .bind (onTopology_tame (.map _ (Topology.attach_tame root _ _))) fun c => ?_
    exact .bind (.modify fun _ => rfl) fun _ => .pure c

end DeviceTree

end Devices

namespace Target

theorem onTree_quiet {α : Type} {edit : Edit Error DeviceTree α} (hedit : Tame edit) :
    Quiet (onTree edit) :=
  .within (fun _ _ => rfl) hedit

theorem onTopology_quiet {α : Type} {edit : Edit Error Topology α} (hedit : Tame edit) :
    Quiet (onTopology edit) :=
  onTree_quiet (DeviceTree.onTopology_tame hedit)

theorem onShared_quiet {α : Type} {which : Edit Error DeviceTree ControllerRef}
    (hwhich : Tame which) {edit : Edit Error Controller α} (hedit : Tame edit) :
    Quiet (onShared which edit) :=
  .bind (onTree_quiet hwhich) fun c => onTopology_quiet (Topology.onController_tame c hedit)

theorem bootIndex_quiet (bootable : Bool) : Quiet (bootIndex bootable) := by
  cases bootable with
  | true => exact .map _ fun _ => rfl
  | false => exact .pure none

theorem thread_quiet : Quiet thread := by
  intro t
  refine meets_within.2 ?_
  simp only [Meets, Resources.sharedThread]
  cases t.resources.threads.getLast? with
  | some thread => rfl
  | none => rfl

theorem addTap_quiet (interface up down : String) :
    Quiet (onResources (Resources.addTap interface up down)) := fun _ => rfl

end Target

theorem Drive.attach_quiet (d : Drive) (p : PlacedVolume) (node : String) :
    Quiet (d.attach p node) := by
  cases d with
  | scsiDisk =>
    refine .bind Target.thread_quiet fun thread => .bind (Target.bootIndex_quiet _) fun _ => ?_
    exact Target.onShared_quiet (DeviceTree.shared_tame _ _ _) (Controller.attach_tame _ _)
  | blockDisk =>
    refine .bind Target.thread_quiet fun thread => .bind (Target.bootIndex_quiet _) fun _ => ?_
    refine .bind (Target.onTopology_quiet (Topology.addFunction_tame _)) fun root => ?_
    exact Target.onTopology_quiet (Topology.attach_tame root _ _)
  | sataCd =>
    refine .bind (Target.bootIndex_quiet _) fun _ => ?_
    exact Target.onTopology_quiet (Topology.addCdrom_tame _ _)
  | scsiCd =>
    refine .bind Target.thread_quiet fun thread => .bind (Target.bootIndex_quiet _) fun _ => ?_
    exact Target.onShared_quiet (DeviceTree.shared_tame _ _ _) (Controller.attach_tame _ _)
  | usbDisk =>
    refine .bind (Target.bootIndex_quiet _) fun _ => ?_
    exact Target.onShared_quiet (DeviceTree.shared_tame _ _ _) (Controller.attach_tame _ _)

end Quiet

section Enters

variable {α β : Type} {m m' : Entries} {answer : α → Prop} {answer' : β → Prop}

/-- An edit that enters what is told in the ledger, or fails; for a name that is taken only where
names then meet. -/
def Enters (edit : Edit Error Target α) (m : Entries) (answer : α → Prop) : Prop :=
  ∀ t : Target, t.ledger.Sound → Meets edit t
    (fun a t' => (t'.ledger = t.ledger.enter m ∧ t'.ledger.Sound) ∧ answer a)
    (fun e _ => e.isDuplicateName = true → ¬ (t.ledger.enter m).Distinct)

theorem Enters.bind {x : Edit Error Target β} {f : β → Edit Error Target α}
    (hx : Enters x m answer') (hf : ∀ b, answer' b → Enters (f b) m' answer) :
    Enters (x >>= f) (m ++ m') answer := by
  intro t ht
  rw [Ledger.enter_append]
  refine Meets.bind ((hx t ht).mono (fun _ _ => id) fun e _ hfail he hall =>
    hfail he hall.of_enter) ?_
  rintro b t₁ ⟨⟨h₁, hsound₁⟩, hb⟩
  rw [← h₁]
  exact hf b hb t₁ hsound₁

theorem Enters.imp {edit : Edit Error Target α} {answer' : α → Prop} (h : Enters edit m answer)
    (ha : ∀ a, answer a → answer' a) : Enters edit m answer' := fun t ht =>
  (h t ht).imp fun _ _ h => h.imp_right (ha _)

theorem Quiet.enters {edit : Edit Error Target α} (h : Quiet edit) :
    Enters edit {} fun _ => True := fun t ht =>
  (h t).mono (fun _ _ hledger => ⟨⟨hledger, hledger ▸ ht⟩, trivial⟩) fun _ _ hfail he =>
    absurd (hfail.symm.trans he) nofun

/-- After the entries, an edit that enters nothing. -/
theorem Enters.bind_quiet {x : Edit Error Target β} {f : β → Edit Error Target α}
    (hx : Enters x m answer') (hf : ∀ b, answer' b → Quiet (f b)) :
    Enters (x >>= f) m fun _ => True := by
  rw [← m.append_empty]
  exact hx.bind fun b hb => (hf b hb).enters

theorem enters_onSettings (change : Guest.Settings → Guest.Settings) :
    Enters (Target.onSettings change) { settle := change } fun _ => True := fun _ ht =>
  ⟨⟨rfl, ht.blocks, ht.charDevices, ht.tpmDevices⟩, trivial⟩

theorem not_nodup_concat {names : List String} {name : String} (h : name ∈ names) :
    ¬ (names ++ [name]).Nodup := fun hnodup =>
  (List.nodup_append.1 hnodup).2.2 _ h _ List.mem_cons_self rfl

theorem enters_addBlock (node : BlockNode) :
    Enters (Target.onResources (Resources.addBlock node)) { blocks := [node] } fun _ => True := by
  intro t ht
  refine meets_within.2 (meets_within.2 ((BlockGraph.meets_add ht.blocks node).mono ?_ ?_))
  · rintro _ g ⟨-, rfl, hsound⟩
    exact ⟨⟨rfl, { ht with blocks := hsound }⟩, trivial⟩
  · rintro e g ⟨-, hrefused⟩ he hall
    have hnames := hall.blocks
    rw [Ledger.enter, Registry.names_insertAll] at hnames
    exact not_nodup_concat (hrefused.mem_of_isDuplicateName he) hnames

theorem enters_addCharDevice (d : CharDevice) :
    Enters (Target.onResources (Resources.addCharDevice d)) { charDevices := [d] } (· = d.id) := by
  intro t ht
  refine meets_within.2 (meets_within.2 ((CharDevices.meets_add ht.charDevices d).mono ?_ ?_))
  · rintro _ r ⟨rfl, rfl, hsound⟩
    exact ⟨⟨rfl, { ht with charDevices := hsound }⟩, rfl⟩
  · rintro e r ⟨-, hrefused⟩ he hall
    have hnames := hall.charDevices
    rw [Ledger.enter, Registry.names_insertAll] at hnames
    exact not_nodup_concat (hrefused.mem_of_isDuplicateName he) hnames

theorem enters_addEmulatedTpm (id charDevice : String) :
    Enters (Target.onResources (Resources.addEmulatedTpm id charDevice))
      { tpmDevices := [.emulated id charDevice] } (· = id) := by
  intro t ht
  refine meets_within.2 ?_
  by_cases hthere : t.resources.charDevices.contains charDevice = true
  · have hedit : Resources.addEmulatedTpm id charDevice t.resources =
        Resources.addTpmDevice (.emulated id charDevice) t.resources := by
      simp only [Resources.addEmulatedTpm, hthere, if_true]
    refine .congr hedit (meets_within.2 ((Registry.meets_add ht.tpmDevices _).mono ?_ ?_))
    · rintro _ r ⟨rfl, rfl, hsound⟩
      exact ⟨⟨rfl, { ht with tpmDevices := hsound }⟩, rfl⟩
    · rintro e r ⟨-, hrefused⟩ he hall
      have hnames := hall.tpmDevices
      rw [Ledger.enter, Registry.names_insertAll] at hnames
      exact not_nodup_concat (hrefused.mem_of_isDuplicateName he) hnames
  · simp only [Meets, Resources.addEmulatedTpm, if_neg hthere]
    rintro ⟨⟩

theorem enters_addBlocks (nodes : List BlockNode) :
    Enters (nodes.forM fun node => do let _ ← Target.onResources (Resources.addBlock node))
      { blocks := nodes } fun _ => True := by
  induction nodes with
  | nil => exact Quiet.enters (.pure _)
  | cons node nodes ih =>
    exact ((enters_addBlock node).bind_quiet fun _ _ => .pure _).bind fun _ _ => ih

theorem Attachment.apply_enters (a : Attachment) (p : PlacedVolume) :
    Enters (a.apply p) { blocks := a.nodes p } fun _ => True := by
  refine (enters_addBlocks (a.nodes p)).bind_quiet fun _ _ => ?_
  cases a.drive? with
  | none => exact .pure _
  | some d => exact (d.attach_quiet p _).bind fun _ => .pure _

end Enters

theorem Unfound.isDuplicateName_eq {e : Error} (h : Unfound e) : e.isDuplicateName = false := by
  cases h <;> rfl

namespace BuildStep

/-- What a step enters in the ledger. -/
def entries : BuildStep → Entries
  | setting s => { settle := s.change }
  | monitor path index => {
    settle := fun s => { s with
      monitors := s.monitors ++ [{ charDevice := "qmp." ++ toString index }] }
    charDevices := [.unixServer ("qmp." ++ toString index) path] }
  | serialChannel d _ | usbChannel d => { charDevices := [d] }
  | securityModule path => {
    charDevices := [.unixSocket "tpm.0.socket" path false true]
    tpmDevices := [.emulated "tpm.0" "tpm.0.socket"] }
  | volume a p => { blocks := a.nodes p }
  | _ => {}

/-- What steps enter, one after the other. -/
def allEntries (steps : List BuildStep) : Entries where
  settle s := steps.foldl (fun s step => step.entries.settle s) s
  blocks := steps.flatMap (·.entries.blocks)
  charDevices := steps.flatMap (·.entries.charDevices)
  tpmDevices := steps.flatMap (·.entries.tpmDevices)

@[simp] theorem allEntries_nil : allEntries [] = {} := rfl

@[simp] theorem allEntries_cons (step : BuildStep) (steps : List BuildStep) :
    allEntries (step :: steps) = step.entries ++ allEntries steps := rfl

@[simp] theorem allEntries_append (steps more : List BuildStep) :
    allEntries (steps ++ more) = allEntries steps ++ allEntries more := by
  induction steps with
  | nil => rfl
  | cons step steps ih =>
    rw [List.cons_append, allEntries_cons, ih, allEntries_cons, Entries.append_assoc]

theorem edit_enters (step : BuildStep) : Enters step.edit step.entries fun _ => True := by
  cases step with
  | missing e h => exact Quiet.enters (.throw h.isDuplicateName_eq)
  | setting s => exact enters_onSettings _
  | monitor path index =>
    have hentries : (monitor path index).entries =
        { charDevices := [.unixServer ("qmp." ++ toString index) path] } ++ { settle := fun s =>
          { s with monitors := s.monitors ++ [{ charDevice := "qmp." ++ toString index }] } } := rfl
    rw [hentries]
    refine (enters_addCharDevice _).bind ?_
    rintro _ rfl
    exact enters_onSettings _
  | panic | display =>
    exact Quiet.enters (.bind (Target.onTopology_quiet (Topology.addFunction_tame _))
      fun _ => .pure _)
  | tablet =>
    exact Quiet.enters (.bind (Target.onShared_quiet (DeviceTree.shared_tame _ _ _)
      (Controller.attach_tame _ _)) fun _ => .pure _)
  | serialChannel d name | usbChannel d =>
    exact (enters_addCharDevice d).bind_quiet fun _ _ =>
      .bind (Target.onShared_quiet (DeviceTree.shared_tame _ _ _)
        (Controller.attach_tame _ _)) fun _ => .pure _
  | securityModule path =>
    have hentries : (securityModule path).entries =
        { charDevices := [.unixSocket "tpm.0.socket" path false true] } ++
          { tpmDevices := [.emulated "tpm.0" "tpm.0.socket"] } := rfl
    rw [hentries]
    refine (enters_addCharDevice _).bind ?_
    rintro _ rfl
    exact (enters_addEmulatedTpm _ _).bind_quiet fun device _ =>
      Target.onTopology_quiet (Topology.addTpm_tame device)
  | volume a p => exact a.apply_enters p
  | connection machine network mac c =>
    refine Quiet.enters (.bind (Target.addTap_quiet _ _ _) fun tap => ?_)
    exact .bind (Target.onTopology_quiet (Topology.addFunction_tame _)) fun root =>
      .bind (Target.onTopology_quiet (Topology.attach_tame root _ _)) fun _ => .pure _
  | passthrough d path =>
    exact Quiet.enters (.bind (Target.onTopology_quiet (Topology.addFunction_tame _)) fun root =>
      .bind (Target.onTopology_quiet (Topology.attach_tame root _ _)) fun _ => .pure _)

/-- A run enters what its steps tell. It fails for a name that is taken only where what is entered
before the first look-up that fails has a name twice. -/
theorem run_enters (steps : List BuildStep) :
    Enters (run steps) (allEntries (beforeMissing steps)) fun _ => Complete steps := by
  induction steps with
  | nil => exact fun t ht => ⟨⟨rfl, ht⟩, nofun⟩
  | cons step steps ih =>
    have hstep := step.edit_enters
    cases step with
    | missing e h => exact fun t ht he => absurd (h.isDuplicateName_eq.symm.trans he) nofun
    | _ =>
      rw [run_cons, beforeMissing_cons rfl, allEntries_cons]
      exact hstep.bind fun _ _ => ih.imp fun _ h => complete_cons.2 ⟨rfl, h⟩

end BuildStep

namespace Machine

variable {m : Machine} {catalog : Catalog} {locations : Locations} {d : Definition} {t : Target}

/-- Where a build answers, all is found for its steps, and they have entered what they tell. -/
theorem ledger_of_build (hd : m.resolve catalog = .ok d) (h : m.build catalog locations = .ok t) :
    BuildStep.Complete (d.steps m.info catalog locations) ∧ t.ledger.Sound ∧
      t.ledger = ({} : Target).ledger.enter
        (BuildStep.allEntries (d.steps m.info catalog locations)) := by
  obtain ⟨⟨hledger, hsound⟩, hall⟩ :=
    (BuildStep.run_enters _ {} Ledger.sound_empty).ok (run_of_build hd h)
  rw [BuildStep.beforeMissing_eq hall] at hledger
  exact ⟨hall, hsound, hledger⟩

end Machine

end GuestCompiler
