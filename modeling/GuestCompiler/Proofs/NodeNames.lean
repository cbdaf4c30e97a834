import GuestCompiler.Proofs.BlockNodes
import GuestCompiler.Proofs.WiringBuild
import Mathlib.Data.List.Nodup
import Mathlib.Data.List.Pairwise

/-!
# Names of block nodes

A volume's node goes by the volume's name alone, or by that name behind the machine's; an image that
may be written has a second node for its file. Volumes of different names share a node's name only
where one is named after a node of the other, and only then does a build fail for a name that is
taken.
-/
namespace GuestCompiler

open Edit

/-- The rule by which the nodes of a volume are named. -/
inductive Naming
  /-- No nodes. -/
  | nameless
  /-- The volume's name. -/
  | plain
  /-- The volume's name behind the machine's. -/
  | qualified
  /-- The same, and a node for the file below. -/
  | image
  deriving DecidableEq

namespace Naming

def qualify (machine volume : String) : String := machine ++ "-" ++ volume

def names (machine volume : String) : Naming → List String
  | nameless => []
  | plain => [volume]
  | qualified => [qualify machine volume]
  | image => [qualify machine (BlockNode.childName volume "file"), qualify machine volume]

/-- Whether the names of the nodes have the machine's in front. -/
def isQualified (n : Naming) : Prop := n = qualified ∨ n = image

/-- A volume is named after a node of another volume of the machine. -/
inductive Shadows (machine volume : String) : Naming → String → Naming → Prop
  | file (k : Naming) : k.isQualified →
    Shadows machine volume image (BlockNode.childName volume "file") k
  | node (n : Naming) : n.isQualified → Shadows machine volume n (qualify machine volume) plain
  | fileNode :
    Shadows machine volume image (qualify machine (BlockNode.childName volume "file")) plain

@[simp] theorem qualify_inj {machine v w : String} :
    qualify machine v = qualify machine w ↔ v = w :=
  String.append_right_inj _

@[simp] theorem childName_inj {v w : String} :
    BlockNode.childName v "file" = BlockNode.childName w "file" ↔ v = w := by
  simp only [BlockNode.childName, String.append_left_inj]

theorem childName_ne (v : String) : BlockNode.childName v "file" ≠ v := by
  intro h
  have hlength := congrArg String.length h
  simp only [BlockNode.childName, String.length_append] at hlength
  have hfile : "file".length = 4 := rfl
  omega

theorem nodup_names (machine volume : String) (n : Naming) : (n.names machine volume).Nodup := by
  cases n <;> simp [names, childName_ne]

theorem Shadows.exists_mem {machine v w : String} {n k : Naming} (h : Shadows machine v n w k) :
    ∃ name ∈ n.names machine v, name ∈ k.names machine w := by
  cases h with
  | file k hk => rcases hk with rfl | rfl <;> simp [names]
  | node n hn => rcases hn with rfl | rfl <;> simp [names]
  | fileNode => simp [names]

theorem mem_names_of_isQualified {machine v name : String} {n : Naming} (hn : n.isQualified)
    (h : name ∈ n.names machine v) : ∃ a, name = qualify machine a ∧
      (a = v ∨ n = image ∧ a = BlockNode.childName v "file") := by
  rcases hn with rfl | rfl
  · exact ⟨v, List.mem_singleton.1 h, .inl rfl⟩
  · rcases List.mem_cons.1 h with rfl | h
    · exact ⟨_, rfl, .inr ⟨rfl, rfl⟩⟩
    · exact ⟨v, List.mem_singleton.1 h, .inl rfl⟩

theorem shadows_plain {machine v w : String} {n : Naming} (hne : v ≠ w)
    (h : w ∈ n.names machine v) : Shadows machine v n w plain := by
  cases n with
  | nameless => exact nomatch h
  | plain => exact absurd (List.mem_singleton.1 h).symm hne
  | qualified =>
    cases List.mem_singleton.1 h
    exact .node _ (.inl rfl)
  | image =>
    rcases List.mem_cons.1 h with rfl | h
    · exact .fileNode
    · cases List.mem_singleton.1 h
      exact .node _ (.inr rfl)

/-- Both names have the machine's in front: one volume has the name of the other's file. -/
theorem shadows_of_isQualified {machine v w name : String} (hne : v ≠ w) {n k : Naming}
    (hn : n.isQualified) (hk : k.isQualified) (hv : name ∈ n.names machine v)
    (hw : name ∈ k.names machine w) : Shadows machine v n w k ∨ Shadows machine w k v n := by
  obtain ⟨a, rfl, ha⟩ := mem_names_of_isQualified hn hv
  obtain ⟨b, hab, hb⟩ := mem_names_of_isQualified hk hw
  rw [qualify_inj] at hab
  subst hab
  -- What is left of the node's name is the volume's own name or its file's, on either side.
  rcases ha with rfl | ⟨rfl, rfl⟩
  · rcases hb with rfl | ⟨rfl, rfl⟩
    · exact absurd rfl hne
    · exact .inr (.file n hn)
  · rcases hb with rfl | ⟨rfl, hb⟩
    · exact .inl (.file k hk)
    · exact absurd (childName_inj.1 hb) hne

/-- Where volumes of different names share a node's name, one shadows the other. -/
theorem shadows_of_mem {machine v w name : String} (hne : v ≠ w) {n k : Naming}
    (hv : name ∈ n.names machine v) (hw : name ∈ k.names machine w) :
    Shadows machine v n w k ∨ Shadows machine w k v n := by
  have hrule (n : Naming) : n = nameless ∨ n = plain ∨ n.isQualified := by
    cases n <;> simp [isQualified]
  rcases hrule n with rfl | rfl | hn
  · exact nomatch hv
  · cases List.mem_singleton.1 hv
    exact .inr (shadows_plain (Ne.symm hne) hw)
  rcases hrule k with rfl | rfl | hk
  · exact nomatch hw
  · cases List.mem_singleton.1 hw
    exact .inl (shadows_plain hne hv)
  exact shadows_of_isQualified hne hn hk hv hw

end Naming

def Attachment.naming (a : Attachment) (p : PlacedVolume) : Naming :=
  match a with
  | rawScsi | rawBlock => .image
  | vvfatBlock => .qualified
  | isoAhci | isoScsi | isoUsb => .plain
  | firmware => if p.pool.readOnly then .plain else .qualified
  | tpmData => .nameless

theorem Attachment.names_nodes (a : Attachment) (p : PlacedVolume) :
    (a.nodes p).map BlockNode.name = (a.naming p).names p.machine.name p.volume.name := by
  have hfile : BlockNode.childName p.scopedName "file" =
      Naming.qualify p.machine.name (BlockNode.childName p.volume.name "file") := by
    simp only [BlockNode.childName, PlacedVolume.scopedName, Naming.qualify, String.append_assoc]
  cases a with
  | rawScsi | rawBlock => exact congrArg (fun name => [name, p.scopedName]) hfile
  | firmware =>
    cases hro : p.pool.readOnly <;> simp only [nodes, naming, nodeName, hro, if_true] <;> rfl
  | _ => rfl

namespace Volume

variable (machine : MachineInfo) (pools : NameMap Pool)

/-- The rule for a volume; a volume without a place has no nodes. -/
def naming (v : Volume) : Naming :=
  ((v.placed? machine pools).map fun x => x.1.naming x.2).getD .nameless

def nodeNames (v : Volume) : List String := (v.blockNodes machine pools).map BlockNode.name

variable {machine pools}

theorem nodeNames_eq (v : Volume) :
    v.nodeNames machine pools = (v.naming machine pools).names machine.name v.name := by
  unfold nodeNames blockNodes naming
  cases h : v.placed? machine pools with
  | none => rfl
  | some x =>
    obtain ⟨a, p⟩ := x
    obtain ⟨pool, -, -, rfl⟩ := placed?_eq_some.1 h
    exact a.names_nodes ⟨machine, v, pool⟩

def Shadows (machine : MachineInfo) (pools : NameMap Pool) (v w : Volume) : Prop :=
  Naming.Shadows machine.name v.name (v.naming machine pools) w.name (w.naming machine pools)

theorem nodup_nodeNames (v : Volume) : (v.nodeNames machine pools).Nodup := by
  rw [nodeNames_eq]
  exact Naming.nodup_names _ _ _

/-- All that having a node's name in common can mean. -/
theorem exists_mem_nodeNames_iff {v w : Volume} (hne : v.name ≠ w.name) :
    (∃ name ∈ v.nodeNames machine pools, name ∈ w.nodeNames machine pools) ↔
      v.Shadows machine pools w ∨ w.Shadows machine pools v := by
  rw [nodeNames_eq, nodeNames_eq]
  constructor
  · rintro ⟨name, hv, hw⟩
    exact Naming.shadows_of_mem hne hv hw
  · rintro (h | h)
    · exact h.exists_mem
    · obtain ⟨name, hw, hv⟩ := h.exists_mem
      exact ⟨name, hv, hw⟩

end Volume

/-- The error below the machine's name is what it was. -/
theorem Error.isDuplicateName_forMachine (e : Error) (name : String) :
    (e.forMachine name).isDuplicateName = e.isDuplicateName := by
  cases e <;> rfl

namespace Definition

variable {machine : MachineInfo} {pools : NameMap Pool} {d : Definition}

theorem names_blockNodes (d : Definition) : (d.blockNodes machine pools).map BlockNode.name =
    d.attached.flatMap (Volume.nodeNames machine pools) := by
  rw [blockNodes, List.map_flatMap]
  rfl

/-- Of volumes with names of their own, the nodes have names of their own unless one volume shadows
another. -/
theorem nodup_names_iff (machine : MachineInfo) (pools : NameMap Pool)
    (hnames : (d.attached.map Volume.name).Nodup) :
    ((d.blockNodes machine pools).map BlockNode.name).Nodup ↔
      ∀ v ∈ d.attached, ∀ w ∈ d.attached, v.name ≠ w.name → ¬ v.Shadows machine pools w := by
  -- The nodes of one volume never share a name, so that only pairs of volumes count.
  rw [names_blockNodes, List.nodup_flatMap]
  constructor
  · rintro ⟨-, hpair⟩ v hv w hw hne hshadows
    have hsymm : Std.Symm (Function.onFun List.Disjoint (Volume.nodeNames machine pools)) :=
      ⟨fun _ _ h _ hw hv => h hv hw⟩
    obtain ⟨name, hnv, hnw⟩ := (Volume.exists_mem_nodeNames_iff hne).2 (.inl hshadows)
    exact hpair.forall hv hw (fun h => hne (congrArg Volume.name h)) hnv hnw
  · intro hnone
    refine ⟨fun v _ => v.nodup_nodeNames, ?_⟩
    refine (List.pairwise_map.1 hnames).imp_of_mem fun hv hw hne name hnv hnw => ?_
    rcases (Volume.exists_mem_nodeNames_iff hne).1 ⟨name, hnv, hnw⟩ with h | h
    · exact hnone _ hv _ hw hne h
    · exact hnone _ hw _ hv (Ne.symm hne) h

end Definition

namespace Machine

variable {m : Machine} {catalog : Catalog} {locations : Locations} {d : Definition}

theorem blockNodes_of_build {t : Target} (hd : m.resolve catalog = .ok d)
    (h : m.build catalog locations = .ok t) :
    t.settings.firmware = d.attributes.firmware.flash m.info catalog.pools ∧
      t.resources.blocks.entries = d.blockNodes m.info catalog.pools ∧
      t.resources.blocks.names.Nodup ∧
      ∀ v ∈ d.attached, (v.placed? m.info catalog.pools).isSome = true := by
  obtain ⟨d', hd', hrun⟩ := addDefinition_of_build h
  cases hd.symm.trans hd'
  exact (Build.addDefinition_blockNodes m.info d catalog locations).ok hrun

theorem clash_of_build {e : Error} (hd : m.resolve catalog = .ok d)
    (h : m.build catalog locations = .error e) : Clash (d.blockNodes m.info catalog.pools) e := by
  have hsteps := Build.addDefinition_blockNodes m.info d catalog locations
  simp only [build, compile, hd, bind, Except.bind] at h
  split at h
  · cases h
  · rename_i hrun
    cases h
    intro he
    rw [Error.isDuplicateName_forMachine] at he
    exact hsteps.error hrun he

/-- Of volumes with names of their own, a build fails for a name that is taken only where one of
them is named after a node of another, and answers only where none is; and to be so named is all
that having a node's name in common can mean. -/
theorem build_duplicateName (hd : m.resolve catalog = .ok d)
    (hnames : (d.attached.map Volume.name).Nodup) :
    (∀ e, m.build catalog locations = .error e → e.isDuplicateName = true →
      ∃ v ∈ d.attached, ∃ w ∈ d.attached, v.name ≠ w.name ∧ v.Shadows m.info catalog.pools w) ∧
    (∀ t, m.build catalog locations = .ok t →
      ∀ v ∈ d.attached, ∀ w ∈ d.attached, v.name ≠ w.name → ¬ v.Shadows m.info catalog.pools w) ∧
    ∀ v w : Volume, v.name ≠ w.name →
      ((∃ name ∈ v.nodeNames m.info catalog.pools, name ∈ w.nodeNames m.info catalog.pools) ↔
        v.Shadows m.info catalog.pools w ∨ w.Shadows m.info catalog.pools v) := by
  have hiff := Definition.nodup_names_iff m.info catalog.pools hnames
  refine ⟨fun e h he => ?_, fun t h => ?_, fun v w => Volume.exists_mem_nodeNames_iff⟩
  · refine Classical.byContradiction fun hnone => clash_of_build hd h he (hiff.2 ?_)
    exact fun v hv w hw hne hshadows => hnone ⟨v, hv, w, hw, hne, hshadows⟩
  · obtain ⟨-, hentries, hnodup, -⟩ := blockNodes_of_build hd h
    refine hiff.1 ?_
    rw [← hentries]
    exact hnodup

end Machine

namespace Sample

/-- One volume has the name of the other's file. -/
def twins : Machine where
  name := "desk"
  definition := {
    volumes := [{ name := "os", storage := "images" }, { name := "os-file", storage := "images" }] }

theorem exists_resolve_twins :
    ∃ d, twins.resolve host = .ok d ∧ d.attached.map Volume.name = ["os", "os-file"] := by
  have hnames : (twins.resolve host).toOption.any (fun d =>
      decide (d.attached.map Volume.name = ["os", "os-file"])) = true := by decide +kernel
  obtain ⟨d, hd, hdec⟩ := exists_of_any hnames
  exact ⟨d, hd, of_decide_eq_true hdec⟩

theorem exists_error_twins :
    ∃ e, twins.build host {} = .error e ∧ e.isDuplicateName = true := by
  have hfails : (match twins.build host {} with
      | .ok _ => false
      | .error e => e.isDuplicateName) = true := by decide +kernel
  cases h : twins.build host {} with
  | ok t => simp [h] at hfails
  | error e => exact ⟨e, rfl, by simpa [h] using hfails⟩

/-- Names of their own are not enough for a build. -/
theorem twins_clash : ∃ d, twins.resolve host = .ok d ∧ (d.attached.map Volume.name).Nodup ∧
    "" ∉ d.attached.map Volume.name ∧
    ∃ e, twins.build host {} = .error e ∧ e.isDuplicateName = true := by
  obtain ⟨d, hd, hnames⟩ := exists_resolve_twins
  refine ⟨d, hd, ?_, ?_, exists_error_twins⟩ <;> rw [hnames] <;> decide

theorem twins_shadow : ∃ d, twins.resolve host = .ok d ∧ ∃ v ∈ d.attached, ∃ w ∈ d.attached,
    v.name ≠ w.name ∧ v.Shadows twins.info host.pools w := by
  obtain ⟨d, hd, hnames⟩ := exists_resolve_twins
  obtain ⟨e, he, hdup⟩ := exists_error_twins
  have hnodup : (d.attached.map Volume.name).Nodup := by
    rw [hnames]
    decide
  exact ⟨d, hd, (Machine.build_duplicateName hd hnodup).1 e he hdup⟩

end Sample

end GuestCompiler
