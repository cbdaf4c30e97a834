import GuestCompiler.Proofs.Cards
import GuestCompiler.Proofs.RefusedVolumes

/-!
# Read-only volumes

The nodes of a volume in a read-only pool are read-only, but for the format node of an image: its
file is opened read-only, and the node over the file, which is the one that the drive is wired to,
is not told so (`Attachment.apply_readOnly`).
-/
namespace GuestCompiler

open Edit Parameter

theorem NodeFlags.column_readOnly (f : NodeFlags) :
    column f.parameters "read-only" = if f.readOnly then ["on"] else [] := by
  cases hzeroes : f.detectZeroes <;> cases hdiscard : f.discard <;>
    simp [parameters, hzeroes, hdiscard]

/-- An option says that a node is read-only exactly where it is. -/
theorem BlockNode.column_readOnly (node : BlockNode) :
    column node.parameters "read-only" = if node.isReadOnly then ["on"] else [] := by
  cases node <;> simp [parameters, NodeFlags.column_readOnly] <;> rfl

namespace Attachment

/-- Whether there is a format node over the file. -/
def isImage : Attachment → Bool
  | rawScsi | rawBlock => true
  | _ => false

theorem isImage_iff {a : Attachment} {p : PlacedVolume} (ha : Attachment.of p = .ok a) :
    a.isImage = true ↔ p.pool.kind ∈ ["raw", "raw-scsi", "raw-block"] := by
  unfold Attachment.of at ha
  split at ha <;> cases ha
  rename_i hkind
  unfold ofKind? at hkind
  split_ifs at hkind with hscsi hblock hvvfat hahci hcd husb hfirmware htpm <;> cases hkind
  case pos => rcases hscsi with h | h <;> simp [h, isImage]
  all_goals simp_all [isImage]

variable {a : Attachment} {p : PlacedVolume}

/-- Of the nodes of a volume in a read-only pool, only an image's own one may be written. -/
theorem isReadOnly_iff (hpool : p.pool.readOnly = true) {node : BlockNode}
    (hnode : node ∈ a.nodes p) :
    node.isReadOnly = true ↔ ¬ (a.isImage = true ∧ node.name = a.nodeName p) := by
  have hfile (name : String) : BlockNode.childName name "file" ≠ name := Naming.childName_ne name
  cases a with
  | rawScsi | rawBlock =>
    simp only [nodes, List.mem_cons, List.not_mem_nil, or_false] at hnode
    rcases hnode with rfl | rfl
    · simp [BlockNode.isReadOnly, BlockNode.name, hpool, hfile]
    · simp [BlockNode.isReadOnly, BlockNode.name, isImage]
  | vvfatBlock | isoAhci | isoScsi | isoUsb | firmware =>
    simp only [nodes, List.mem_singleton] at hnode
    subst hnode
    simp [BlockNode.isReadOnly, isImage, hpool]
  | tpmData => exact absurd hnode List.not_mem_nil

theorem forall_isReadOnly_iff (hpool : p.pool.readOnly = true) :
    (∀ node ∈ a.nodes p, node.isReadOnly = true) ↔ a.isImage = false := by
  constructor
  · -- An image has the format node that goes by the volume's own name.
    intro hall
    by_contra hnot
    have himage : a.isImage = true := (Bool.not_eq_false _).mp hnot
    have hformat : ∃ node ∈ a.nodes p, node.name = a.nodeName p := by
      cases a <;> simp [isImage] at himage <;> simp [nodes, BlockNode.name]
    obtain ⟨node, hnode, hname⟩ := hformat
    exact (isReadOnly_iff hpool hnode).1 (hall node hnode) ⟨himage, hname⟩
  · intro himage node hnode
    apply (isReadOnly_iff hpool hnode).2
    intro hboth
    exact Bool.false_ne_true (himage.symm.trans hboth.1)

/-- A volume that is attached adds its nodes and no others. -/
theorem apply_entries (a : Attachment) (p : PlacedVolume) (t : Target) :
    Yields (a.apply p) t fun _ t' =>
      t'.resources.blocks.entries = t.resources.blocks.entries ++ a.nodes p := by
  apply Meets.bind (Target.addNodes_extends (a.nodes p) t).yields
  intro _ t₁ hnodes
  obtain ⟨blocks, hblocks, rfl⟩ := hnodes
  cases a.drive? with
  | none => exact hblocks.entries
  | some drive =>
    -- The drive only names a node; what is kept by name stays as the nodes have left it.
    apply Meets.bind (drive.attach_quiet p (a.nodeName p) _).yields
    intro _ t₂ hledger
    have hsame : t₂.resources.blocks = blocks := congrArg Ledger.blocks hledger
    rw [meets_pure, hsame]
    exact hblocks.entries

/-- The options for the nodes are written behind those that are there. -/
theorem apply_blockdevs {t t' : Target} (h : a.apply p t = .ok () t') :
    t'.options.filter (·.kind == "blockdev") = t.options.filter (·.kind == "blockdev") ++
      (a.nodes p).map fun node => ⟨"blockdev", node.parameters⟩ := by
  have hentries := (apply_entries a p t).ok h
  rw [Target.filter_options t'.block_mem_sections, Target.filter_options t.block_mem_sections,
    hentries]
  simp [CommandOption.ofKind]

/-- Of the nodes that come with a volume of a read-only pool, all are read-only, and written as
such, but for the one that the drive of an image is wired to; it alone is neither. So all of them
are where the pool is not of a kind for images. -/
theorem apply_readOnly {t t' : Target} (hpool : p.pool.readOnly = true)
    (h : a.apply p t = .ok () t') :
    t'.resources.blocks.entries = t.resources.blocks.entries ++ a.nodes p ∧
    t'.options.filter (·.kind == "blockdev") = t.options.filter (·.kind == "blockdev") ++
      (a.nodes p).map (fun node => ⟨"blockdev", node.parameters⟩) ∧
    (∀ node ∈ a.nodes p, column node.parameters "read-only" =
      if a.isImage = true ∧ node.name = a.nodeName p then [] else ["on"]) ∧
    ((∀ node ∈ a.nodes p, node.isReadOnly = true) ↔ a.isImage = false) ∧
    (Attachment.of p = .ok a →
      ((∀ node ∈ a.nodes p, node.isReadOnly = true) ↔
        p.pool.kind ∉ ["raw", "raw-scsi", "raw-block"])) := by
  have hall : (∀ node ∈ a.nodes p, node.isReadOnly = true) ↔ a.isImage = false :=
    forall_isReadOnly_iff hpool
  refine ⟨(apply_entries a p t).ok h, apply_blockdevs h, ?_, hall, ?_⟩
  · intro node hnode
    have hiff := isReadOnly_iff hpool hnode
    rw [BlockNode.column_readOnly]
    by_cases hformat : a.isImage = true ∧ node.name = a.nodeName p
    · have hwritten : ¬ node.isReadOnly = true := fun hread => hiff.1 hread hformat
      rw [if_pos hformat, if_neg hwritten]
    · rw [if_neg hformat, if_pos (hiff.2 hformat)]
  · intro ha
    rw [hall, ← isImage_iff ha, Bool.not_eq_true]

end Attachment

namespace Sample

/-- An image in a pool that is not to be written. -/
def archive : PlacedVolume where
  machine := desktop.info
  volume := { name := "os", storage := "images" }
  pool := { path := ⟨"/images"⟩, kind := "raw", readOnly := true }

theorem exists_apply_archive : ∃ t, Attachment.rawScsi.apply archive {} = .ok () t := by
  have hanswer : Edit.answer (Attachment.rawScsi.apply archive {}) = .ok () := by decide +kernel
  cases hrun : Attachment.rawScsi.apply archive {} with
  | ok _ t => exact ⟨t, rfl⟩
  | error e _ =>
    rw [hrun] at hanswer
    cases hanswer

theorem archive_readOnly : ∃ t, archive.pool.readOnly = true ∧
    Attachment.rawScsi.apply archive {} = .ok () t ∧
    t.resources.blocks.entries = Attachment.rawScsi.nodes archive ∧
    ¬ ∀ node ∈ Attachment.rawScsi.nodes archive, node.isReadOnly = true := by
  obtain ⟨t, hrun⟩ := exists_apply_archive
  obtain ⟨hentries, -, -, hall, -⟩ := Attachment.apply_readOnly rfl hrun
  exact ⟨t, rfl, hrun, hentries, fun hread => nomatch hall.1 hread⟩

/-- The node of a read-only image that its drive names may be written. -/
theorem archive_writable : Attachment.of archive = .ok .rawScsi ∧ archive.pool.readOnly = true ∧
    ∃ t, Attachment.rawScsi.apply archive {} = .ok () t ∧
      ∃ node ∈ t.resources.blocks.entries, node.name = "desk-os" ∧ node.isReadOnly = false ∧
        ⟨"blockdev", node.parameters⟩ ∈ t.options ∧ column node.parameters "read-only" = [] := by
  obtain ⟨t, hrun⟩ := exists_apply_archive
  have hentries := (Attachment.apply_entries .rawScsi archive {}).ok hrun
  let format := BlockNode.raw "desk-os" "desk-os-file" { discard := true, detectZeroes := .unmap }
  have hformat : format ∈ t.resources.blocks.entries := by
    rw [hentries]
    decide +kernel
  have hoption : ⟨"blockdev", format.parameters⟩ ∈ t.options :=
    Target.mem_options t.block_mem_sections (List.mem_map.2 ⟨format, hformat, rfl⟩)
  exact ⟨rfl, rfl, t, hrun, format, hformat, rfl, rfl, hoption, rfl⟩

end Sample

end GuestCompiler
