import GuestCompiler.Machine.Basic
import GuestCompiler.Locations
import GuestCompiler.Proofs.Codecs
import GuestCompiler.Proofs.IdentityText
import GuestCompiler.Proofs.NameMaps
import GuestCompiler.Proofs.PlainText

/-!
# Records read back

A record that has been written is read back as it was, with every setting that is left out because
it is unset (`records_restored`). Two things do not come back: a World Wide Name that no text reads
as, and a firmware volume that is left out for having neither name nor pool although something else
is set in it. A definition without them is recordable.
-/
namespace GuestCompiler

open Json

section Identities

variable {n : Nat}

theorem Wwn.restores {w : Wwn} (h : w.Readable) :
    Wwn.codec.absentWhenEmpty.Restores n (some w) := by
  refine Codec.restores_absentWhenEmpty ?_ ?_
  · rw [h.parse_toString]
    rfl
  · intro hempty
    have hchars := congrArg String.toList hempty
    simp [Wwn.toString] at hchars

theorem MacAddress.restores (m : MacAddress) :
    MacAddress.codec.absentWhenEmpty.Restores n (some m) := by
  refine Codec.restores_absentWhenEmpty ?_ ?_
  · rw [m.parse?_toString]
    rfl
  · intro hempty
    have hparse := m.parse?_toString
    rw [hempty] at hparse
    cases hparse

theorem Uuid.restores (u : Uuid) : Uuid.codec.Restores n u where
  decode := by
    change ((Uuid.parse? u.toString).map Except.ok).getD _ = _
    rw [u.parse?_toString]
    rfl
  sound := Value.isSound_ofString u.toString

theorem Uuid.restores_option (u : Uuid) : Uuid.codec.absentWhenEmpty.Restores n (some u) := by
  refine Codec.restores_absentWhenEmpty ?_ u.toString_ne_empty
  rw [u.parse?_toString]
  rfl

end Identities

section Recordable

/-- Some text reads as the World Wide Name that a volume may have. -/
def Volume.Recordable (v : Volume) : Prop := ∀ wwn, v.wwn = some wwn → wwn.Readable

/-- What is written of a slot for firmware is all that is set in it. -/
structure Firmware.SlotRecordable (v : Volume) : Prop where
  wwn : v.Recordable
  left : v = {} ∨ v.name ≠ "" ∨ v.storage ≠ ""

structure Definition.Recordable (d : Definition) : Prop where
  code : Firmware.SlotRecordable d.attributes.firmware.code
  vars : Firmware.SlotRecordable d.attributes.firmware.vars
  volumes : ∀ v ∈ d.volumes, v.Recordable

end Recordable

section Definitions

variable (n : Nat)

theorem Volume.restores {v : Volume} (h : v.Recordable) : codec.Restores (n + 1) v :=
  Codec.restores_record (by decide) <|
    .cons (.always (Codec.restores_string _)) <| .cons (.always (Codec.restores_string _)) <|
    .cons (.option rfl fun w hw => Wwn.restores (h w hw)) <| .cons (.string rfl) <|
    .cons (.flag rfl) .nil

theorem Connection.restores (c : Connection) : codec.Restores (n + 1) c :=
  Codec.restores_record (by decide) <|
    .cons (.always (Codec.restores_string _)) <| .cons (.always (Codec.restores_string _)) <|
    .cons (.string rfl) <| .cons (.option rfl fun mac _ => mac.restores) .nil

theorem Device.restores (d : Device) : codec.Restores (n + 1) d :=
  Codec.restores_record (by decide) <|
    .cons (.always (Codec.restores_string _)) <| .cons (.always (Codec.restores_string _)) <|
    .cons (.option rfl fun id _ => id.restores_option) .nil

theorem Firmware.SlotRecordable.eq_unset {v : Volume} (h : SlotRecordable v)
    (hempty : v.isEmpty = true) : v = {} := by
  simp only [Volume.isEmpty, Bool.and_eq_true, beq_iff_eq] at hempty
  exact h.left.resolve_right fun hset => hset.elim (· hempty.1) (· hempty.2)

theorem Firmware.restores {f : Firmware} (hcode : SlotRecordable f.code)
    (hvars : SlotRecordable f.vars) : codec.Restores (n + 2) f :=
  Codec.restores_record (by decide) <|
    .cons (.optional rfl hcode.eq_unset fun _ => Volume.restores n hcode.wwn) <|
    .cons (.optional rfl hvars.eq_unset fun _ => Volume.restores n hvars.wwn) .nil

theorem Cpu.restores (c : Cpu) : codec.Restores (n + 1) c :=
  Codec.restores_record (by decide) <|
    .cons (.string rfl) <| .cons (.uint32 rfl) <| .cons (.uint32 rfl) <| .cons (.uint32 rfl) .nil

theorem Sockets.restores (s : Sockets) : codec.Restores (n + 2) s :=
  Codec.restores_record (by decide) <|
    .cons (.list rfl fun _ _ => Codec.restores_string _) <|
    .cons (.list rfl fun _ _ => Codec.restores_string _) .nil

theorem Qmp.restores (q : Qmp) : codec.Restores (n + 3) q :=
  Codec.restores_record (by decide) <|
    .cons (.flag rfl) <| .cons (.always (q.sockets.restores n)) .nil

theorem Agent.restores (a : Agent) : codec.Restores (n + 2) a :=
  Codec.restores_record (by decide) <| .cons (.always <| Codec.restores_record (by decide) <|
    .cons (.flag rfl) <| .cons (.uint16 rfl) <| .cons (.string rfl) .nil) .nil

theorem Spice.restores (s : Spice) : codec.Restores (n + 1) s :=
  Codec.restores_record (by decide) <|
    .cons (.flag rfl) <| .cons (.uint16 rfl) <| .cons (.string rfl) <| .cons (.uint32 rfl) .nil

theorem Attributes.restores_enabled (b : Bool) : enabledCodec.Restores (n + 1) b :=
  Codec.restores_record (by decide) <| .cons (.flag rfl) .nil

theorem Attributes.restores {a : Attributes} (hcode : Firmware.SlotRecordable a.firmware.code)
    (hvars : Firmware.SlotRecordable a.firmware.vars) : codec.Restores (n + 4) a :=
  Codec.restores_record (by decide) <|
    .cons (.always (Firmware.restores (n + 1) hcode hvars)) <|
    .cons (.always (a.cpu.restores (n + 2))) <|
    .cons (.always <| Codec.restores_record (by decide) <| .cons (.uint32 rfl) .nil) <|
    .cons (.always (restores_enabled (n + 2) _)) <| .cons (.always (a.qmp.restores n)) <|
    .cons (.always (a.agent.restores (n + 1))) <| .cons (.always (a.spice.restores (n + 2))) <|
    .cons (.always (restores_enabled (n + 2) _)) .nil

theorem Group.restores (g : Group) : privilegesCodec.Restores (n + 3) g :=
  Codec.restores_record (by decide) <| .cons (.always <| Codec.restores_record (by decide) <|
    .cons (.always <| Codec.restores_record (by decide) <|
      .cons (.string rfl) <| .cons (.uint32 rfl) .nil) .nil) .nil

theorem Definition.copiedBy {d : Definition} (h : d.Recordable) :
    Member.CopiedBy (n + 4) d members {} d :=
  .cons (.nameMap rfl fun _ _ => Codec.restores_string _) <|
    .cons (.always (d.group.restores (n + 1))) <|
    .cons (.always (Attributes.restores n h.code h.vars)) <|
    .cons (.list rfl fun v hv => Volume.restores (n + 2) (h.volumes v hv)) <|
    .cons (.list rfl fun c _ => c.restores (n + 2)) <|
    .cons (.list rfl fun v _ => v.restores (n + 2)) .nil

theorem Definition.restores {d : Definition} (h : d.Recordable) : codec.Restores (n + 5) d :=
  Codec.restores_record (by decide) (copiedBy n h)

end Definitions

section Catalogs

variable (n : Nat)

theorem Pool.restores (p : Pool) : codec.Restores (n + 1) p :=
  Codec.restores_record (by decide) <|
    .cons (.always (Codec.restores_path _)) <| .cons (.string rfl) <| .cons (.string rfl) <|
    .cons (.flag rfl) .nil

theorem Network.restores (w : Network) : codec.Restores (n + 1) w :=
  Codec.restores_record (by decide) <|
    .cons (.always (Codec.restores_string _)) <| .cons (.string rfl) <| .cons (.string rfl) .nil

theorem MediatedType.restores (t : MediatedType) : codec.Restores (n + 2) t :=
  Codec.restores_record (by decide) <|
    .cons (.always (Codec.restores_string _)) <|
    .cons (.list rfl fun _ _ => Codec.restores_uint32 _) .nil

theorem MediatedDevice.restores (d : MediatedDevice) : codec.Restores (n + 4) d :=
  Codec.restores_record (by decide) <|
    .cons (.always (Codec.restores_string _)) <| .cons (.always (Codec.restores_bool _)) <|
    .cons (.nameMap rfl fun t _ => t.restores n) .nil

theorem Processor.restores (p : Processor) : codec.Restores (n + 1) p :=
  Codec.restores_record (by decide) <|
    .cons (.always (Codec.restores_string _)) <| .cons (.string rfl) <|
    .cons (.always (Codec.restores_uint32 _)) <| .cons (.always (Codec.restores_bool _)) .nil

def Catalog.Recordable (c : Catalog) : Prop := ∀ name d, c.tags.get? name = some d → d.Recordable

theorem Catalog.Recordable.of_mem_values {c : Catalog} (h : c.Recordable) {d : Definition}
    (hd : d ∈ c.tags.values) : d.Recordable := by
  obtain ⟨name, hname⟩ := NameMap.mem_values_iff.1 hd
  exact h name d hname

theorem Catalog.restores {c : Catalog} (h : c.Recordable) : codec.Restores (n + 7) c :=
  Codec.restores_record (by decide) <|
    .cons (.nameMap rfl fun p _ => p.restores (n + 4)) <|
    .cons (.nameMap rfl fun w _ => w.restores (n + 4)) <|
    .cons (.nameMap rfl fun d _ => d.restores (n + 1)) <|
    .cons (.nameMap rfl fun p _ => p.restores (n + 4)) <|
    .cons (.nameMap rfl fun d hd => Definition.restores n (h.of_mem_values hd)) .nil

theorem Locations.restores (l : Locations) : codec.Restores (n + 1) l :=
  Codec.restores_record (by decide) <|
    .cons (.always (Codec.restores_path _)) <| .cons (.always (Codec.restores_path _)) .nil

end Catalogs

theorem Machine.copiedBy (n : Nat) (m : Machine) :
    Member.CopiedBy (n + 1) m members {} { m with definition := {} } :=
  .cons (.always (Codec.restores_string _)) <| .cons (.string rfl) <|
    .cons (.always m.id.restores) <| .cons (.list rfl fun _ _ => Codec.restores_string _) .nil

/-- The definition, which stands beside the machine's own members, is read from what they leave. -/
theorem Machine.decode_encode {m : Machine} (h : m.definition.Recordable) :
    codec.decode (codec.encode m) = .ok m :=
  Codec.decode_flattened (by decide) (m.copiedBy 0) (Definition.copiedBy 122 h) rfl

/-- What is written of a machine, a catalog, a definition or the locations reads as that again. -/
theorem records_restored :
    (∀ m : Machine, m.definition.Recordable →
      Machine.codec.decode (Machine.codec.encode m) = .ok m) ∧
    (∀ c : Catalog, c.Recordable → Catalog.codec.decode (Catalog.codec.encode c) = .ok c) ∧
    (∀ d : Definition, d.Recordable →
      Definition.codec.decode (Definition.codec.encode d) = .ok d) ∧
    ∀ l : Locations, Locations.codec.decode (Locations.codec.encode l) = .ok l :=
  ⟨fun _ h => Machine.decode_encode h, fun _ h => (Catalog.restores 0 h).decode,
    fun _ h => (Definition.restores 0 h).decode, fun l => (l.restores 0).decode⟩

namespace Sample

def diskName : Wwn := .w64 ⟨[0x52, 0x54, 0, 0, 0, 0, 0, 0xfe], rfl⟩

/-- A machine with firmware from a pool, and a disk with a World Wide Name of its own. -/
def recorded : Machine where
  name := "rec"
  tags := ["base"]
  definition := {
    attributes := { firmware := { code := { storage := "firmware" } }, ram := 2048 }
    volumes := [{ name := "os", storage := "images", wwn := some diskName, bootable := true }] }

def recordedTag : Catalog where
  tags := .ofList [("base", recorded.definition)]

theorem recorded_recordable : recorded.definition.Recordable where
  code := ⟨fun _ h => (by cases h), .inr (.inr (by decide))⟩
  vars := ⟨fun _ h => (by cases h), .inl rfl⟩
  volumes := List.forall_mem_singleton.2 fun _ h => by
    cases h
    exact ⟨"52:54:00:00:00:00:00:fe", by decide +kernel⟩

theorem recordedTag_recordable : recordedTag.Recordable := by
  intro name d hd
  simp only [recordedTag, NameMap.ofList, List.foldl_cons, List.foldl_nil, NameMap.get?_insert,
    NameMap.get?_empty] at hd
  split at hd
  · cases hd
    exact recorded_recordable
  · cases hd

/-- The machine is read back, and so is a catalog with the machine's definition as a tag. -/
theorem recorded_restored : recorded.definition.Recordable ∧ recordedTag.Recordable ∧
    Machine.codec.decode (Machine.codec.encode recorded) = .ok recorded ∧
    Catalog.codec.decode (Catalog.codec.encode recordedTag) = .ok recordedTag ∧
    Definition.codec.decode (Definition.codec.encode recorded.definition) =
      .ok recorded.definition := by
  obtain ⟨hmachine, hcatalog, hdefinition, -⟩ := records_restored
  exact ⟨recorded_recordable, recordedTag_recordable, hmachine _ recorded_recordable,
    hcatalog _ recordedTag_recordable, hdefinition _ recorded_recordable⟩

end Sample

end GuestCompiler
