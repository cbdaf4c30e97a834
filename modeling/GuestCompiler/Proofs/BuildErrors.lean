import GuestCompiler.Proofs.MachineInventory
import Mathlib.Data.Nat.Digits.Defs

/-!
# Errors that no build ends with

Some errors tell of a target that is not as the steps of a build leave it: a port in use that has
just been added, a controller that is not there, a device whose backing has not come before it. A
build that fails names its machine once and tells of none of these (`Machine.build_not_internal`).
-/
namespace GuestCompiler

/-- What can go wrong only with a target that no build arrives at, or outside of a build. -/
def Error.isInternal : Error → Bool
  | config _ => false
  | unresolved kind _ _ => kind = "block node" ∨ kind = "character device"
  | capacity .. => false
  | occupied _ => true
  | duplicateName registry _ =>
    registry = "character device registry" ∨ registry = "TPM device registry"
  | unsupportedType .. => false
  | invalidArgument fault =>
    match fault with
    | .noRootPort _ | .noController _ | .wrongController .. => true
    | _ => false
  | machine .. => true
  | io => true
  | record _ => true

/-- Nothing that keeps an inventory away is an error of this sort. -/
theorem Fault.isInternal_eq {items : List Item} {e : Error} (h : Fault items e) :
    e.isInternal = false := by
  cases h with
  | unknown hkind =>
    have hall : ∀ kind ∈ ["processor", "storage pool", "network", "device class"],
        ¬ (kind = "block node" ∨ kind = "character device") := by decide
    exact decide_eq_false (hall _ hkind)
  | _ => rfl

theorem Fault.of_longCharDeviceId {items : List Item} {id : String} {limit : Nat}
    (h : Fault items (.invalidArgument (.longCharDeviceId id limit))) :
    id ∈ Item.charDeviceIds items ∧ CharDevice.maxId < (Text.utf8 id).length := by
  cases h with
  | longId hmem hlong => exact ⟨hmem, hlong⟩

section Lengths

theorem Text.length_utf8_le (s : String) : (Text.utf8 s).length ≤ 4 * s.length := by
  have hbound (cs : List Char) : (cs.flatMap String.utf8EncodeChar).length ≤ 4 * cs.length := by
    induction cs with
    | nil => exact Nat.zero_le _
    | cons c cs ih =>
      have hsize := c.utf8Size_le_four
      rw [List.flatMap_cons, List.length_append, String.length_utf8EncodeChar, List.length_cons]
      omega
  exact hbound s.toList

theorem Attributes.length_charDeviceId_le {a : Attributes} {machine : String} {runDir : Path}
    {id : String} (h : id ∈ Item.charDeviceIds (a.items machine runDir))
    (hsockets : (a.qmp.socketPaths runDir machine).length < 2 ^ 64) :
    (Text.utf8 id).length ≤ CharDevice.maxId := by
  rw [charDeviceIds_items] at h
  rcases List.mem_append.1 h with hmonitor | hown
  · obtain ⟨n, hn, rfl⟩ := Qmp.number_of_mem_monitorIds hmonitor
    have hlt : n < 10 ^ 20 := by omega
    have hdigits : (toString n).length ≤ 20 := Nat.repr_length n 20 (by decide) hlt
    calc (Text.utf8 ("qmp." ++ toString n)).length
        ≤ 4 * ("qmp." ++ toString n).length := Text.length_utf8_le _
      _ = 4 * (4 + (toString n).length) := by rw [String.length_append]; rfl
      _ ≤ CharDevice.maxId := by unfold CharDevice.maxId; omega
  · have hall : ∀ id ∈ "guestagent" :: (Build.displayIds ++ ["tpm.0.socket"]),
        (Text.utf8 id).length ≤ CharDevice.maxId := by decide
    exact hall id (a.ownIds_sublist.subset hown)

end Lengths

/-- A build that fails names its machine, and tells of nothing but the definition, the catalog and
the room that there is. No memory holds as many sockets as it takes for the number of one to make
an id too long. -/
theorem Machine.build_not_internal {m : Machine} {catalog : Catalog} {locations : Locations}
    {e : Error} (h : m.build catalog locations = .error e) :
    ∃ cause, e = .machine m.name cause ∧ cause.isInternal = false ∧
      ∀ id limit, cause = .invalidArgument (.longCharDeviceId id limit) →
        ∃ d, m.resolve catalog = .ok d ∧
          2 ^ 64 ≤ (d.attributes.qmp.socketPaths locations.runDir m.name).length := by
  obtain ⟨cause, rfl, ⟨name, rfl⟩ | ⟨d, hd, hfault⟩⟩ := fault_of_build h
  · exact ⟨_, rfl, rfl, nofun⟩
  · refine ⟨cause, rfl, hfault.isInternal_eq, ?_⟩
    rintro id limit rfl
    refine ⟨d, hd, Nat.le_of_not_lt fun hsockets => ?_⟩
    obtain ⟨hmem, hlong⟩ := hfault.of_longCharDeviceId
    rw [d.charDeviceIds_items] at hmem
    exact absurd (Attributes.length_charDeviceId_le hmem hsockets) (Nat.not_le.2 hlong)

namespace Sample

/-- A machine with a disk in a pool that the host does not have. -/
def stray : Machine where
  name := "stray"
  definition := { volumes := [{ name := "os", storage := "attic" }] }

theorem stray_not_internal :
    ∃ e, stray.build host {} = .error e ∧ ∃ cause, e = .machine "stray" cause ∧
      cause.isInternal = false ∧ cause = .unresolved "storage pool" "volume os" "attic" := by
  have hfails : stray.build host {} =
      .error (.machine "stray" (.unresolved "storage pool" "volume os" "attic")) := by
    decide +kernel
  obtain ⟨cause, heq, hinternal, -⟩ := Machine.build_not_internal hfails
  cases heq
  exact ⟨_, hfails, _, rfl, hinternal, rfl⟩

end Sample

end GuestCompiler
