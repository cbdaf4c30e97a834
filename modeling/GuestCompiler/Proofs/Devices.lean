import GuestCompiler.Proofs.Changes

/-!
# What holds of all devices

An edit of a topology adds a device, or puts something behind a port. A property of all devices is
kept where the new or changed device has it; the rules here say which device that is.
-/
namespace GuestCompiler

open Edit

namespace Topology

def All (P : TopLevel → Prop) (t : Topology) : Prop := ∀ d ∈ t.devices, P d

variable {P : TopLevel → Prop} {t : Topology}

theorem All.concat (ht : t.All P) {d : TopLevel} (hd : P d) : ∀ d' ∈ t.devices ++ [d], P d' :=
  List.forall_mem_append.2 ⟨ht, List.forall_mem_singleton.2 hd⟩

theorem All.replace (ht : t.All P) {before after : List TopLevel} {d d' : TopLevel}
    (hsplit : t.devices = before ++ d :: after) (hd : P d → P d') :
    ∀ x ∈ before ++ d' :: after, P x := by
  rw [All, hsplit, List.forall_mem_append, List.forall_mem_cons] at ht
  obtain ⟨hbefore, hold, hafter⟩ := ht
  exact List.forall_mem_append.2 ⟨hbefore, List.forall_mem_cons.2 ⟨hd hold, hafter⟩⟩

theorem All.addFunction {α : Type} (ht : t.All P) {make : Topology → TopLevel × FamilyCounts × α}
    (hd : P (make t).1) : Yields (addFunction make) t fun _ t' => t'.All P := by
  refine Meets.imp (meets_addFunction make t).yields ?_
  rintro _ _ ⟨-, -, rfl⟩
  exact ht.concat hd

theorem All.addTpm (ht : t.All P) {tpmDevice : String} (hd : P (.tpm tpmDevice)) :
    Yields (addTpm tpmDevice) t fun _ t' => t'.All P :=
  ht.concat hd

theorem All.addCdrom (ht : t.All P) {drive : String} {bootIndex : Option Nat}
    (hd : t.sata < maxSata →
      P (.cdrom (t.counts.next "sata") ("ide." ++ toString t.sata) drive bootIndex)) :
    Yields (addCdrom drive bootIndex) t fun _ t' => t'.All P := by
  refine Meets.imp (meets_addCdrom drive bootIndex t).yields ?_
  rintro _ _ ⟨hroom, -, rfl⟩
  exact ht.concat (hd hroom)

theorem All.attach (ht : t.All P) (root : RootPortRef) (family : String)
    {make : String → String → Downstream}
    (hport : ∀ port, P (.rootPort port) →
      P (.rootPort { port with downstream := some (make (t.counts.next family) port.id) })) :
    Yields (attach root family make) t fun _ t' => t'.All P := by
  refine Meets.imp (meets_attach root family make t).yields ?_
  rintro _ _ ⟨-, before, after, port, hsplit, -, -, rfl⟩
  exact ht.replace hsplit (hport port)

/-- An edit of a controller that keeps the port it is behind as it should be. -/
theorem All.onController {α : Type} (ht : t.All P) (c : ControllerRef)
    {edit : Edit Error Controller α}
    (hedit : ∀ port controller, P (.rootPort port) →
      port.downstream = some (.controller controller) → Yields edit controller fun _ c' =>
        P (.rootPort { port with downstream := some (.controller c') })) :
    Yields (onController c edit) t fun _ t' => t'.All P := by
  simp only [Yields, Meets, Topology.onController]
  cases hc : t.controller? c with
  | error e => trivial
  | ok controller =>
    obtain ⟨port, hport, hdown⟩ := controller?_eq_ok.1 hc
    obtain ⟨before, after, hsplit, hposition⟩ := exists_split hport
    simp only
    cases hrun : edit controller with
    | error e c' => trivial
    | ok a c' =>
      -- It goes back behind the port that it was found behind.
      simp only [← hposition, setDownstream_of_split hsplit]
      exact ht.replace hsplit fun hold => (hedit port controller hold hdown).ok hrun

end Topology

/-- A controller that is remembered changes nothing, and another one takes a port of its own. -/
theorem DeviceTree.shared_stable {inv : Topology → Prop} (hroot : Stable inv Topology.addRoot)
    {kind : ControllerKind} (hadd : ∀ root, Stable inv (Topology.addController root kind))
    {known : DeviceTree → Option ControllerRef} {remember : ControllerRef → DeviceTree → DeviceTree}
    (hremember : ∀ c t, (remember c t).topology = t.topology) :
    Stable (fun t : DeviceTree => inv t.topology) (shared known remember kind) := by
  have honTopology {α : Type} {edit : Edit Error Topology α} (h : Stable inv edit) :
      Stable (fun t : DeviceTree => inv t.topology) (onTopology edit) :=
    .within (fun _ ht => ht) (fun _ _ _ hs => hs) h
  refine .bind .get fun t _ => ?_
  cases known t with
  | some c => exact .pure trivial
  | none =>
    refine .bind (honTopology hroot) fun root _ => ?_
    refine .bind (honTopology (hadd root)) fun c _ => ?_
    refine .bind (.modify fun t ht => ?_) fun _ _ => .pure trivial
    rw [hremember]
    exact ht

end GuestCompiler
