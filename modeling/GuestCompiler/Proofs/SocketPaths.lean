import GuestCompiler.Definition.Attributes
import GuestCompiler.Proofs.Containment
import GuestCompiler.Proofs.Merging
import GuestCompiler.Proofs.PathComponents

/-!
# Where sockets are

A socket is a file of the runtime directory with a name that begins with the machine's. Both the
machine's name and the socket's are free texts: one with a slash in it is a path of its own, which
may start over from the root or climb out of the directory, and the socket then is in the directory
only where it comes back to it (`Qmp.sockets_held`).
-/
namespace GuestCompiler

namespace Path

/-- A directory holds what a file's name leads to: an absolute one where it goes down the names of
the directory, and another one where it comes back, by the names of the directory, from as far as
it has climbed. -/
def Holds (p : Path) (file : String) : Prop :=
  if isAbsolute ⟨file⟩ then
    p.resolve = [] ∨ p.isAbsolute = true ∧ p.names <+: names ⟨file⟩
  else
    p.names.drop (p.names.length - climbs ⟨file⟩) <+: names ⟨file⟩ ∧
      (climbs ⟨file⟩ ≤ p.names.length ∨ p.isAbsolute = true ∨ p.names = [])

section Absolute

variable {p : Path} {file : String}

theorem resolve_of_absolute (h : p.isAbsolute = true) :
    p.resolve = .root :: p.names.map .name := by
  rw [resolve_eq, h]
  rfl

theorem not_root_mem_resolve (h : p.isAbsolute = false) : Component.root ∉ p.resolve := by
  rw [resolve_of_relative h]
  simp

/-- Nothing of the directory is left below a file that starts over from the root. -/
theorem resolve_prefix_join_of_absolute (h : isAbsolute ⟨file⟩ = true) :
    p.resolve <+: (p.join file).resolve ↔
      p.resolve = [] ∨ p.isAbsolute = true ∧ p.names <+: names ⟨file⟩ := by
  have hjoin : p.join file = ⟨file⟩ := if_pos h
  have hinj : Function.Injective Component.name := fun _ _ heq => Component.name.inj heq
  rw [hjoin, resolve_of_absolute h]
  cases hp : p.isAbsolute with
  | true =>
    rw [resolve_of_absolute hp, List.prefix_cons_inj, List.prefix_map_iff_of_injective hinj]
    simp
  | false =>
    constructor
    · intro hprefix
      cases hresolve : p.resolve with
      | nil => exact .inl rfl
      | cons c rest =>
        -- What a relative path begins with is no root.
        rw [hresolve, List.cons_prefix_cons] at hprefix
        have hroot : Component.root ∈ p.resolve := by
          rw [hresolve, hprefix.1]
          exact List.mem_cons_self
        exact absurd hroot (not_root_mem_resolve hp)
    · intro hholds
      rcases hholds with hnil | ⟨hfalse, -⟩
      · rw [hnil]
        exact List.nil_prefix
      · exact absurd hfalse Bool.false_ne_true

end Absolute

theorem resolve_prefix_join_iff (p : Path) (file : String) :
    p.resolve <+: (p.join file).resolve ↔ p.Holds file := by
  unfold Holds
  cases h : isAbsolute ⟨file⟩ with
  | true =>
    rw [if_pos rfl]
    exact resolve_prefix_join_of_absolute h
  | false =>
    rw [if_neg Bool.false_ne_true, resolve_join_eq h, resolve_eq p]
    exact prefix_iff ..

section Files

/-- A name without a slash, and not as short as a dot or two, is a file of the directory. -/
theorem resolve_join_of_not_mem (p : Path) {file : String} (hslash : '/' ∉ file.toList)
    (hlength : 2 < file.length) : (p.join file).resolve = p.resolve ++ [.name file] := by
  have hrelative := isAbsolute_of_not_mem hslash
  -- The one piece is too long for a step back or for no step at all.
  have hsteps : steps file.toList = [.name file] := by
    rw [steps, List.splitOn_eq_singleton hslash,
      List.filterMap_cons_some (ofPiece_of_length hlength), String.ofList_toList,
      List.filterMap_nil]
  rw [resolve_join hrelative, hsteps, resolve_eq_steps p]
  exact List.reverse_cons

end Files

end Path

section Names

def Qmp.socketFile (machine socket : String) : String := machine ++ ".qmp." ++ socket ++ ".sock"

def Attributes.tpmFile (machine : String) : String := machine ++ ".swtpm.sock"

theorem Qmp.length_socketFile (machine socket : String) :
    2 < (socketFile machine socket).length := by
  have hsuffix : ".sock".length = 5 := rfl
  rw [socketFile, String.length_append, hsuffix]
  omega

theorem Attributes.length_tpmFile (machine : String) : 2 < (tpmFile machine).length := by
  have hsuffix : ".swtpm.sock".length = 11 := rfl
  rw [tpmFile, String.length_append, hsuffix]
  omega

end Names

namespace Qmp

open Attributes

/-- A control socket is one that has a name, or a path that is taken as it is. -/
theorem mem_socketPaths {q : Qmp} {runDir : Path} {machine : String} {path : Path}
    (h : path ∈ q.socketPaths runDir machine) :
    (∃ socket ∈ standardSockets ++ q.sockets.names, path = socketPath runDir machine socket) ∨
      path.text ∈ q.sockets.paths := by
  rw [socketPaths, distinctBy_eq_firsts] at h
  have hconfigured := (firsts_sublist Path.components _).subset h
  rcases List.mem_append.1 hconfigured with hnamed | hpath
  · obtain ⟨socket, hsocket, rfl⟩ := List.mem_map.1 hnamed
    exact .inl ⟨socket, hsocket, rfl⟩
  · obtain ⟨text, htext, rfl⟩ := List.mem_map.1 hpath
    exact .inr htext

/-- A socket that has a name is in the runtime directory exactly where its file's name does not
lead out of it: so it is where neither the machine's name nor its own has a slash. -/
theorem sockets_held (q : Qmp) (runDir : Path) (machine : String) :
    (∀ socket, runDir.resolve <+: (socketPath runDir machine socket).resolve ↔
      runDir.Holds (socketFile machine socket)) ∧
    (runDir.resolve <+: (tpmSocketPath runDir machine).resolve ↔
      runDir.Holds (tpmFile machine)) ∧
    ('/' ∉ machine.toList →
      (∀ socket, '/' ∉ socket.toList → (socketPath runDir machine socket).resolve =
        runDir.resolve ++ [.name (socketFile machine socket)]) ∧
      (tpmSocketPath runDir machine).resolve =
        runDir.resolve ++ [.name (tpmFile machine)]) ∧
    ∀ path ∈ q.socketPaths runDir machine,
      (∃ socket ∈ standardSockets ++ q.sockets.names, path = socketPath runDir machine socket) ∨
        path.text ∈ q.sockets.paths := by
  refine ⟨?named, ?tpm, ?plain, fun path hpath => mem_socketPaths hpath⟩
  case named => exact fun socket => runDir.resolve_prefix_join_iff (socketFile machine socket)
  case tpm => exact runDir.resolve_prefix_join_iff (tpmFile machine)
  case plain =>
    intro hmachine
    constructor
    · intro socket hsocket
      have hslash : '/' ∉ (socketFile machine socket).toList := by
        simp [socketFile, hmachine, hsocket]
      exact runDir.resolve_join_of_not_mem hslash (length_socketFile machine socket)
    · have hslash : '/' ∉ (tpmFile machine).toList := by simp [tpmFile, hmachine]
      exact runDir.resolve_join_of_not_mem hslash (length_tpmFile machine)

theorem desk_sockets_held :
    (socketPath ⟨"/run/qforge"⟩ "desk" "systemd.0").resolve =
      [.root, .name "run", .name "qforge", .name "desk.qmp.systemd.0.sock"] := by
  have hmachine : '/' ∉ "desk".toList := by decide
  have hsocket : '/' ∉ "systemd.0".toList := by decide
  obtain ⟨-, -, hplain, -⟩ := sockets_held {} ⟨"/run/qforge"⟩ "desk"
  rw [(hplain hmachine).1 "systemd.0" hsocket]
  decide +kernel

/-- The sockets of a machine that goes by an absolute path, or that climbs, are elsewhere. -/
theorem sockets_escape :
    socketPath ⟨"/run/qforge"⟩ "/etc/desk" "systemd.0" = ⟨"/etc/desk.qmp.systemd.0.sock"⟩ ∧
    ¬ (⟨"/run/qforge"⟩ : Path).resolve <+:
      (socketPath ⟨"/run/qforge"⟩ "/etc/desk" "systemd.0").resolve ∧
    ¬ (⟨"/run/qforge"⟩ : Path).resolve <+:
      (socketPath ⟨"/run/qforge"⟩ "desk" "../../../etc/passwd").resolve ∧
    ¬ (⟨"/run/qforge"⟩ : Path).resolve <+:
      (tpmSocketPath ⟨"/run/qforge"⟩ "../desk").resolve := by decide +kernel

end Qmp

end GuestCompiler
