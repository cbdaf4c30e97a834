import GuestCompiler.Host.Resources
import GuestCompiler.Proofs.Registry
import Std.Data.String.ToNat

/-!
# Sound resources

In sound resources the registries are sound, threads and interfaces bear the number of their
position, and the software modules stand behind character devices that are there. Every edit of
resources keeps them sound and only adds to them.
-/
namespace GuestCompiler

open Edit

/-- Names by number are different. -/
theorem nodup_numbered (family : String) (n : Nat) :
    ((List.range n).map fun k => family ++ toString k).Nodup := by
  refine List.Pairwise.map _ (fun j k hne heq => hne ?_) List.nodup_range
  exact Nat.repr_injective ((String.append_right_inj family).1 heq)

namespace Resources

def tapIds (r : Resources) : List String := r.taps.map Tap.id

structure Sound (r : Resources) : Prop where
  blocks : BlockGraph.Sound r.blocks
  charDevices : Registry.Sound r.charDevices
  tpmDevices : Registry.Sound r.tpmDevices
  bound : ∀ id charDevice, .emulated id charDevice ∈ r.tpmDevices.entries →
    charDevice ∈ r.charDevices.names
  threads : r.threads = (List.range r.threads.length).map IoThread.mk
  taps : r.tapIds = (List.range r.taps.length).map fun n => "net." ++ toString n

/-- What was there stands unchanged before what has come. -/
structure Grows (r r' : Resources) : Prop where
  threads : r.threads <+: r'.threads
  blocks : r.blocks.entries <+: r'.blocks.entries
  charDevices : r.charDevices.entries <+: r'.charDevices.entries
  tpmDevices : r.tpmDevices.entries <+: r'.tpmDevices.entries
  taps : r.taps <+: r'.taps

theorem Grows.refl (r : Resources) : r.Grows r :=
  ⟨List.prefix_rfl, List.prefix_rfl, List.prefix_rfl, List.prefix_rfl, List.prefix_rfl⟩

theorem Grows.trans {r s t : Resources} (h : r.Grows s) (h' : s.Grows t) : r.Grows t :=
  ⟨h.threads.trans h'.threads, h.blocks.trans h'.blocks, h.charDevices.trans h'.charDevices,
    h.tpmDevices.trans h'.tpmDevices, h.taps.trans h'.taps⟩

section Names

variable {r r' : Resources} {name : String}

theorem Grows.mem_blocks (h : r.Grows r') (hn : name ∈ r.blocks.names) : name ∈ r'.blocks.names :=
  (h.blocks.map _).subset hn

theorem Grows.mem_charDevices (h : r.Grows r') (hn : name ∈ r.charDevices.names) :
    name ∈ r'.charDevices.names :=
  (h.charDevices.map _).subset hn

theorem Grows.mem_tpmDevices (h : r.Grows r') (hn : name ∈ r.tpmDevices.names) :
    name ∈ r'.tpmDevices.names :=
  (h.tpmDevices.map _).subset hn

theorem Grows.mem_taps (h : r.Grows r') (hn : name ∈ r.tapIds) : name ∈ r'.tapIds :=
  (h.taps.map _).subset hn

end Names

theorem sound_empty : Sound {} where
  blocks := BlockGraph.sound_empty
  charDevices := Registry.sound_empty _
  tpmDevices := Registry.sound_empty _
  bound id charDevice h := by simp [TpmDevices.empty] at h
  threads := rfl
  taps := rfl

variable {r : Resources}

theorem meets_addThread (hr : r.Sound) : Meets addThread r
    (fun thread r' => thread ∈ r'.threads ∧ r' = { r with threads := r.threads ++ [thread] } ∧
      r'.Sound ∧ r.Grows r')
    (fun _ _ => False) := by
  refine ⟨List.mem_append_right _ List.mem_cons_self, rfl, { hr with threads := ?_ },
    { Grows.refl r with threads := List.prefix_append .. }⟩
  simp only [List.length_append, List.length_singleton, List.range_succ, List.map_append,
    List.map_singleton, ← hr.threads]

/-- A thread is shared by all, so that there is never need of a second one. -/
theorem meets_sharedThread (hr : r.Sound) : Meets sharedThread r
    (fun thread r' => thread ∈ r'.threads ∧ (r' = r ∨ r.threads = [] ∧
      r' = { r with threads := [thread] }) ∧ r'.Sound ∧ r.Grows r')
    (fun _ _ => False) := by
  cases hlast : r.threads.getLast? with
  | some thread =>
    have hedit : sharedThread r = .ok thread r := by simp only [sharedThread, hlast]
    rw [Meets, hedit]
    exact ⟨List.mem_of_getLast? hlast, .inl rfl, hr, Grows.refl r⟩
  | none =>
    have hedit : sharedThread r = addThread r := by simp only [sharedThread, hlast]
    have hnone : r.threads = [] := List.getLast?_eq_none_iff.1 hlast
    refine .congr hedit ((meets_addThread hr).imp ?_)
    rintro thread r' ⟨hmem, heq, hsound, hgrows⟩
    refine ⟨hmem, .inr ⟨hnone, ?_⟩, hsound, hgrows⟩
    rw [heq, hnone, List.nil_append]

theorem meets_addTap (hr : r.Sound) (interface up down : String) :
    Meets (addTap interface up down) r
      (fun tap r' => tap.id ∈ r'.tapIds ∧ r' = { r with taps := r.taps ++ [tap] } ∧
        tap.interface = interface ∧ r'.Sound ∧ r.Grows r')
      (fun _ _ => False) := by
  refine ⟨by simp [tapIds], rfl, rfl, { hr with taps := ?_ },
    { Grows.refl r with taps := List.prefix_append .. }⟩
  have htaps := hr.taps
  simp only [tapIds] at htaps ⊢
  simp only [List.map_append, htaps, List.length_append, List.length_singleton, List.range_succ,
    List.map_singleton]

theorem meets_addBlock (hr : r.Sound) (node : BlockNode) : Meets (addBlock node) r
    (fun name r' => name ∈ r'.blocks.names ∧ name = node.name ∧
      r' = { r with blocks := Registry.insert r.blocks node } ∧ r'.Sound ∧ r.Grows r')
    (fun e r' => r' = r ∧ BlockGraph.Refusal r.blocks node e) := by
  refine meets_within.2 ((BlockGraph.meets_add hr.blocks node).mono ?_ ?_)
  · rintro name g ⟨rfl, rfl, hg⟩
    refine ⟨?_, rfl, rfl, { hr with blocks := hg },
      { Grows.refl r with blocks := List.prefix_append .. }⟩
    rw [Registry.names_insert]
    exact List.mem_append_right _ List.mem_cons_self
  · rintro e g ⟨rfl, hrefused⟩
    exact ⟨rfl, hrefused⟩

theorem meets_addCharDevice (hr : r.Sound) (d : CharDevice) : Meets (addCharDevice d) r
    (fun id r' => id ∈ r'.charDevices.names ∧ id = d.id ∧
      r' = { r with charDevices := Registry.insert r.charDevices d } ∧ r'.Sound ∧ r.Grows r')
    (fun e r' => r' = r ∧ CharDevices.Refusal r.charDevices d e) := by
  refine meets_within.2 ((CharDevices.meets_add hr.charDevices d).mono ?_ ?_)
  · rintro id g ⟨rfl, rfl, hg⟩
    have hnames := Registry.names_insert r.charDevices d
    refine ⟨?_, rfl, rfl, { hr with charDevices := hg, bound := fun id charDevice hmem => ?_ },
      { Grows.refl r with charDevices := List.prefix_append .. }⟩
    · exact hnames ▸ List.mem_append_right _ List.mem_cons_self
    · exact hnames ▸ List.mem_append_left _ (hr.bound id charDevice hmem)
  · rintro e g ⟨rfl, hrefused⟩
    exact ⟨rfl, hrefused⟩

/-- A module in software needs a character device to stand behind. -/
theorem meets_addEmulatedTpm (hr : r.Sound) {charDevice : String}
    (hmem : charDevice ∈ r.charDevices.names) (id : String) :
    Meets (addEmulatedTpm id charDevice) r
      (fun name r' => name ∈ r'.tpmDevices.names ∧ name = id ∧
        r' = { r with tpmDevices := Registry.insert r.tpmDevices (.emulated id charDevice) } ∧
        r'.Sound ∧ r.Grows r')
      (fun e r' => r' = r ∧ Registry.Refusal r.tpmDevices id e) := by
  have hedit : addEmulatedTpm id charDevice r = addTpmDevice (.emulated id charDevice) r := by
    simp only [addEmulatedTpm, (hr.charDevices.contains_iff charDevice).2 hmem, if_true]
  refine .congr hedit (meets_within.2 ((Registry.meets_add hr.tpmDevices _).mono ?_ ?_))
  · rintro name g ⟨rfl, rfl, hg⟩
    refine ⟨?_, rfl, rfl, { hr with tpmDevices := hg, bound := fun other c hother => ?_ },
      { Grows.refl r with tpmDevices := List.prefix_append .. }⟩
    · rw [Registry.names_insert]
      exact List.mem_append_right _ List.mem_cons_self
    · rcases List.mem_append.1 hother with hold | hnew
      · exact hr.bound other c hold
      · cases List.mem_singleton.1 hnew
        exact hmem
  · rintro e g ⟨rfl, hrefused⟩
    exact ⟨rfl, hrefused⟩

end Resources

end GuestCompiler
