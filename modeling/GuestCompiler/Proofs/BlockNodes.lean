import GuestCompiler.Proofs.Channels

/-!
# The block nodes of a build

A build writes the nodes of its volumes one volume after the other, firmware first, and nothing else
into the block graph. It fails for a name that is taken only where two of these nodes have one name.
-/
namespace GuestCompiler

open BuildStep Edit

section Volumes

variable (machine : MachineInfo) (pools : NameMap Pool)

def Volume.blockNodes (v : Volume) : List BlockNode :=
  ((v.placed? machine pools).map fun x => x.1.nodes x.2).getD []

def Definition.blockNodes (d : Definition) : List BlockNode :=
  d.attached.flatMap (Volume.blockNodes machine pools)

end Volumes

/-- A failure for a name that is taken, only where nodes share a name. -/
def Clash (nodes : List BlockNode) (e : Error) : Prop :=
  e.isDuplicateName = true → ¬ (nodes.map BlockNode.name).Nodup

theorem Definition.lists_blockNodes {machine : MachineInfo} {catalog : Catalog}
    {locations : Locations} (d : Definition) :
    Lists (fun step => step.entries.blocks) (d.steps machine catalog locations)
      (d.blockNodes machine catalog.pools) := by
  refine (Definition.lists_steps [] (Volume.blockNodes machine catalog.pools) (fun _ => [])
    (fun _ => []) (fun _ => rfl) (fun v a p hv => ?_) (fun _ _ => rfl) (fun _ _ _ => rfl)
    fun _ _ => rfl).of_eq ?_
  · rw [Volume.blockNodes, hv]
    rfl
  · simp [Attributes.listing, entries, blockNodes, attached]

/-- Whatever steps of a definition are done, the names that they enter beside those of block nodes
are different. -/
theorem Definition.distinct_beforeMissing {machine : MachineInfo} {catalog : Catalog}
    {locations : Locations} {d : Definition}
    (h : ((d.blockNodes machine catalog.pools).map BlockNode.name).Nodup) :
    (({} : Target).ledger.enter
      (allEntries (beforeMissing (d.steps machine catalog locations)))).Distinct where
  blocks := by
    rw [Ledger.enter, Registry.names_insertAll]
    exact h.sublist (d.lists_blockNodes.prefix_beforeMissing.map _).sublist
  charDevices := by
    rw [Ledger.enter, Registry.names_insertAll]
    exact (d.attributes.nodup_channelIds machine.name locations.runDir).sublist
      ((d.lists_channels.prefix_beforeMissing.map _).sublist.trans
        (d.map_id_channels_sublist machine locations.runDir))
  tpmDevices := by
    rw [Ledger.enter, Registry.names_insertAll]
    refine List.Nodup.sublist (d.lists_tpmDevices.prefix_beforeMissing.map _).sublist ?_
    cases d.attributes.tpm <;> decide

namespace Build

/-- A build leaves the nodes of its volumes and the firmware's names, and fails for a name that is
taken only where two of the nodes share one. -/
theorem addDefinition_blockNodes (machine : MachineInfo) (d : Definition) (catalog : Catalog)
    (locations : Locations) : Meets (addDefinition machine d catalog locations) {}
      (fun _ t => t.settings.firmware = d.attributes.firmware.flash machine catalog.pools ∧
        t.resources.blocks.entries = d.blockNodes machine catalog.pools ∧
        (t.resources.blocks.names).Nodup ∧
        ∀ v ∈ d.attached, (v.placed? machine catalog.pools).isSome = true)
      (fun e _ => Clash (d.blockNodes machine catalog.pools) e) := by
  rw [addDefinition_eq]
  refine (run_enters _ {} Ledger.sound_empty).mono ?_ ?_
  · rintro _ t ⟨⟨hledger, hsound⟩, hall⟩
    rw [beforeMissing_eq hall] at hledger
    obtain ⟨host, port, -, hsettle⟩ := Definition.settle_steps hall
    have hsettings : t.settings = _ := (congrArg Ledger.settings hledger).trans hsettle
    have hblocks : t.resources.blocks = _ := congrArg Ledger.blocks hledger
    refine ⟨?_, ?_, hsound.blocks.registry.nodup_names, Definition.placed_of_complete hall⟩
    · rw [hsettings]
      rfl
    · rw [hblocks, ← d.lists_blockNodes.flatMap_eq hall]
      exact Registry.entries_insertAll _ _
  · intro e _ hfail he hnodup
    exact hfail he (Definition.distinct_beforeMissing hnodup)

end Build

end GuestCompiler
