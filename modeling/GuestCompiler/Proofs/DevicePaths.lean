import GuestCompiler.Proofs.Changes
import Mathlib.Data.List.Flatten
import Mathlib.Data.List.Nodup

/-!
# Devices by their path

A device is found by the position of a top-level device and the part that it is of it: the device
itself, the one behind it, or one of that one's endpoints. The options are the devices of all paths,
each once (`nodup_paths`, `mem_paths`, `map_paths`). No change takes a device away, or changes
anything in what is written for it but the number of a USB controller's ports
(`Change.keepsDevices`).
-/
namespace GuestCompiler

inductive DevicePart
  | self
  | behind
  | endpoint (position : Nat)
  deriving DecidableEq

theorem Controller.length_endpointParameters (c : Controller) :
    c.endpointParameters.length = c.endpoints.length := List.length_mapIdx

namespace TopLevel

/-- What is written for a part. -/
def parametersAt (d : TopLevel) : DevicePart → Option (List Parameter)
  | .self => some d.parameters
  | .behind => d.downstream?.map Downstream.parameters
  | .endpoint k => d.controller?.bind (·.endpointParameters[k]?)

def parts (d : TopLevel) : List DevicePart :=
  .self :: match d.downstream? with
    | none => []
    | some device => .behind :: (List.range device.endpoints.length).map .endpoint

theorem controller?_eq_none {d : TopLevel} {device : Downstream} (h : d.downstream? = some device)
    (hother : ∀ c, device ≠ .controller c) : d.controller? = none := by
  rw [Option.eq_none_iff_forall_ne_some]
  intro c hc
  exact hother c (Option.some.inj (h.symm.trans (controller?_eq_some.1 hc)))

theorem map_parts (d : TopLevel) : d.parts.map d.parametersAt = d.allParameters.map some := by
  rw [parts, allParameters, List.map_cons, List.map_cons]
  refine congrArg _ ?_
  cases hdown : d.downstream? with
  | none => rfl
  | some device =>
    cases device with
    | controller c =>
      have hc : d.controller? = some c := controller?_eq_some.2 hdown
      have hself : d.parametersAt .behind = some c.parameters := by
        rw [parametersAt, hdown]
        rfl
      have hends : (List.range c.endpoints.length).map (d.parametersAt ∘ .endpoint) =
          c.endpointParameters.map some := by
        refine List.ext_getElem (by simp [Controller.length_endpointParameters]) fun k hk hk' => ?_
        simp at hk'
        simp [parametersAt, hc, hk']
      rw [List.map_cons, List.map_cons, hself, List.map_map]
      exact congrArg _ hends
    | _ =>
      have hself : d.parametersAt .behind = d.downstream?.map Downstream.parameters := rfl
      rw [List.map_cons, hself, hdown]
      rfl

theorem mem_parts {d : TopLevel} {part : DevicePart} :
    part ∈ d.parts ↔ (d.parametersAt part).isSome := by
  cases hdown : d.downstream? with
  | none =>
    have hc : d.controller? = none := by simp [controller?, hdown]
    cases part <;> simp [parts, parametersAt, hdown, hc]
  | some device =>
    cases part with
    | self => simp [parts, parametersAt]
    | behind => simp [parts, parametersAt, hdown]
    | endpoint k =>
      cases device with
      | controller c =>
        have hc : d.controller? = some c := controller?_eq_some.2 hdown
        simp [parts, parametersAt, hdown, hc, Downstream.endpoints,
          Controller.length_endpointParameters]
      | _ =>
        have hc : d.controller? = none := controller?_eq_none hdown nofun
        simp [parts, parametersAt, hdown, hc, Downstream.endpoints]

theorem nodup_parts (d : TopLevel) : d.parts.Nodup := by
  have hends (n : Nat) : ((List.range n).map DevicePart.endpoint).Nodup :=
    List.Nodup.map (fun _ _ h => DevicePart.endpoint.inj h) List.nodup_range
  unfold parts
  split <;> simp [hends]

end TopLevel

namespace Topology

/-- What is written for the device of a path. -/
def parameters? (t : Topology) (path : Nat × DevicePart) : Option (List Parameter) :=
  t.devices[path.1]?.bind (·.parametersAt path.2)

/-- What a path can lead to. -/
inductive Found (t : Topology) : Nat × DevicePart → List Parameter → Prop
  | self {i : Nat} {d : TopLevel} : t.devices[i]? = some d → Found t (i, .self) d.parameters
  | behind {i : Nat} {port : RootPort} {d : Downstream} :
    t.devices[i]? = some (.rootPort port) → port.downstream = some d →
    Found t (i, .behind) d.parameters
  | endpoint {i k : Nat} {port : RootPort} {c : Controller} {e : Endpoint} :
    t.devices[i]? = some (.rootPort port) → port.downstream = some (.controller c) →
    c.endpoints[k]? = some e → Found t (i, .endpoint k)
      ([⟨"driver", e.driver⟩, ⟨"id", c.endpointId k⟩, ⟨"bus", c.bus⟩] ++ e.ownParameters)

theorem found {t : Topology} {path : Nat × DevicePart} {ps : List Parameter}
    (h : t.parameters? path = some ps) : t.Found path ps := by
  obtain ⟨i, part⟩ := path
  obtain ⟨d, hd, hpart⟩ := Option.bind_eq_some_iff.1 h
  cases part with
  | self =>
    obtain rfl : d.parameters = ps := Option.some.inj hpart
    exact .self hd
  | behind =>
    obtain ⟨device, hdown, rfl⟩ := Option.map_eq_some_iff.1 hpart
    obtain ⟨port, rfl, hport⟩ := TopLevel.downstream?_eq_some.1 hdown
    exact .behind hd hport
  | endpoint k =>
    obtain ⟨c, hc, hend⟩ := Option.bind_eq_some_iff.1 hpart
    obtain ⟨port, rfl, hport⟩ := TopLevel.downstream?_eq_some.1 (TopLevel.controller?_eq_some.1 hc)
    rw [Controller.endpointParameters, List.getElem?_mapIdx] at hend
    obtain ⟨e, he, rfl⟩ := Option.map_eq_some_iff.1 hend
    exact .endpoint hd hport he

/-- The paths of all devices, in the order of the options. -/
def paths (t : Topology) : List (Nat × DevicePart) :=
  t.devices.zipIdx.flatMap fun (d, i) => d.parts.map (i, ·)

theorem mem_paths {t : Topology} {path : Nat × DevicePart} :
    path ∈ t.paths ↔ (t.parameters? path).isSome := by
  obtain ⟨i, part⟩ := path
  simp only [paths, parameters?, List.mem_flatMap, List.mem_map, Prod.exists, Prod.mk.injEq,
    List.mem_zipIdx_iff_getElem?]
  constructor
  · rintro ⟨d, j, hd, _, hpart, rfl, rfl⟩
    rw [hd]
    exact TopLevel.mem_parts.1 hpart
  · intro h
    cases hd : t.devices[i]? with
    | none => simp [hd] at h
    | some d =>
      rw [hd] at h
      exact ⟨d, i, hd, part, TopLevel.mem_parts.2 h, rfl, rfl⟩

theorem nodup_paths (t : Topology) : t.paths.Nodup := by
  refine List.nodup_flatMap.2 ⟨fun x _ => ?_, ?_⟩
  · exact List.Nodup.map (fun _ _ h => (Prod.mk.inj h).2) x.1.nodup_parts
  · have hpositions : (t.devices.zipIdx.map Prod.snd).Nodup := by
      rw [List.zipIdx_map_snd]
      exact List.nodup_range'
    refine (List.pairwise_map.1 hpositions).imp fun {x y} hne => ?_
    intro path hx hy
    obtain ⟨_, -, rfl⟩ := List.mem_map.1 hx
    obtain ⟨_, -, heq⟩ := List.mem_map.1 hy
    exact hne (Prod.mk.inj heq).1.symm

theorem map_paths (t : Topology) :
    t.paths.map t.parameters? = t.options.map fun o => some o.parameters := by
  have hdevice : ∀ x ∈ t.devices.zipIdx,
      (x.1.parts.map (x.2, ·)).map t.parameters? = x.1.allParameters.map some := by
    intro x hx
    have hd : t.devices[x.2]? = some x.1 := List.mem_zipIdx_iff_getElem?.1 hx
    rw [← x.1.map_parts, List.map_map]
    refine List.map_congr_left fun part _ => ?_
    simp [parameters?, hd]
  calc t.paths.map t.parameters?
      = t.devices.zipIdx.flatMap fun x => (x.1.parts.map (x.2, ·)).map t.parameters? :=
        List.map_flatMap
    _ = t.devices.zipIdx.flatMap fun x => x.1.allParameters.map some := List.flatMap_congr hdevice
    _ = t.devices.flatMap fun d => d.allParameters.map some := by
        rw [← List.flatMap_map Prod.fst fun d : TopLevel => d.allParameters.map some,
          List.zipIdx_map_fst]
    _ = t.options.map fun o => some o.parameters := by
        rw [options, List.map_map, List.map_flatMap]
        rfl

end Topology

section Growth

/-- The same, but for the number of a USB controller's ports. -/
def Parameter.Agree (ps ps' : List Parameter) : Prop :=
  ∀ name, name ≠ "p2" → name ≠ "p3" → get? ps' name = get? ps name

theorem Parameter.Agree.refl (ps : List Parameter) : Agree ps ps := fun _ _ _ => rfl

theorem Parameter.Agree.trans {ps qs rs : List Parameter} (h : Agree ps qs) (h' : Agree qs rs) :
    Agree ps rs := fun name h2 h3 => (h' name h2 h3).trans (h name h2 h3)

theorem Controller.agree_parameters (c : Controller) (endpoints : List Endpoint) :
    Parameter.Agree c.parameters { c with endpoints := endpoints }.parameters := by
  intro name h2 h3
  obtain ⟨kind, id, parent, _⟩ := c
  cases kind with
  | usb =>
    have hports (n : Nat) : Parameter.get? [.number "p2" n, .number "p3" n] name = none := by
      simp [Parameter.number, h2.symm, h3.symm]
    simp only [parameters, kindParameters, Parameter.get?_append, hports]
  | _ => rfl

/-- Every part is still there, and written as before. -/
def TopLevel.Keeps (d d' : TopLevel) : Prop :=
  ∀ part ps, d.parametersAt part = some ps →
    ∃ ps', d'.parametersAt part = some ps' ∧ Parameter.Agree ps ps'

def Topology.KeepsDevices (t t' : Topology) : Prop :=
  ∀ path ps, t.parameters? path = some ps →
    ∃ ps', t'.parameters? path = some ps' ∧ Parameter.Agree ps ps'

theorem TopLevel.Keeps.refl (d : TopLevel) : d.Keeps d := fun _ ps h => ⟨ps, h, .refl ps⟩

theorem TopLevel.keeps_behind {port : RootPort} (hfree : port.downstream = none)
    (device : Downstream) :
    (rootPort port).Keeps (.rootPort { port with downstream := some device }) := by
  intro part ps h
  cases part with
  | self => exact ⟨ps, h, .refl ps⟩
  | behind => simp [parametersAt, downstream?, hfree] at h
  | endpoint k => simp [parametersAt, controller?, downstream?, hfree] at h

theorem TopLevel.keeps_endpoint {port : RootPort} {c : Controller}
    (hc : port.downstream = some (.controller c)) (more : List Endpoint) :
    (rootPort port).Keeps (.rootPort { port with
      downstream := some (.controller { c with endpoints := c.endpoints ++ more }) }) := by
  intro part ps h
  cases part with
  | self => exact ⟨ps, h, .refl ps⟩
  | behind =>
    have hps : ps = c.parameters := by
      simpa [parametersAt, downstream?, hc, Downstream.parameters, eq_comm] using h
    exact ⟨_, rfl, hps ▸ c.agree_parameters _⟩
  | endpoint k =>
    have hend : c.endpointParameters[k]? = some ps := by
      simpa [parametersAt, controller?, downstream?, hc] using h
    refine ⟨ps, ?_, .refl ps⟩
    have hk : k < c.endpoints.length := by
      rw [← c.length_endpointParameters]
      exact (List.getElem?_eq_some_iff.1 hend).1
    simp only [Controller.endpointParameters, List.getElem?_mapIdx] at hend
    simp only [parametersAt, controller?, downstream?, Option.bind_some,
      Controller.endpointParameters, List.getElem?_mapIdx, List.getElem?_append_left hk]
    exact hend

namespace Topology

variable {t t' t'' : Topology}

theorem KeepsDevices.refl (t : Topology) : t.KeepsDevices t := fun _ ps h => ⟨ps, h, .refl ps⟩

theorem KeepsDevices.trans (h : t.KeepsDevices t') (h' : t'.KeepsDevices t'') :
    t.KeepsDevices t'' := by
  intro path ps hps
  obtain ⟨ps', hps', hagree⟩ := h path ps hps
  obtain ⟨ps'', hps'', hagree'⟩ := h' path ps' hps'
  exact ⟨ps'', hps'', hagree.trans hagree'⟩

theorem keepsDevices_of_keeps (h : ∀ (i : Nat) (d : TopLevel), t.devices[i]? = some d →
    ∃ d', t'.devices[i]? = some d' ∧ d.Keeps d') : t.KeepsDevices t' := by
  rintro ⟨i, part⟩ ps hps
  obtain ⟨d, hd, hpart⟩ := Option.bind_eq_some_iff.1 hps
  obtain ⟨d', hd', hkeeps⟩ := h i d hd
  obtain ⟨ps', hpart', hagree⟩ := hkeeps part ps hpart
  refine ⟨ps', ?_, hagree⟩
  simp only [parameters?, hd', Option.bind_some, hpart']

theorem keepsDevices_append {more : List TopLevel} (h : t'.devices = t.devices ++ more) :
    t.KeepsDevices t' := by
  refine keepsDevices_of_keeps fun i d hd => ⟨d, ?_, .refl d⟩
  rw [h, List.getElem?_append_left (List.getElem?_eq_some_iff.1 hd).1]
  exact hd

/-- In a list with one element replaced, every position has what it had, or the new element. -/
theorem exists_getElem?_replace {α : Type} {before after : List α} {x y : α} {i : Nat}
    (h : (before ++ x :: after)[i]? = some y) (x' : α) :
    ∃ y', (before ++ x' :: after)[i]? = some y' ∧ (y' = y ∨ y = x ∧ y' = x') := by
  by_cases hi : i = before.length
  · subst hi
    simp only [List.getElem?_append_right (Nat.le_refl _), Nat.sub_self,
      List.getElem?_cons_zero, Option.some.injEq] at h ⊢
    exact ⟨x', rfl, .inr ⟨h.symm, rfl⟩⟩
  · refine ⟨y, ?_, .inl rfl⟩
    have hset : before ++ x' :: after = (before ++ x :: after).set before.length x' := by simp
    rw [hset, List.getElem?_set_ne (Ne.symm hi)]
    exact h

theorem keepsDevices_replace {before after : List TopLevel} {d d' : TopLevel}
    (h : t.devices = before ++ d :: after) (h' : t'.devices = before ++ d' :: after)
    (hkeeps : d.Keeps d') : t.KeepsDevices t' := by
  refine keepsDevices_of_keeps fun i x hx => ?_
  rw [h] at hx
  obtain ⟨x', hx', rfl | ⟨rfl, rfl⟩⟩ := exists_getElem?_replace hx d'
  · exact ⟨_, h' ▸ hx', .refl _⟩
  · exact ⟨_, h' ▸ hx', hkeeps⟩

theorem Change.keepsDevices (h : t.Change t') : t.KeepsDevices t' := by
  cases h with
  | root _ => exact keepsDevices_append rfl
  | panic _ => exact keepsDevices_append rfl
  | display _ => exact keepsDevices_append rfl
  | tpm _ => exact keepsDevices_append rfl
  | cdrom _ _ _ => exact keepsDevices_append rfl
  | behind ht hfree _ => exact keepsDevices_replace ht rfl (TopLevel.keeps_behind hfree _)
  | endpoint ht hc _ _ => exact keepsDevices_replace ht rfl (TopLevel.keeps_endpoint hc _)

end Topology

end Growth

end GuestCompiler
