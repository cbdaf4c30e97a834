import GuestCompiler.Proofs.Growth
import GuestCompiler.Proofs.Positions

/-!
# Endpoints of a controller

A controller grants what it is asked for as long as it is for its kind and there is room, with the
next id each time, and refuses all else without a change. However many requests there have been and
whichever of them were refused, the ids granted are those of the positions from 0, and so are the
ids, buses and places that are written for the endpoints, now and later
(`Controller.run_endpoints`).
-/
namespace GuestCompiler

open Edit Parameter

namespace Controller

/-- The controller after some requests, those that are refused among them. -/
def run (c : Controller) (rs : List EndpointRequest) : Controller :=
  rs.foldl (fun c r => Edit.state (r.edit c)) c

/-- The ids with which those requests are answered that are not refused. -/
def granted (c : Controller) : List EndpointRequest → List String
  | [] => []
  | r :: rs => (Edit.answer (r.edit c)).toOption.toList ++ granted (Edit.state (r.edit c)) rs

theorem endpointId_eq (c : Controller) (k : Nat) :
    c.endpointId k = c.id ++ ".0." ++ toString k := by
  have hjoin : ".0" ++ "." = ".0." := rfl
  rw [endpointId, bus, ← hjoin, ← String.append_assoc]

section Runs

variable (c : Controller) (rs more : List EndpointRequest)

theorem run_append : c.run (rs ++ more) = (c.run rs).run more := List.foldl_append

theorem granted_append : c.granted (rs ++ more) = c.granted rs ++ (c.run rs).granted more := by
  induction rs generalizing c with
  | nil => rfl
  | cons r rs ih => rw [List.cons_append, granted, granted, ih, List.append_assoc]; rfl

end Runs

/-- A controller that was empty at the start and has granted some ids. -/
structure Serves (start c : Controller) (ids : List String) : Prop where
  kind : c.kind = start.kind
  id : c.id = start.id
  inOrder : c.InOrder
  numbered : ids = (List.range c.endpoints.length).map start.endpointId

section Steps

variable {start c : Controller} {ids : List String}

theorem meets_edit (r : EndpointRequest) (c : Controller) : Meets r.edit c
    (fun id c' => c.kind.family = r.family ∧ c.endpoints.length < c.kind.capacity ∧
      id = c.endpointId c.endpoints.length ∧
      c' = { c with endpoints := c.endpoints ++ [r.endpoint c.endpoints.length] })
    (fun _ c' => c' = c ∧
      (c.kind.family ≠ r.family ∨ c.kind.capacity ≤ c.endpoints.length)) := by
  rw [r.edit_eq]
  refine (meets_attach r.family r.endpoint c).mono (fun _ _ h => h) ?_
  rintro e c' ⟨hsame, ⟨hfamily, -⟩ | ⟨-, hfull, -⟩⟩
  · exact ⟨hsame, .inl hfamily⟩
  · exact ⟨hsame, .inr hfull⟩

/-- What is granted comes next, and a refusal leaves all as it is. -/
theorem Serves.step (h : Serves start c ids) (r : EndpointRequest) :
    Serves start (Edit.state (r.edit c)) (ids ++ (Edit.answer (r.edit c)).toOption.toList) := by
  have hmeets := meets_edit r c
  cases hrun : r.edit c with
  | ok a c' =>
    obtain ⟨hfamily, hroom, rfl, rfl⟩ := hmeets.ok hrun
    refine ⟨h.kind, h.id, h.inOrder.concat hroom (r.place_endpoint hfamily _), ?_⟩
    have hid : c.endpointId c.endpoints.length = start.endpointId c.endpoints.length := by
      rw [endpointId, bus, h.id]
      rfl
    simp only [Edit.answer, Except.toOption, Option.toList_some, Edit.state, List.length_append,
      List.length_singleton, List.range_succ, List.map_append, List.map_singleton, hid]
    rw [← h.numbered]
  | error e c' =>
    obtain ⟨rfl, -⟩ := hmeets.error hrun
    rw [Edit.answer, Except.toOption, Option.toList_none, List.append_nil]
    exact h

theorem Serves.run (h : Serves start c ids) (rs : List EndpointRequest) :
    Serves start (c.run rs) (ids ++ c.granted rs) := by
  induction rs generalizing c ids with
  | nil =>
    rw [granted, List.append_nil]
    exact h
  | cons r rs ih =>
    rw [granted, ← List.append_assoc]
    exact ih (h.step r)

/-- Requests leave the endpoints that are there as they are written. -/
theorem endpointParameters_run (c : Controller) (rs : List EndpointRequest) :
    c.endpointParameters <+: (c.run rs).endpointParameters := by
  induction rs generalizing c with
  | nil => exact List.prefix_refl _
  | cons r rs ih =>
    refine List.IsPrefix.trans ?_ (ih (Edit.state (r.edit c)))
    have hmeets := meets_edit r c
    cases hrun : r.edit c with
    | ok a c' =>
      obtain ⟨-, -, -, rfl⟩ := hmeets.ok hrun
      exact c.endpointParameters_prefix _
    | error e c' =>
      obtain ⟨rfl, -⟩ := hmeets.error hrun
      exact List.prefix_refl _

end Steps

section Written

variable {c : Controller} {k : Nat} {ps : List Parameter}

/-- An endpoint is written with the place of its position. -/
theorem InOrder.exists_endpoint (hc : c.InOrder) (h : c.endpointParameters[k]? = some ps) :
    ∃ e, c.endpoints[k]? = some e ∧ e.place = c.kind.place k ∧
      ps = [⟨"driver", e.driver⟩, ⟨"id", c.endpointId k⟩, ⟨"bus", c.bus⟩] ++ e.ownParameters := by
  rw [endpointParameters, List.getElem?_mapIdx] at h
  obtain ⟨e, he, hps⟩ := Option.map_eq_some_iff.1 h
  have hplace : (c.endpoints.map Endpoint.place)[k]? = some e.place := by simp [he]
  rw [hc.places] at hplace
  exact ⟨e, he, Topology.eq_of_getElem?_map_range hplace, hps.symm⟩

/-- The place of an endpoint is the only number that it has on its bus. -/
theorem get?_number (e : Endpoint) {name : String} (h : name ∈ ["lun", "port", "nr"]) :
    get? e.ownParameters name = if e.place.name = name then some e.place.value else none := by
  obtain rfl | rfl | rfl : name = "lun" ∨ name = "port" ∨ name = "nr" := by simpa using h
  all_goals
    cases e <;>
      simp [Endpoint.ownParameters, Endpoint.scsiParameters, Endpoint.place, number]

end Written

/-- A controller of a kind and an id that has granted some ids, by what it answers next and by what
is written for it. -/
structure Seats (c : Controller) (kind : ControllerKind) (id : String) (ids : List String) :
    Prop where
  refused : ∀ r : EndpointRequest, (∃ e c', r.edit c = .error e c') ↔
    kind.family ≠ r.family ∨
      ids.length = match kind with
        | .scsi _ => 28
        | .usb => 15
        | .serial => 30
  unchanged : ∀ (r : EndpointRequest) e c', r.edit c = .error e c' → c' = c
  numbered : ids = (List.range ids.length).map fun k => id ++ ".0." ++ toString k
  endpoints : c.endpointParameters.length = ids.length
  /-- Of the numbers on a bus an endpoint has the one of its kind, and no other. -/
  written : ∀ k ps, c.endpointParameters[k]? = some ps →
    get? ps "id" = some (id ++ ".0." ++ toString k) ∧ get? ps "bus" = some (id ++ ".0") ∧
      ∀ name ∈ ["lun", "port", "nr"], get? ps name =
        if (kind.place k).name = name then some (kind.place k).value else none
  ports : kind = .usb → ∃ count, get? c.parameters "p2" = some (toString count) ∧
    get? c.parameters "p3" = some (toString count) ∧
    ∀ ps ∈ c.endpointParameters, ∃ port, get? ps "port" = some (toString port) ∧
      1 ≤ port ∧ port ≤ count
  console : ∀ ps ∈ c.endpointParameters, get? ps "nr" ≠ some "0"

section Seats

variable {start c : Controller} {ids : List String}

theorem Serves.length_ids (h : Serves start c ids) : ids.length = c.endpoints.length := by
  rw [h.numbered, List.length_map, List.length_range]

theorem Serves.refused_iff (h : Serves start c ids) (r : EndpointRequest) :
    (∃ e c', r.edit c = .error e c') ↔
      start.kind.family ≠ r.family ∨ ids.length = start.kind.capacity := by
  have hroom := h.inOrder.room
  rw [h.length_ids, ← h.kind]
  refine (meets_edit r c).refused_iff ?_ ?_
  · rintro a c' ⟨hfamily, hfree, -, -⟩ (hother | hfull)
    · exact absurd hfamily hother
    · omega
  · rintro e c' ⟨-, hreason⟩
    exact hreason.imp_right fun hfull => by omega

theorem Serves.written (h : Serves start c ids) {k : Nat} {ps : List Parameter}
    (hps : c.endpointParameters[k]? = some ps) : get? ps "id" = some (start.endpointId k) ∧
      get? ps "bus" = some start.bus ∧
      ∀ name ∈ ["lun", "port", "nr"], get? ps name =
        if (start.kind.place k).name = name then some (start.kind.place k).value else none := by
  obtain ⟨e, -, hplace, rfl⟩ := h.inOrder.exists_endpoint hps
  rw [h.kind] at hplace
  have hbus : c.bus = start.bus := by rw [bus, bus, h.id]
  have hid : c.endpointId k = start.endpointId k := by rw [endpointId, endpointId, hbus]
  refine ⟨by simp [hid], by simp [hbus], fun name hname => ?_⟩
  have hnumber := get?_number e hname
  rw [hplace] at hnumber
  rw [← hnumber]
  obtain rfl | rfl | rfl : name = "lun" ∨ name = "port" ∨ name = "nr" := by simpa using hname
  all_goals simp

/-- A USB controller shows as many ports as it uses at least. -/
theorem Serves.ports (h : Serves start c ids) (husb : start.kind = .usb) :
    ∃ count, get? c.parameters "p2" = some (toString count) ∧
      get? c.parameters "p3" = some (toString count) ∧
      ∀ ps ∈ c.endpointParameters, ∃ port, get? ps "port" = some (toString port) ∧
        1 ≤ port ∧ port ≤ count := by
  have hkind : c.kind = .usb := h.kind.trans husb
  refine ⟨max c.endpoints.length 4, ?_, ?_, fun ps hps => ?_⟩
  · simp [parameters, kindParameters, hkind, number]
  · simp [parameters, kindParameters, hkind, number]
  · obtain ⟨k, hk, hget⟩ := List.mem_iff_getElem.1 hps
    have hport := (h.written (List.getElem?_eq_some_iff.2 ⟨hk, hget⟩)).2.2 "port" (by simp)
    rw [length_endpointParameters] at hk
    refine ⟨k + 1, ?_, by omega, by omega⟩
    rw [hport, husb]
    rfl

theorem Serves.console (h : Serves start c ids) :
    ∀ ps ∈ c.endpointParameters, get? ps "nr" ≠ some "0" := by
  intro ps hps
  obtain ⟨k, hk, hget⟩ := List.mem_iff_getElem.1 hps
  rw [(h.written (List.getElem?_eq_some_iff.2 ⟨hk, hget⟩)).2.2 "nr" (by simp)]
  cases start.kind with
  | scsi _ => simp [ControllerKind.place, number]
  | usb => simp [ControllerKind.place, number]
  | serial =>
    intro hzero
    have hnumber : toString (k + 1) = toString 0 := Option.some.inj hzero
    exact absurd (Nat.repr_injective hnumber) (Nat.succ_ne_zero k)

theorem Serves.seats (h : Serves start c ids) : Seats c start.kind start.id ids where
  refused := h.refused_iff
  unchanged r _ _ hrun := ((meets_edit r c).error hrun).1
  numbered := by
    have hids : ids = (List.range ids.length).map start.endpointId := h.length_ids ▸ h.numbered
    exact hids.trans (List.map_congr_left fun k _ => start.endpointId_eq k)
  endpoints := (length_endpointParameters c).trans h.length_ids.symm
  written k _ hps := start.endpointId_eq k ▸ h.written hps
  ports := h.ports
  console := h.console

end Seats

/-- After any requests to a new controller, refused ones included, its endpoints have the ids that
were granted, in order, and their places; and whatever it is asked for later, they keep them. -/
theorem run_endpoints (kind : ControllerKind) (id parent : String)
    (rs more : List EndpointRequest) : ∃ new : Controller, new = ⟨kind, id, parent, []⟩ ∧
      Seats (new.run rs) kind id (new.granted rs) ∧
      new.granted rs <+: new.granted (rs ++ more) ∧
      (new.run rs).endpointParameters <+: (new.run (rs ++ more)).endpointParameters := by
  have hstart : Serves ⟨kind, id, parent, []⟩ ⟨kind, id, parent, []⟩ [] :=
    ⟨rfl, rfl, ⟨rfl, Nat.zero_le _⟩, rfl⟩
  refine ⟨_, rfl, (hstart.run rs).seats, ?_, ?_⟩
  · rw [granted_append]
    exact List.prefix_append _ _
  · rw [run_append]
    exact endpointParameters_run _ more

end Controller

end GuestCompiler
