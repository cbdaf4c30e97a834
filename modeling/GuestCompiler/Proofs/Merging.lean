import GuestCompiler.Definition.Basic

/-!
# What merging means

Definitions are merged one after the other, each laid under all those before it. `MergeOf` says what
that comes to, field by field, as a rule over the whole list: the first value that is set, a switch
that is on anywhere, the first entry of each name. `mergeOf_merge` is the law.
-/
namespace GuestCompiler

section Firsts

variable {α κ : Type} [DecidableEq κ]

/-- A list with only the first of the elements that share a key: the head stays, and nothing else
of its key. -/
def firsts (key : α → κ) : List α → List α
  | [] => []
  | x :: xs => x :: (firsts key xs).filter fun y => key y ≠ key x

theorem foldl_distinct (key : α → κ) (xs kept : List α) :
    xs.foldl (fun kept x => if key x ∈ kept.map key then kept else kept ++ [x]) kept =
      kept ++ (firsts key xs).filter fun y => key y ∉ kept.map key := by
  induction xs generalizing kept with
  | nil => simp [firsts]
  | cons x xs ih =>
    rw [List.foldl_cons, ih, firsts]
    by_cases hx : key x ∈ kept.map key
    · -- Whatever has the key of `x` is kept out already.
      rw [if_pos hx, List.filter_cons_of_neg (by simpa using hx), List.filter_filter]
      congr 1
      apply List.filter_congr
      intro y _
      by_cases hy : key y = key x
      · simp [hy, hx]
      · simp [hy]
    · rw [if_neg hx, List.filter_cons_of_pos (by simpa using hx), List.filter_filter,
        List.append_assoc, List.singleton_append]
      congr 2
      apply List.filter_congr
      intro y _
      by_cases hy : key y = key x
      · simp [hy]
      · simp [hy]

theorem distinctBy_eq_firsts (key : α → κ) (xs : List α) : distinctBy key xs = firsts key xs := by
  rw [distinctBy, foldl_distinct]
  simp

theorem nodup_map_firsts (key : α → κ) (xs : List α) : ((firsts key xs).map key).Nodup := by
  rw [← distinctBy_eq_firsts]
  exact nodup_map_distinctBy key xs

theorem firsts_sublist (key : α → κ) (xs : List α) : (firsts key xs).Sublist xs := by
  induction xs with
  | nil => exact .slnil
  | cons x xs ih => exact (List.filter_sublist.trans ih).cons_cons x

/-- Of a list in which no key is left twice, everything stays. -/
theorem firsts_eq_self {key : α → κ} {xs : List α} (h : (xs.map key).Nodup) :
    firsts key xs = xs := by
  induction xs with
  | nil => rfl
  | cons x xs ih =>
    rw [List.map_cons, List.nodup_cons] at h
    obtain ⟨hnew, hrest⟩ := h
    rw [firsts, ih hrest]
    congr 1
    apply List.filter_eq_self.2
    intro y hy
    have hne : key y ≠ key x := fun heq => hnew (heq ▸ List.mem_map_of_mem hy)
    simpa using hne

/-- What has been left out of a front part would be left out of the whole. -/
theorem distinctBy_append (key : α → κ) (xs ys : List α) :
    distinctBy key (distinctBy key xs ++ ys) = distinctBy key (xs ++ ys) := by
  have hself : distinctBy key (distinctBy key xs) = distinctBy key xs := by
    rw [distinctBy_eq_firsts key (distinctBy key xs)]
    exact firsts_eq_self (nodup_map_distinctBy key xs)
  have hsplit (zs : List α) : distinctBy key (zs ++ ys) =
      ys.foldl (fun kept x => if key x ∈ kept.map key then kept else kept ++ [x])
        (distinctBy key zs) := List.foldl_append
  rw [hsplit, hsplit, hself]

theorem foldl_distinctBy_append (key : α → κ) (xss : List (List α)) (xs : List α) :
    xss.foldl (fun a b => distinctBy key (a ++ b)) (distinctBy key xs) =
      firsts key (xs ++ xss.flatten) := by
  induction xss generalizing xs with
  | nil => rw [List.foldl_nil, List.flatten_nil, List.append_nil, distinctBy_eq_firsts]
  | cons ys xss ih =>
    rw [List.foldl_cons, distinctBy_append, ih, List.flatten_cons, List.append_assoc]

end Firsts

section FirstSet

variable {α : Type} {unset : α → Prop} [DecidablePred unset]

/-- A value is the first of a list that is set, and is unset where none is. -/
def FirstSet (unset : α → Prop) [DecidablePred unset] (xs : List α) (value : α) : Prop :=
  match xs.find? fun x => ¬ unset x with
  | some x => value = x
  | none => unset value

theorem foldl_of_set {a : α} (ha : ¬ unset a) (xs : List α) :
    xs.foldl (fun a b => if unset a then b else a) a = a := by
  induction xs with
  | nil => rfl
  | cons x xs ih => rw [List.foldl_cons, if_neg ha, ih]

theorem firstSet_foldl {a : α} (ha : unset a) (xs : List α) :
    FirstSet unset xs (xs.foldl (fun a b => if unset a then b else a) a) := by
  induction xs generalizing a with
  | nil => exact ha
  | cons x xs ih =>
    rw [List.foldl_cons, if_pos ha]
    by_cases hx : unset x
    · have hskip : (x :: xs).find? (fun x => ¬ unset x) = xs.find? fun x => ¬ unset x := by
        simp [hx]
      have hrest := ih hx
      simp only [FirstSet, hskip] at hrest ⊢
      exact hrest
    · have hfound : (x :: xs).find? (fun x => ¬ unset x) = some x := by simp [hx]
      simp only [FirstSet, hfound]
      exact foldl_of_set hx xs

end FirstSet

namespace Definition

/-- A definition has what the first of some others sets, and what any of them switches on. -/
structure MergeOf (defs : List Definition) (d : Definition) : Prop where
  processor : FirstSet (· = "") (defs.map (·.attributes.cpu.processor)) d.attributes.cpu.processor
  sockets : FirstSet (· = 0) (defs.map (·.attributes.cpu.sockets)) d.attributes.cpu.sockets
  cores : FirstSet (· = 0) (defs.map (·.attributes.cpu.cores)) d.attributes.cpu.cores
  threads : FirstSet (· = 0) (defs.map (·.attributes.cpu.threads)) d.attributes.cpu.threads
  ram : FirstSet (· = 0) (defs.map (·.attributes.ram)) d.attributes.ram
  agentPort : FirstSet (· = 0) (defs.map (·.attributes.agent.port)) d.attributes.agent.port
  agentPattern :
    FirstSet (· = "") (defs.map (·.attributes.agent.portPattern)) d.attributes.agent.portPattern
  spicePort : FirstSet (· = 0) (defs.map (·.attributes.spice.port)) d.attributes.spice.port
  spicePattern :
    FirstSet (· = "") (defs.map (·.attributes.spice.portPattern)) d.attributes.spice.portPattern
  displays : FirstSet (· = 0) (defs.map (·.attributes.spice.displays)) d.attributes.spice.displays
  groupName : FirstSet (· = "") (defs.map (·.group.name)) d.group.name
  groupId : FirstSet (· = 0) (defs.map (·.group.id)) d.group.id
  firmwareCode : FirstSet (fun v : Volume => v.isEmpty = true)
    (defs.map (·.attributes.firmware.code)) d.attributes.firmware.code
  firmwareVars : FirstSet (fun v : Volume => v.isEmpty = true)
    (defs.map (·.attributes.firmware.vars)) d.attributes.firmware.vars
  enlightenments : d.attributes.enlightenments = defs.any (·.attributes.enlightenments)
  qmp : d.attributes.qmp.enabled = defs.any (·.attributes.qmp.enabled)
  agent : d.attributes.agent.enabled = defs.any (·.attributes.agent.enabled)
  spice : d.attributes.spice.enabled = defs.any (·.attributes.spice.enabled)
  tpm : d.attributes.tpm = defs.any (·.attributes.tpm)
  socketNames : d.attributes.qmp.sockets.names =
    firsts id (defs.flatMap (·.attributes.qmp.sockets.names))
  socketPaths : d.attributes.qmp.sockets.paths =
    firsts id (defs.flatMap (·.attributes.qmp.sockets.paths))
  vars : ∀ name, d.vars.get? name = defs.findSome? (·.vars.get? name)
  volumes : d.volumes = firsts Volume.name (defs.flatMap (·.volumes))
  connections : d.connections = firsts Connection.name (defs.flatMap (·.connections))
  devices : d.devices = firsts Device.name (defs.flatMap (·.devices))
  nodup_volumes : (d.volumes.map Volume.name).Nodup
  nodup_connections : (d.connections.map Connection.name).Nodup
  nodup_devices : (d.devices.map Device.name).Nodup

section Views

variable {β : Type}

/-- A part that overlaying combines by itself is folded over the list by itself. -/
theorem view_merge (view : Definition → β) (op : β → β → β)
    (h : ∀ a b : Definition, view (a.overlay b) = op (view a) (view b)) (defs : List Definition) :
    view (merge defs) = (defs.map view).foldl op (view {}) := by
  rw [List.foldl_map]
  exact (List.foldl_hom view fun a b => (h a b).symm).symm

theorem firstSet_merge (view : Definition → β) (unset : β → Prop) [DecidablePred unset]
    (h : ∀ a b : Definition, view (a.overlay b) = if unset (view a) then view b else view a)
    (hempty : unset (view {})) (defs : List Definition) :
    FirstSet unset (defs.map view) (view (merge defs)) := by
  rw [view_merge view (fun a b => if unset a then b else a) h]
  exact firstSet_foldl hempty _

theorem any_merge (view : Definition → Bool)
    (h : ∀ a b : Definition, view (a.overlay b) = (view a || view b)) (hempty : view {} = false)
    (defs : List Definition) : view (merge defs) = defs.any view := by
  rw [view_merge view or h, hempty, List.foldl_map]
  have hfold (on : Bool) : defs.foldl (fun a d => a || view d) on = (on || defs.any view) := by
    induction defs generalizing on with
    | nil => simp
    | cons d defs ih => rw [List.foldl_cons, ih, List.any_cons, Bool.or_assoc]
  exact hfold false

theorem firsts_merge {κ : Type} [DecidableEq κ] (view : Definition → List β) {key : β → κ}
    (h : ∀ a b : Definition, view (a.overlay b) = distinctBy key (view a ++ view b))
    (hempty : view {} = []) (defs : List Definition) :
    view (merge defs) = firsts key (defs.flatMap view) := by
  rw [view_merge view (fun a b => distinctBy key (a ++ b)) h, hempty, List.flatMap_def]
  exact foldl_distinctBy_append key (defs.map view) []

theorem vars_merge (defs : List Definition) (name : String) :
    (merge defs).vars.get? name = defs.findSome? (·.vars.get? name) := by
  rw [view_merge (fun d => d.vars.get? name) Option.or
    (fun a b => NameMap.get?_fill a.vars b.vars name), List.foldl_map]
  have hfold (first : Option String) : defs.foldl (fun a d => a.or (d.vars.get? name)) first =
      first.or (defs.findSome? (·.vars.get? name)) := by
    induction defs generalizing first with
    | nil => simp
    | cons d defs ih =>
      rw [List.foldl_cons, ih, List.findSome?_cons, Option.or_assoc]
      cases d.vars.get? name <;> rfl
  exact hfold none

end Views

theorem mergeOf_merge (defs : List Definition) : MergeOf defs (merge defs) where
  processor := firstSet_merge (·.attributes.cpu.processor) (· = "") (fun _ _ => rfl) rfl defs
  sockets := firstSet_merge (·.attributes.cpu.sockets) (· = 0) (fun _ _ => rfl) rfl defs
  cores := firstSet_merge (·.attributes.cpu.cores) (· = 0) (fun _ _ => rfl) rfl defs
  threads := firstSet_merge (·.attributes.cpu.threads) (· = 0) (fun _ _ => rfl) rfl defs
  ram := firstSet_merge (·.attributes.ram) (· = 0) (fun _ _ => rfl) rfl defs
  agentPort := firstSet_merge (·.attributes.agent.port) (· = 0) (fun _ _ => rfl) rfl defs
  agentPattern := firstSet_merge (·.attributes.agent.portPattern) (· = "") (fun _ _ => rfl) rfl defs
  spicePort := firstSet_merge (·.attributes.spice.port) (· = 0) (fun _ _ => rfl) rfl defs
  spicePattern := firstSet_merge (·.attributes.spice.portPattern) (· = "") (fun _ _ => rfl) rfl defs
  displays := firstSet_merge (·.attributes.spice.displays) (· = 0) (fun _ _ => rfl) rfl defs
  groupName := firstSet_merge (·.group.name) (· = "") (fun _ _ => rfl) rfl defs
  groupId := firstSet_merge (·.group.id) (· = 0) (fun _ _ => rfl) rfl defs
  firmwareCode :=
    firstSet_merge (·.attributes.firmware.code) (·.isEmpty = true) (fun _ _ => rfl) rfl defs
  firmwareVars :=
    firstSet_merge (·.attributes.firmware.vars) (·.isEmpty = true) (fun _ _ => rfl) rfl defs
  enlightenments := any_merge (·.attributes.enlightenments) (fun _ _ => rfl) rfl defs
  qmp := any_merge (·.attributes.qmp.enabled) (fun _ _ => rfl) rfl defs
  agent := any_merge (·.attributes.agent.enabled) (fun _ _ => rfl) rfl defs
  spice := any_merge (·.attributes.spice.enabled) (fun _ _ => rfl) rfl defs
  tpm := any_merge (·.attributes.tpm) (fun _ _ => rfl) rfl defs
  socketNames := firsts_merge (·.attributes.qmp.sockets.names) (fun _ _ => rfl) rfl defs
  socketPaths := firsts_merge (·.attributes.qmp.sockets.paths) (fun _ _ => rfl) rfl defs
  vars := vars_merge defs
  volumes := firsts_merge (·.volumes) (fun _ _ => rfl) rfl defs
  connections := firsts_merge (·.connections) (fun _ _ => rfl) rfl defs
  devices := firsts_merge (·.devices) (fun _ _ => rfl) rfl defs
  nodup_volumes := by
    rw [firsts_merge Definition.volumes (fun _ _ => rfl) rfl defs]
    exact nodup_map_firsts _ _
  nodup_connections := by
    rw [firsts_merge Definition.connections (fun _ _ => rfl) rfl defs]
    exact nodup_map_firsts _ _
  nodup_devices := by
    rw [firsts_merge Definition.devices (fun _ _ => rfl) rfl defs]
    exact nodup_map_firsts _ _

end Definition

end GuestCompiler
