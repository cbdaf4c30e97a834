/-!
# Maps from names

A finite map keyed by text, held as the list of its entries in ascending order of name. Two maps
with the same entries are equal, and whatever walks over a map meets its names in order. What a
look-up finds after a change is said by `get?_insert` and `get?_fill`.
-/
namespace GuestCompiler

structure NameMap (α : Type) where
  entries : List (String × α)
  ascending : entries.Pairwise (fun a b => a.1 < b.1)
  deriving DecidableEq

namespace NameMap

variable {α : Type}

def empty : NameMap α := ⟨[], .nil⟩

instance : EmptyCollection (NameMap α) := ⟨empty⟩

instance : Inhabited (NameMap α) := ⟨empty⟩

/-- Put a value into its place in ascending entries, over any value of that name. -/
def place (name : String) (value : α) : List (String × α) → List (String × α)
  | [] => [(name, value)]
  | entry :: rest =>
    if name < entry.1 then (name, value) :: entry :: rest
    else if name = entry.1 then (name, value) :: rest
    else entry :: place name value rest

theorem mem_place {name : String} {value : α} {es : List (String × α)} {e : String × α}
    (h : e ∈ place name value es) : e = (name, value) ∨ e ∈ es := by
  induction es with
  | nil => simpa [place] using h
  | cons entry rest ih =>
    simp only [place] at h
    split at h
    · simpa using h
    · split at h
      · rcases List.mem_cons.1 h with h | h
        · exact .inl h
        · exact .inr (List.mem_cons_of_mem _ h)
      · rcases List.mem_cons.1 h with h | h
        · exact .inr (h ▸ List.mem_cons_self)
        · exact (ih h).imp_right (List.mem_cons_of_mem _)

theorem pairwise_place (name : String) (value : α) {es : List (String × α)}
    (h : es.Pairwise (fun a b => a.1 < b.1)) :
    (place name value es).Pairwise (fun a b => a.1 < b.1) := by
  induction es with
  | nil => simp [place]
  | cons entry rest ih =>
    obtain ⟨hall, hrest⟩ := List.pairwise_cons.1 h
    simp only [place]
    split
    · rename_i hlt
      refine List.pairwise_cons.2 ⟨fun e he => ?_, h⟩
      rcases List.mem_cons.1 he with rfl | he
      · exact hlt
      · exact String.lt_trans hlt (hall e he)
    · split
      · rename_i heq
        exact List.pairwise_cons.2 ⟨fun e he => heq ▸ hall e he, hrest⟩
      · rename_i hnlt hne
        refine List.pairwise_cons.2 ⟨fun e he => ?_, ih hrest⟩
        rcases mem_place he with rfl | he
        · refine Decidable.byContradiction fun hn => hne ?_
          exact String.le_antisymm (String.not_lt.1 hn) (String.not_lt.1 hnlt)
        · exact hall e he

theorem lookup_cons_ite (e : String × α) (es : List (String × α)) (x : String) :
    (e :: es).lookup x = if x = e.1 then some e.2 else es.lookup x := by
  obtain ⟨name, value⟩ := e
  by_cases h : x = name
  · simp [h]
  · rw [List.lookup_cons, beq_eq_false_iff_ne.2 h, if_neg h]

theorem lookup_place (name : String) (value : α) (es : List (String × α)) (x : String) :
    (place name value es).lookup x = if x = name then some value else es.lookup x := by
  induction es with
  | nil => rw [place, lookup_cons_ite]
  | cons entry rest ih =>
    simp only [place]
    split
    · rw [lookup_cons_ite]
    · split
      · rename_i heq
        subst heq
        simp only [lookup_cons_ite]
        split <;> rfl
      · rename_i hne
        simp only [lookup_cons_ite, ih]
        by_cases hx : x = entry.1
        · have hn : x ≠ name := fun hn => hne (hn.symm.trans hx)
          rw [if_pos hx, if_neg hn, if_pos hx]
        · simp [hx]

def insert (m : NameMap α) (name : String) (value : α) : NameMap α :=
  ⟨place name value m.entries, pairwise_place name value m.ascending⟩

def get? (m : NameMap α) (name : String) : Option α := m.entries.lookup name

@[simp] theorem get?_empty (x : String) : (∅ : NameMap α).get? x = none := rfl

@[simp] theorem get?_insert (m : NameMap α) (name : String) (value : α) (x : String) :
    (m.insert name value).get? x = if x = name then some value else m.get? x :=
  lookup_place name value m.entries x

def contains (m : NameMap α) (name : String) : Bool := (m.get? name).isSome

def isEmpty (m : NameMap α) : Bool := m.entries.isEmpty

def names (m : NameMap α) : List String := m.entries.map (·.1)

def values (m : NameMap α) : List α := m.entries.map (·.2)

/-- The last of several values given for a name stays. -/
def ofList (es : List (String × α)) : NameMap α := es.foldl (fun m e => m.insert e.1 e.2) ∅

/-- Every name of either map, with the first map's value where both have one. -/
def fill (m other : NameMap α) : NameMap α :=
  other.entries.foldl (fun m e => if m.contains e.1 then m else m.insert e.1 e.2) m

theorem get?_foldl_fill (es : List (String × α)) (m : NameMap α) (x : String) :
    (es.foldl (fun m e => if m.contains e.1 then m else m.insert e.1 e.2) m).get? x =
      (m.get? x).or (es.lookup x) := by
  induction es generalizing m with
  | nil => simp
  | cons e rest ih =>
    rw [List.foldl_cons, ih, lookup_cons_ite]
    by_cases hx : x = e.1
    · subst hx
      cases hm : m.get? e.1 <;> simp [contains, hm]
    · cases hm : m.get? e.1 <;> simp [contains, hm, hx]

/-- The first map decides, and the other one fills in. -/
@[simp] theorem get?_fill (m other : NameMap α) (x : String) :
    (m.fill other).get? x = (m.get? x).or (other.get? x) := get?_foldl_fill other.entries m x

end NameMap

end GuestCompiler
