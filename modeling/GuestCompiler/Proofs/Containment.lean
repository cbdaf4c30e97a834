import GuestCompiler.Catalog

/-!
# Paths in a pool

Resolved, a path is its root or the levels that it climbs, and then its names. A volume's path is
read on from where the pool's path ends, so that each level that the file's name climbs takes back
one of the pool's names. The volume stays in the pool where the name comes back the way it has
climbed.
-/
namespace GuestCompiler

namespace Path

section Reading

/-- The components that the pieces of a text stand for. -/
def steps (cs : List Char) : List Component := (cs.splitOn '/').filterMap ofPiece

theorem steps_append (cs ds : List Char) : steps (cs ++ '/' :: ds) = steps cs ++ steps ds := by
  rw [steps, List.splitOn_append_cons_self, List.filterMap_append]
  rfl

def isStep : Component → Prop
  | .parent => True
  | .name _ => True
  | _ => False

theorem isStep_of_mem {cs : List Char} {c : Component} (h : c ∈ steps cs) : isStep c := by
  obtain ⟨piece, -, hpiece⟩ := List.mem_filterMap.1 h
  unfold ofPiece at hpiece
  split at hpiece <;> cases hpiece <;> trivial

/-- Where reading begins. -/
def start (p : Path) : List Component := if p.isAbsolute then [.root] else []

theorem resolve_eq_steps (p : Path) :
    p.resolve = ((steps p.text.toList).foldl enter p.start).reverse := by
  unfold resolve components start isAbsolute steps
  cases p.text.toList with
  | nil => rfl
  | cons c cs =>
    rw [List.splitOn_cons_eq_if_modifyHead]
    obtain ⟨piece, rest, hsplit⟩ := List.exists_cons_of_ne_nil (List.splitOn_ne_nil '/' cs)
    rw [hsplit]
    by_cases hc : c = '/'
    · subst hc
      rfl
    · have hbeq : (c == '/') = false := beq_eq_false_iff_ne.2 hc
      have hrelative : ((c :: cs).head? == some '/') = false :=
        beq_eq_false_iff_ne.2 (by simpa using hc)
      simp only [hbeq, Bool.false_eq_true, if_false, hrelative, List.modifyHead_cons]
      -- A dot that begins a path is a component that reading passes over.
      split
      · rename_i heq
        obtain ⟨hpiece, rfl⟩ := List.cons.inj heq
        rw [hpiece]
        rfl
      · rename_i heq
        exact nomatch heq
      · rfl

section Join

variable {p : Path} {right : String} (h : isAbsolute ⟨right⟩ = false)
include h

theorem toList_join : (p.join right).text.toList =
    p.text.toList ++ p.separator.toList ++ right.toList := by
  simp [join, h]

theorem steps_join : steps (p.join right).text.toList =
    steps p.text.toList ++ steps right.toList := by
  rw [toList_join h]
  by_cases hempty : p.text.toList = []
  · have hsep : p.separator = "" := if_pos (.inl hempty)
    rw [hsep, hempty]
    rfl
  by_cases hlast : p.text.toList.getLast? = some '/'
  · -- The separator that is there already ends the directory's last piece.
    have hsep : p.separator = "" := if_pos (.inr hlast)
    obtain ⟨front, hfront⟩ := List.getLast?_eq_some_iff.1 hlast
    have hslash : steps (front ++ ['/']) = steps front := by
      rw [steps_append]
      exact List.append_nil _
    rw [hsep, hfront, hslash, ← steps_append]
    simp
  · have hsep : p.separator = "/" := if_neg (by simp [hempty, hlast])
    rw [hsep, ← steps_append]
    simp

theorem start_join : (p.join right).start = p.start := by
  have habsolute : (p.join right).isAbsolute = p.isAbsolute := by
    unfold isAbsolute
    rw [toList_join h]
    cases hp : p.text.toList with
    | nil =>
      have hsep : p.separator = "" := if_pos (.inl hp)
      rw [hsep]
      exact h
    | cons c cs => rfl
  rw [start, habsolute, start]

/-- A file that is not absolute is read on from where the directory ends. -/
theorem resolve_join : (p.join right).resolve =
    ((steps right.toList).foldl enter ((steps p.text.toList).foldl enter p.start)).reverse := by
  rw [resolve_eq_steps, steps_join h, start_join h, List.foldl_append]

end Join

end Reading

section Normal

/-- What a resolved path begins with: its root, or the levels that it climbs. -/
def base (absolute : Bool) (climbs : Nat) : List Component :=
  if absolute then [.root] else List.replicate climbs .parent

/-- A stack, top first, of names above a base. -/
def stack (names : List String) (base : List Component) : List Component :=
  names.map .name ++ base

theorem enter_name (n : String) (ns : List String) (b : List Component) :
    enter (stack ns b) (.name n) = stack (n :: ns) b := rfl

/-- Climbing takes the top name back; below the names it stays at the root or goes on. -/
theorem enter_parent (ns : List String) (absolute : Bool) (k : Nat) :
    enter (stack ns (base absolute k)) .parent =
      stack ns.tail (base absolute (k + (1 - ns.length))) := by
  cases ns with
  | cons n ns => simp [stack, enter]
  | nil =>
    cases absolute with
    | true => rfl
    | false =>
      cases k <;> rfl

theorem foldl_enter_names (fs ns : List String) (b : List Component) :
    (fs.map Component.name).foldl enter (stack ns b) = stack (fs.reverse ++ ns) b := by
  induction fs generalizing ns with
  | nil => rfl
  | cons f fs ih => rw [List.map_cons, List.foldl_cons, enter_name, ih, List.reverse_cons,
      List.append_assoc, List.singleton_append]

theorem foldl_enter_parents (c : Nat) (ns : List String) (absolute : Bool) (k : Nat) :
    (List.replicate c Component.parent).foldl enter (stack ns (base absolute k)) =
      stack (ns.drop c) (base absolute (k + (c - ns.length))) := by
  induction c generalizing ns k with
  | zero => simp
  | succ c ih =>
    rw [List.replicate_succ, List.foldl_cons, enter_parent, ih, List.drop_tail, List.length_tail]
    congr 2
    omega

/-- Reading steps from a stack leaves a stack. -/
theorem exists_stack {cs : List Component} (hcs : ∀ c ∈ cs, isStep c) (ns : List String)
    (absolute : Bool) (k : Nat) : ∃ ms j,
      cs.foldl enter (stack ns (base absolute k)) = stack ms (base absolute j) := by
  induction cs generalizing ns k with
  | nil => exact ⟨ns, k, rfl⟩
  | cons c cs ih =>
    obtain ⟨hc, hrest⟩ := List.forall_mem_cons.1 hcs
    cases c with
    | parent =>
      rw [List.foldl_cons, enter_parent]
      exact ih hrest _ _
    | name n => exact ih hrest (n :: ns) k
    | root => exact hc.elim
    | current => exact hc.elim

/-- A step read onto a stack, and the stack then read: the same as the stack and then the step. -/
theorem foldl_enter_enter (read s : List Component) (c : Component) :
    (enter read c).reverse.foldl enter s = enter (read.reverse.foldl enter s) c := by
  cases c with
  | root => simp [enter]
  | current => rfl
  | name n => simp [enter]
  | parent =>
    rcases read with - | ⟨top, read⟩
    · rfl
    · cases top with
      | name n => simp [enter]
      | root => simp [enter]
      | current => simp [enter]
      | parent => simp [enter]

theorem reverse_stack (ns : List String) (absolute : Bool) (k : Nat) :
    (stack ns (base absolute k)).reverse = base absolute k ++ ns.reverse.map .name := by
  have hbase : (base absolute k).reverse = base absolute k := by cases absolute <;> simp [base]
  rw [stack, List.reverse_append, hbase, List.map_reverse]

/-- Steps may be resolved by themselves before they are read. -/
theorem foldl_enter_resolved (cs read s : List Component) :
    (cs.foldl enter read).reverse.foldl enter s = cs.foldl enter (read.reverse.foldl enter s) := by
  induction cs generalizing read with
  | nil => rfl
  | cons c cs ih => rw [List.foldl_cons, ih, foldl_enter_enter, List.foldl_cons]

end Normal

def Component.text? : Component → Option String
  | name text => some text
  | _ => none

/-- The names of a resolved path. -/
def names (p : Path) : List String := p.resolve.filterMap Component.text?

/-- The levels that a resolved path climbs before its first name. -/
def climbs (p : Path) : Nat := p.resolve.count .parent

/-- A resolved path is its base and its names. -/
theorem resolve_eq (p : Path) :
    p.resolve = base p.isAbsolute p.climbs ++ p.names.map .name := by
  have hstart : p.start = stack [] (base p.isAbsolute 0) := by
    cases h : p.isAbsolute <;> simp [start, stack, base, h]
  obtain ⟨ms, j, hread⟩ :=
    exists_stack (fun c (hc : c ∈ steps p.text.toList) => isStep_of_mem hc) [] p.isAbsolute 0
  have hresolve : p.resolve = base p.isAbsolute j ++ ms.reverse.map .name := by
    rw [resolve_eq_steps, hstart, hread, reverse_stack]
  have hnames : p.names = ms.reverse := by
    have hbase : (base p.isAbsolute j).filterMap Component.text? = [] := by
      cases p.isAbsolute <;> simp [base, Component.text?]
    have htexts : (ms.reverse.map .name).filterMap Component.text? = ms.reverse := by
      rw [List.filterMap_map]
      exact List.filterMap_some
    rw [names, hresolve, List.filterMap_append, hbase, htexts, List.nil_append]
  have hbase : base p.isAbsolute p.climbs = base p.isAbsolute j := by
    cases h : p.isAbsolute
    · simp [climbs, hresolve, h, base, List.count_eq_zero]
    · rfl
  rw [hbase, hnames, hresolve]

theorem resolve_of_relative {p : Path} (h : p.isAbsolute = false) :
    p.resolve = List.replicate p.climbs .parent ++ p.names.map .name := by
  rw [resolve_eq, h]
  rfl

/-- A file takes back as many names of the directory as it climbs levels, and then goes its way. -/
theorem resolve_join_eq {p : Path} {right : String} (h : isAbsolute ⟨right⟩ = false) :
    (p.join right).resolve =
      base p.isAbsolute (p.climbs + (climbs ⟨right⟩ - p.names.length)) ++
        (p.names.take (p.names.length - climbs ⟨right⟩) ++ names ⟨right⟩).map .name := by
  have hdirectory : (steps p.text.toList).foldl enter p.start =
      stack p.names.reverse (base p.isAbsolute p.climbs) := by
    rw [← List.reverse_inj, ← resolve_eq_steps, reverse_stack, List.reverse_reverse]
    exact resolve_eq p
  have hfile : ((steps right.toList).foldl enter []).reverse =
      List.replicate (climbs ⟨right⟩) .parent ++ (names ⟨right⟩).map .name := by
    rw [← resolve_of_relative h, resolve_eq_steps, start, h]
    rfl
  have hread := foldl_enter_resolved (steps right.toList) []
    (stack p.names.reverse (base p.isAbsolute p.climbs))
  rw [hfile, List.foldl_append, foldl_enter_parents, foldl_enter_names] at hread
  have hstack : (steps right.toList).foldl enter
      (stack p.names.reverse (base p.isAbsolute p.climbs)) = _ := hread.symm
  rw [resolve_join h, hdirectory, hstack, reverse_stack, List.reverse_append, List.reverse_reverse,
    List.drop_reverse, List.reverse_reverse, List.length_reverse]

/-- Taking names back and going on leads below the names only by the names that were taken back, and
never from above the place where a relative path begins. -/
theorem prefix_iff (absolute : Bool) (k c : Nat) (ns fs : List String) :
    base absolute k ++ ns.map .name <+:
        base absolute (k + (c - ns.length)) ++ (ns.take (ns.length - c) ++ fs).map .name ↔
      ns.drop (ns.length - c) <+: fs ∧ (c ≤ ns.length ∨ absolute = true ∨ ns = []) := by
  have hinj : Function.Injective Component.name := fun _ _ h => Component.name.inj h
  by_cases hc : c ≤ ns.length
  · -- The file turns back below or at the directory's first name.
    have hlevel : k + (c - ns.length) = k := by omega
    have hsplit : ns <+: ns.take (ns.length - c) ++ fs ↔ ns.drop (ns.length - c) <+: fs :=
      calc ns <+: ns.take (ns.length - c) ++ fs
        _ ↔ ns.take (ns.length - c) ++ ns.drop (ns.length - c) <+:
              ns.take (ns.length - c) ++ fs := by rw [List.take_append_drop]
        _ ↔ ns.drop (ns.length - c) <+: fs := List.prefix_append_right_inj _
    rw [hlevel, List.prefix_append_right_inj, List.prefix_map_iff_of_injective hinj, hsplit]
    simp [hc]
  · -- No name is left, so that the base decides.
    have hzero : ns.length - c = 0 := by omega
    rw [hzero, List.take_zero, List.drop_zero, List.nil_append]
    cases absolute with
    | true =>
      simp only [base, if_true, List.prefix_append_right_inj,
        List.prefix_map_iff_of_injective hinj, or_true, true_or, and_true]
    | false =>
      obtain ⟨j, hj⟩ : ∃ j, c - ns.length = j + 1 := ⟨c - ns.length - 1, by omega⟩
      have hlevels : List.replicate (k + (j + 1)) Component.parent =
          List.replicate k .parent ++ .parent :: List.replicate j .parent :=
        List.replicate_append_replicate.symm
      simp only [base, Bool.false_eq_true, if_false, hj, hlevels, List.append_assoc,
        List.prefix_append_right_inj, hc, false_or]
      cases ns <;> simp

end Path

namespace Pool

/-- The file of a volume, from the pool's path on. -/
def file (p : Pool) (machine : MachineInfo) (volume : String) : Path :=
  ⟨String.ofList ((p.fileName machine volume).toList.dropWhile (· = '/'))⟩

theorem isAbsolute_file (p : Pool) (machine : MachineInfo) (volume : String) :
    (p.file machine volume).isAbsolute = false := by
  have hhead := List.head?_dropWhile_not (· = '/') (p.fileName machine volume).toList
  rw [Path.isAbsolute, file, String.toList_ofList]
  cases hfirst : ((p.fileName machine volume).toList.dropWhile (· = '/')).head? with
  | none => rfl
  | some c =>
    rw [hfirst] at hhead
    have hc : c ≠ '/' := of_decide_eq_false hhead
    exact beq_eq_false_iff_ne.2 (by simpa using hc)

/-- A volume's path stays in the pool exactly where the file's name comes back, by the pool's own
names, from as far as it has climbed. -/
theorem resolve_prefix_volumePath_iff (p : Pool) (machine : MachineInfo) (volume : String) :
    p.path.resolve <+: (p.volumePath machine volume).resolve ↔
      p.path.names.drop (p.path.names.length - (p.file machine volume).climbs) <+:
          (p.file machine volume).names ∧
        ((p.file machine volume).climbs ≤ p.path.names.length ∨ p.path.isAbsolute = true ∨
          p.path.names = []) := by
  have hjoin := Path.resolve_join_eq (p := p.path) (p.isAbsolute_file machine volume)
  rw [Path.resolve_eq p.path]
  exact hjoin ▸ Path.prefix_iff _ _ _ _ _

example : (⟨"/pool"⟩ : Path).resolve <+:
    (volumePath { path := ⟨"/pool"⟩ } {} "../pool/os").resolve := by decide +kernel

/-- The name of a volume may lead out of the pool. -/
theorem volumePath_escapes :
    ¬ (⟨"/pool"⟩ : Path).resolve <+:
      (volumePath { path := ⟨"/pool"⟩ } {} "../../etc/passwd").resolve := by decide +kernel

end Pool

end GuestCompiler
