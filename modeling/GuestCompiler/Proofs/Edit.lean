import GuestCompiler.Edit
import Mathlib.Data.List.Forall2

/-!
# What edits leave behind

`Meets` says what an edit does from one state: what its answer and the state after it are like, or
its failure and the state it fails in. The rules below take an edit apart along its steps. `Keeps`
is the special case of a view of the state that the edit does not change, with what its failures are
like, `Preserves` the one of an invariant, with what its answers are like, `Adds` the one of a list
that the state holds and that grows (a `Tally`), and `Atomic` the one of a failure that changes
nothing.
`Replays` is about two edits, one of which answers all that the other one does, and `Mirrors` about
two that do the same to states that look alike.
-/
namespace GuestCompiler.Edit

deriving instance DecidableEq for EStateM.Result

variable {ε σ τ α β : Type}

def Meets (edit : Edit ε σ α) (s : σ) (post : α → σ → Prop) (fail : ε → σ → Prop) : Prop :=
  match edit s with
  | .ok a s' => post a s'
  | .error e s' => fail e s'

/-- What an edit does when it answers. -/
abbrev Yields (edit : Edit ε σ α) (s : σ) (post : α → σ → Prop) : Prop :=
  Meets edit s post fun _ _ => True

section Rules

variable {s : σ} {post : α → σ → Prop} {fail : ε → σ → Prop}

theorem Meets.ok {edit : Edit ε σ α} (h : Meets edit s post fail) {a : α} {s' : σ}
    (hs : edit s = .ok a s') : post a s' := by
  rw [Meets, hs] at h
  exact h

theorem Meets.error {edit : Edit ε σ α} (h : Meets edit s post fail) {e : ε} {s' : σ}
    (hs : edit s = .error e s') : fail e s' := by
  rw [Meets, hs] at h
  exact h

/-- Enough that the two outcomes are as told. -/
theorem meets_iff {edit : Edit ε σ α} : Meets edit s post fail ↔
    (∀ a s', edit s = .ok a s' → post a s') ∧ ∀ e s', edit s = .error e s' → fail e s' := by
  refine ⟨fun h => ⟨fun _ _ => h.ok, fun _ _ => h.error⟩, fun ⟨hok, herror⟩ => ?_⟩
  unfold Meets
  cases hs : edit s with
  | ok a s' => exact hok a s' hs
  | error e s' => exact herror e s' hs

/-- Only what an edit does from the state counts. -/
theorem Meets.congr {edit edit' : Edit ε σ α} (heq : edit s = edit' s)
    (h : Meets edit' s post fail) : Meets edit s post fail := by
  rw [Meets, heq]
  exact h

theorem Meets.mono {edit : Edit ε σ α} {post' : α → σ → Prop} {fail' : ε → σ → Prop}
    (h : Meets edit s post fail) (hpost : ∀ a s', post a s' → post' a s')
    (hfail : ∀ e s', fail e s' → fail' e s') : Meets edit s post' fail' :=
  meets_iff.2 ⟨fun a s' hs => hpost a s' (h.ok hs), fun e s' hs => hfail e s' (h.error hs)⟩

/-- What holds of the state either way holds of the state that an edit leaves. -/
theorem Meets.state {edit : Edit ε σ α} {P : σ → Prop} (h : Meets edit s post fail)
    (hpost : ∀ a s', post a s' → P s') (hfail : ∀ e s', fail e s' → P s') :
    P (Edit.state (edit s)) := by
  cases hs : edit s with
  | ok a s' => exact hpost a s' (h.ok hs)
  | error e s' => exact hfail e s' (h.error hs)

/-- An edit fails just where a condition holds that all its failures meet and no answer does. -/
theorem Meets.refused_iff {edit : Edit ε σ α} {condition : Prop} (h : Meets edit s post fail)
    (hpost : ∀ a s', post a s' → ¬ condition) (hfail : ∀ e s', fail e s' → condition) :
    (∃ e s', edit s = .error e s') ↔ condition := by
  constructor
  · rintro ⟨e, s', hs⟩
    exact hfail e s' (h.error hs)
  · intro hcondition
    cases hs : edit s with
    | ok a s' => exact absurd hcondition (hpost a s' (h.ok hs))
    | error e s' => exact ⟨e, s', rfl⟩

theorem Meets.yields {edit : Edit ε σ α} (h : Meets edit s post fail) : Yields edit s post :=
  h.mono (fun _ _ => id) fun _ _ _ => trivial

theorem yields_any (edit : Edit ε σ α) (s : σ) : Yields edit s fun _ _ => True :=
  meets_iff.2 ⟨fun _ _ _ => trivial, fun _ _ _ => trivial⟩

theorem Meets.imp {edit : Edit ε σ α} {post' : α → σ → Prop} (h : Meets edit s post fail)
    (hpost : ∀ a s', post a s' → post' a s') : Meets edit s post' fail :=
  h.mono hpost fun _ _ => id

@[simp] theorem meets_pure {a : α} : Meets (pure a) s post fail ↔ post a s := Iff.rfl

@[simp] theorem meets_throw {e : ε} : Meets (throw e) s post fail ↔ fail e s := Iff.rfl

@[simp] theorem meets_modify {change : σ → σ} {post : PUnit → σ → Prop} :
    Meets (modify change : Edit ε σ PUnit) s post fail ↔ post ⟨⟩ (change s) := Iff.rfl

theorem meets_bind {x : Edit ε σ β} {f : β → Edit ε σ α} : Meets (x >>= f) s post fail ↔
    Meets x s (fun b s' => Meets (f b) s' post fail) fail := by
  simp only [Meets, bind, EStateM.bind]
  cases x s <;> rfl

/-- A step, and then the others from where it leaves off. -/
theorem Meets.bind {x : Edit ε σ β} {f : β → Edit ε σ α} {M : β → σ → Prop}
    (hx : Meets x s M fail) (hf : ∀ b s', M b s' → Meets (f b) s' post fail) :
    Meets (x >>= f) s post fail :=
  meets_bind.2 (hx.imp hf)

theorem meets_map {x : Edit ε σ β} {f : β → α} :
    Meets (f <$> x) s post fail ↔ Meets x s (fun b s' => post (f b) s') fail := by
  simp only [Meets, Functor.map, EStateM.map]
  cases x s <;> rfl

/-- Answers one after the other fail where the first does, or where the second does. -/
theorem exceptBind_eq_error {x : Except ε β} {f : β → Except ε α} {e : ε} :
    (x >>= f) = .error e ↔ x = .error e ∨ ∃ b, x = .ok b ∧ f b = .error e := by
  cases x <;> simp [Bind.bind, Except.bind]

theorem exceptBind_eq_ok {x : Except ε β} {f : β → Except ε α} {a : α} :
    (x >>= f) = .ok a ↔ ∃ b, x = .ok b ∧ f b = .ok a := by
  cases x <;> simp [Bind.bind, Except.bind]

theorem exceptMap_eq_ok {x : Except ε β} {f : β → α} {a : α} :
    x.map f = .ok a ↔ ∃ b, x = .ok b ∧ f b = a := by
  cases x <;> simp [Except.map]

/-- A list of answers is the list of what each element is answered with. -/
theorem exceptMapM_eq_ok {f : α → Except ε β} {xs : List α} {ys : List β} :
    xs.mapM f = .ok ys ↔ List.Forall₂ (fun x y => f x = .ok y) xs ys := by
  induction xs generalizing ys with
  | nil => cases ys <;> simp [Pure.pure, Except.pure]
  | cons x xs ih =>
    rw [List.mapM_cons]
    cases hx : f x with
    | error e => cases ys <;> simp [Bind.bind, Except.bind, hx]
    | ok y =>
      cases hxs : xs.mapM f with
      | error e => cases ys <;> simp [Bind.bind, Except.bind, ← ih, hxs, hx]
      | ok zs => cases ys <;> simp [Bind.bind, Except.bind, Pure.pure, Except.pure, ← ih, hxs, hx]

theorem meets_ofExcept {answer : Except ε α} : Meets (ofExcept answer) s post fail ↔
    (∀ a, answer = .ok a → post a s) ∧ ∀ e, answer = .error e → fail e s := by
  cases answer <;> simp [ofExcept]

theorem ofExcept_ok_bind (b : β) (f : β → Edit ε σ α) :
    ((ofExcept (.ok b) : Edit ε σ β) >>= f) = f b := rfl

theorem meets_within {get : τ → σ} {set : σ → τ → τ} {edit : Edit ε σ α} {t : τ}
    {post : α → τ → Prop} {fail : ε → τ → Prop} : Meets (within get set edit) t post fail ↔
    Meets edit (get t) (fun a s' => post a (set s' t)) (fun e s' => fail e (set s' t)) := by
  simp only [Meets, within]
  cases edit (get t) <;> rfl

/-- Edits of a part, one after the other, are one edit of the part. -/
theorem within_bind {get : τ → σ} {set : σ → τ → τ} (hget : ∀ s t, get (set s t) = s)
    (hset : ∀ s s' t, set s (set s' t) = set s t) (x : Edit ε σ β) (f : β → Edit ε σ α) :
    within get set (x >>= f) = (within get set x >>= fun b => within get set (f b)) := by
  funext t
  simp only [within, bind, EStateM.bind]
  cases x (get t) with
  | error e s => rfl
  | ok b s =>
    simp only [hget]
    cases f b s <;> simp only [hset]

/-- A loop: `inv` says how things stand after the elements done so far. -/
theorem Meets.forM {xs : List β} {f : β → Edit ε σ PUnit} (inv : List β → σ → Prop)
    (start : inv [] s)
    (step : ∀ done x s, done ++ [x] <+: xs → inv done s →
      Meets (f x) s (fun _ => inv (done ++ [x])) fail) :
    Meets (xs.forM f) s (fun _ => inv xs) fail := by
  -- The elements done so far stand before those still to come.
  suffices h : ∀ rest done s, done ++ rest = xs → inv done s →
      Meets (rest.forM f) s (fun _ => inv xs) fail from h xs [] s rfl start
  intro rest
  induction rest with
  | nil =>
    intro done s hxs hinv
    rw [List.append_nil] at hxs
    subst hxs
    exact hinv
  | cons x rest ih =>
    intro done s hxs hinv
    have hsplit : done ++ [x] ++ rest = xs := by rw [List.append_assoc]; exact hxs
    exact (step done x s ⟨rest, hsplit⟩ hinv).bind fun _ s' h => ih (done ++ [x]) s' hsplit h

/-- A loop that keeps what each of its rounds keeps. -/
theorem Meets.forM_inv {xs : List β} {f : β → Edit ε σ PUnit} (inv : σ → Prop) (start : inv s)
    (step : ∀ x ∈ xs, ∀ s, inv s → Meets (f x) s (fun _ => inv) fail) :
    Meets (xs.forM f) s (fun _ => inv) fail :=
  Meets.forM (fun _ => inv) start fun _ x s hx =>
    step x (hx.subset (List.mem_append_right _ List.mem_cons_self)) s

end Rules

section Frames

variable {ω : Type} {view : σ → ω} {safe : ε → Prop}

def Keeps (view : σ → ω) (safe : ε → Prop) (edit : Edit ε σ α) : Prop :=
  ∀ s, Meets edit s (fun _ s' => view s' = view s) (fun e _ => safe e)

theorem Keeps.pure (a : α) : Keeps view safe (pure a : Edit ε σ α) := fun _ => rfl

theorem Keeps.throw {e : ε} (h : safe e) : Keeps view safe (throw e : Edit ε σ α) := fun _ => h

/-- A view that shows nothing. -/
theorem Keeps.any (edit : Edit ε σ α) : Keeps (fun _ => ()) (fun _ => True) edit :=
  fun s => (yields_any edit s).imp fun _ _ _ => rfl

theorem Keeps.get : Keeps view safe (get : Edit ε σ σ) := fun _ => rfl

theorem Keeps.modify {change : σ → σ} (h : ∀ s, view (change s) = view s) :
    Keeps view safe (modify change : Edit ε σ PUnit) := fun s => h s

theorem Keeps.bind {x : Edit ε σ β} {f : β → Edit ε σ α} (hx : Keeps view safe x)
    (hf : ∀ b, Keeps view safe (f b)) : Keeps view safe (x >>= f) := fun s =>
  (hx s).bind fun b s' hs => (hf b s').imp fun _ _ h => h.trans hs

theorem Keeps.map {x : Edit ε σ β} (f : β → α) (hx : Keeps view safe x) :
    Keeps view safe (f <$> x) := fun s => meets_map.2 (hx s)

/-- What happens within a part is not seen by a view of the rest. -/
theorem Keeps.within {get : τ → σ} {set : σ → τ → τ} {edit : Edit ε σ α} {view' : τ → ω}
    (h : ∀ s t, view' (set s t) = view' t) (hedit : Keeps (fun _ => ()) safe edit) :
    Keeps view' safe (within get set edit) := fun t =>
  meets_within.2 ((hedit (get t)).imp fun _ s' _ => h s' t)

theorem Keeps.forM {xs : List β} {f : β → Edit ε σ PUnit} (hf : ∀ x ∈ xs, Keeps view safe (f x)) :
    Keeps view safe (xs.forM f) := fun s =>
  Meets.forM_inv (fun s' => view s' = view s) rfl fun x hx s' hs =>
    (hf x hx s').imp fun _ _ h => h.trans hs

end Frames

section Invariants

variable {inv : σ → Prop} {answer : α → Prop}

/-- Where the edit does not fail, the invariant still holds, and the answer is as told. -/
def Preserves (inv : σ → Prop) (answer : α → Prop) (edit : Edit ε σ α) : Prop :=
  ∀ s, inv s → Yields edit s fun a s' => inv s' ∧ answer a

/-- Keeps the invariant, whatever it answers. -/
abbrev Stable (inv : σ → Prop) (edit : Edit ε σ α) : Prop := Preserves inv (fun _ => True) edit

theorem stable_iff {edit : Edit ε σ α} :
    Stable inv edit ↔ ∀ s, inv s → Yields edit s fun _ s' => inv s' := by
  simp only [Stable, Preserves, and_true]

theorem Preserves.pure {a : α} (h : answer a) :
    Preserves inv answer (pure a : Edit ε σ α) := fun _ hs => ⟨hs, h⟩

theorem Preserves.throw {e : ε} : Preserves inv answer (throw e : Edit ε σ α) :=
  fun _ _ => trivial

theorem Preserves.get : Stable inv (get : Edit ε σ σ) :=
  fun _ hs => ⟨hs, trivial⟩

theorem Preserves.modify {change : σ → σ} (h : ∀ s, inv s → inv (change s)) :
    Stable inv (modify change : Edit ε σ PUnit) :=
  fun s hs => ⟨h s hs, trivial⟩

theorem Preserves.bind {x : Edit ε σ β} {f : β → Edit ε σ α} {between : β → Prop}
    (hx : Preserves inv between x) (hf : ∀ b, between b → Preserves inv answer (f b)) :
    Preserves inv answer (x >>= f) :=
  fun s hs => Meets.bind (hx s hs) fun b s' ⟨hs', hb⟩ => hf b hb s' hs'

theorem Preserves.imp {edit : Edit ε σ α} {answer' : α → Prop} (h : Preserves inv answer edit)
    (ha : ∀ a, answer a → answer' a) : Preserves inv answer' edit :=
  fun s hs => Meets.imp (h s hs) fun a _ ⟨hs', haa⟩ => ⟨hs', ha a haa⟩

theorem Preserves.map {x : Edit ε σ β} {f : β → α} (hx : Preserves inv (fun b => answer (f b)) x) :
    Preserves inv answer (f <$> x) := fun s hs => meets_map.2 (hx s hs)

theorem Preserves.within {get : τ → σ} {set : σ → τ → τ} {edit : Edit ε σ α} {inv' : τ → Prop}
    (hget : ∀ t, inv' t → inv (get t)) (hset : ∀ s t, inv' t → inv s → inv' (set s t))
    (hedit : Preserves inv answer edit) : Preserves inv' answer (within get set edit) := fun t ht =>
  meets_within.2 (Meets.imp (hedit (get t) (hget t ht)) fun _ s' ⟨hs', ha⟩ =>
    ⟨hset s' t ht hs', ha⟩)

theorem Preserves.forM {xs : List β} {f : β → Edit ε σ PUnit}
    (hf : ∀ x ∈ xs, Stable inv (f x)) :
    Stable inv (xs.forM f) :=
  stable_iff.2 fun _ hs => Meets.forM_inv inv hs fun x hx => stable_iff.1 (hf x hx)

end Invariants

section Tallies

/-- How a state holds a list that grows: the lists that may come about, and the failures that a list
accounts for. The prefixes of a list that may come about may do so too, and what accounts for a
failure still does when it goes on. -/
structure Tally (ε σ ι : Type) where
  Holds : σ → List ι → Prop
  May : List ι → Prop
  Accounts : List ι → ε → Prop
  may_of_prefix : ∀ {xs ys : List ι}, xs <+: ys → May ys → May xs
  accounts_of_prefix : ∀ {xs ys : List ι} {e : ε}, xs <+: ys → Accounts xs e → Accounts ys e

variable {ι : Type} {tally : Tally ε σ ι} {answer : α → Prop} {answer' : β → Prop}
  {first more : List ι}

/-- What the state holds is followed by more, and the answer is as told; or else the edit fails for
a reason that lies in the list. -/
def Adds (tally : Tally ε σ ι) (edit : Edit ε σ α) (more : List ι) (answer : α → Prop) : Prop :=
  ∀ s held, tally.Holds s held → tally.May (held ++ more) →
    Meets edit s (fun a s' => tally.Holds s' (held ++ more) ∧ answer a)
      fun e _ => tally.Accounts (held ++ more) e

theorem Adds.pure {a : α} (h : answer a) : Adds tally (pure a : Edit ε σ α) [] answer :=
  fun s held hs _ => by
    rw [List.append_nil]
    exact ⟨hs, h⟩

theorem Adds.throw {e : ε} (h : ∀ held, tally.Accounts held e) :
    Adds tally (throw e : Edit ε σ α) more answer := fun _ _ _ _ => h _

theorem Adds.bind {x : Edit ε σ β} {f : β → Edit ε σ α} (hx : Adds tally x first answer')
    (hf : ∀ b, answer' b → Adds tally (f b) more answer) :
    Adds tally (x >>= f) (first ++ more) answer := by
  intro s held hs hmay
  rw [← List.append_assoc] at hmay ⊢
  have hfront : held ++ first <+: held ++ first ++ more := List.prefix_append _ _
  have hfirst := hx s held hs (tally.may_of_prefix hfront hmay)
  refine Meets.bind (hfirst.mono (fun _ _ => id) fun e _ => tally.accounts_of_prefix hfront) ?_
  exact fun b s' ⟨hs', hb⟩ => hf b hb s' _ hs' hmay

/-- Before anything comes, something that holds no more than before. -/
theorem Adds.idle_bind {x : Edit ε σ β} {f : β → Edit ε σ α} (hx : Adds tally x [] answer')
    (hf : ∀ b, answer' b → Adds tally (f b) more answer) : Adds tally (x >>= f) more answer :=
  hx.bind hf

theorem Adds.bind_idle {x : Edit ε σ β} {f : β → Edit ε σ α} (hx : Adds tally x more answer')
    (hf : ∀ b, answer' b → Adds tally (f b) [] answer) : Adds tally (x >>= f) more answer := by
  rw [← List.append_nil more]
  exact hx.bind hf

/-- The answer is of no use. -/
theorem Adds.discard {x : Edit ε σ β} (hx : Adds tally x more answer') :
    Adds tally (do let _ ← x) more fun _ => True :=
  hx.bind_idle fun _ _ => .pure trivial

/-- Any list may come about, and an edit may fail for any reason. -/
def Tally.any (Holds : σ → List ι → Prop) : Tally ε σ ι where
  Holds := Holds
  May _ := True
  Accounts _ _ := True
  may_of_prefix _ := id
  accounts_of_prefix _ := id

variable {inv : σ → List ι → Prop}

/-- Where the edit does not fail, what the state holds is followed by more, and the answer is as
told. -/
abbrev Appends (inv : σ → List ι → Prop) (edit : Edit ε σ α) (more : List ι)
    (answer : α → Prop) : Prop :=
  Adds (.any inv) edit more answer

theorem appends_iff {edit : Edit ε σ α} : Appends inv edit more answer ↔
    ∀ s held, inv s held → Yields edit s fun a s' => inv s' (held ++ more) ∧ answer a :=
  ⟨fun h s held hs => h s held hs trivial, fun h s held hs _ => h s held hs⟩

/-- Nothing comes where what is held is an invariant. -/
theorem appends_nil {edit : Edit ε σ α} :
    Appends inv edit [] answer ↔ ∀ held, Preserves (inv · held) answer edit := by
  simp only [appends_iff, List.append_nil]
  exact ⟨fun h held s => h s held, fun h s held => h held s⟩

theorem Appends.yields {edit : Edit ε σ α} (h : Appends inv edit more fun _ => True) {s : σ}
    {held : List ι} (hs : inv s held) : Yields edit s fun _ s' => inv s' (held ++ more) :=
  (appends_iff.1 h s held hs).imp fun _ _ => And.left

end Tallies

section State

variable {s : σ}

@[simp] theorem state_map (f : β → α) (x : Edit ε σ β) : state ((f <$> x) s) = state (x s) := by
  simp only [Functor.map, EStateM.map]
  cases x s <;> rfl

@[simp] theorem state_within {get : τ → σ} {set : σ → τ → τ} {edit : Edit ε σ α} {t : τ} :
    state (within get set edit t) = set (state (edit (get t))) t := by
  simp only [within]
  cases edit (get t) <;> rfl

/-- What comes after a step and changes nothing leaves the state to the step. -/
theorem state_bind_of_still {x : Edit ε σ β} {f : β → Edit ε σ α}
    (hf : ∀ b s, state (f b s) = s) : state ((x >>= f) s) = state (x s) := by
  simp only [bind, EStateM.bind]
  cases x s with
  | ok b s' => exact hf b s'
  | error e s' => rfl

end State

section Atomic

/-- An edit that changes nothing where it fails. -/
def Atomic (edit : Edit ε σ α) : Prop := ∀ s, Meets edit s (fun _ _ => True) (fun _ s' => s' = s)

theorem Meets.atomic {edit : Edit ε σ α} {post : σ → α → σ → Prop} {fail : σ → ε → Prop}
    (h : ∀ s, Meets edit s (post s) fun e s' => s' = s ∧ fail s e) : Atomic edit := fun s =>
  (h s).mono (fun _ _ _ => trivial) fun _ _ hfail => hfail.1

theorem Atomic.within {get : τ → σ} {set : σ → τ → τ} {edit : Edit ε σ α}
    (hset : ∀ t, set (get t) t = t) (hedit : Atomic edit) : Atomic (within get set edit) := fun t =>
  meets_within.2 ((hedit (get t)).mono (fun _ _ _ => trivial) fun _ _ heq => heq ▸ hset t)

/-- After a step that neither fails nor changes anything. -/
theorem Atomic.after {x : Edit ε σ β} {f : β → Edit ε σ α} {b : β} {s : σ}
    (hx : Meets x s (fun b' s' => b' = b ∧ s' = s) fun _ _ => False) (hf : Atomic (f b)) :
    Meets (x >>= f) s (fun _ _ => True) (fun _ s' => s' = s) := by
  refine (hx.mono (fun _ _ => id) fun _ _ => False.elim).bind ?_
  rintro _ _ ⟨rfl, rfl⟩
  exact hf _

end Atomic

section Replays

/-- Whatever an edit answers, another one answers too, and leaves the same state. -/
def Replays (edit again : Edit ε σ α) : Prop :=
  ∀ s a s', edit s = .ok a s' → again s = .ok a s'

theorem Replays.refl (edit : Edit ε σ α) : Replays edit edit := fun _ _ _ h => h

theorem Replays.bind {x x' : Edit ε σ β} {f f' : β → Edit ε σ α} (hx : Replays x x')
    (hf : ∀ b, Replays (f b) (f' b)) : Replays (x >>= f) (x' >>= f') := by
  intro s a s' h
  simp only [Bind.bind, EStateM.bind] at h ⊢
  cases hs : x s with
  | error e s₁ => rw [hs] at h; exact nomatch h
  | ok b s₁ =>
    rw [hs] at h
    rw [hx s b s₁ hs]
    exact hf b s₁ a s' h

end Replays

section Mirrors

variable {σ' τ' γ δ : Type} {f : σ → σ'} {g : α → β} {h : γ → δ}

/-- An outcome of states and answers as they look elsewhere. -/
def image (f : σ → σ') (g : α → β) : EStateM.Result ε σ α → EStateM.Result ε σ' β
  | .ok a s => .ok (g a) (f s)
  | .error e s => .error e (f s)

/-- What an edit does to a state, another one does to the image of the state. -/
def MirrorsBy (f : σ → σ') (g : α → β) (edit : Edit ε σ α) (mirror : Edit ε σ' β) : Prop :=
  ∀ s, mirror (f s) = image f g (edit s)

/-- With the same answers. -/
abbrev Mirrors (f : σ → σ') (edit : Edit ε σ α) (mirror : Edit ε σ' α) : Prop :=
  MirrorsBy f id edit mirror

theorem MirrorsBy.pure {a : α} {b : β} (hb : g a = b) :
    MirrorsBy f g (pure a : Edit ε σ α) (pure b) := by
  subst hb
  exact fun _ => rfl

theorem MirrorsBy.throw {e : ε} : MirrorsBy f g (throw e : Edit ε σ α) (throw e) := fun _ => rfl

theorem MirrorsBy.get : MirrorsBy f f (get : Edit ε σ σ) get := fun _ => rfl

theorem MirrorsBy.modify {change : σ → σ} {change' : σ' → σ'}
    (hchange : ∀ s, change' (f s) = f (change s)) :
    Mirrors f (modify change : Edit ε σ PUnit) (modify change') := fun s =>
  congrArg (EStateM.Result.ok PUnit.unit) (hchange s)

theorem MirrorsBy.refl (edit : Edit ε σ α) : Mirrors id edit edit := fun s => by
  change edit s = image id id (edit s)
  cases edit s <;> rfl

theorem MirrorsBy.bind {x : Edit ε σ α} {x' : Edit ε σ' β} {k : α → Edit ε σ γ}
    {k' : β → Edit ε σ' δ} (hx : MirrorsBy f g x x')
    (hk : ∀ a, MirrorsBy f h (k a) (k' (g a))) : MirrorsBy f h (x >>= k) (x' >>= k') := by
  intro s
  simp only [Bind.bind, EStateM.bind, hx s]
  cases x s with
  | ok a t => exact hk a t
  | error e t => rfl

theorem MirrorsBy.map {x : Edit ε σ α} {x' : Edit ε σ' β} {m : α → γ} {m' : β → δ}
    (hx : MirrorsBy f g x x') (hm : ∀ a, m' (g a) = h (m a)) :
    MirrorsBy f h (m <$> x) (m' <$> x') := by
  intro s
  simp only [Functor.map, EStateM.map, hx s]
  cases x s with
  | ok a t => exact congrArg (EStateM.Result.ok · _) (hm a)
  | error e t => rfl

theorem MirrorsBy.within {F : τ → τ'} {get : τ → σ} {set : σ → τ → τ} {get' : τ' → σ'}
    {set' : σ' → τ' → τ'} {x : Edit ε σ α} {x' : Edit ε σ' β} (hx : MirrorsBy f g x x')
    (hget : ∀ t, get' (F t) = f (get t)) (hset : ∀ s t, set' (f s) (F t) = F (set s t)) :
    MirrorsBy F g (within get set x) (within get' set' x') := by
  intro t
  simp only [Edit.within, hget, hx (get t)]
  cases x (get t) with
  | ok a s => exact congrArg (EStateM.Result.ok _) (hset s t)
  | error e s => exact congrArg (EStateM.Result.error e) (hset s t)

theorem MirrorsBy.forM {xs : List β} {k : β → Edit ε σ PUnit} {k' : β → Edit ε σ' PUnit}
    (hk : ∀ x, Mirrors f (k x) (k' x)) : Mirrors f (xs.forM k) (xs.forM k') := by
  induction xs with
  | nil => exact .pure rfl
  | cons x xs ih => exact (hk x).bind fun _ => ih

end Mirrors

end GuestCompiler.Edit
