import GuestCompiler.Json.Codec
import GuestCompiler.Proofs.Identities

/-!
# What a codec restores

A codec restores a value when it reads it back from what it writes of it, and what it writes is
sound (`Codec.Restores`). A record is restored member by member: each member copies its part from
the written record to the one that is read, and a member that is left out finds the part unset
already (`Member.CopiedBy`). An array of values is the record whose members have them in order.
-/
namespace GuestCompiler

theorem NameMap.place_of_forall_lt {α : Type} {es : List (String × α)} {name : String} (a : α)
    (h : ∀ e ∈ es, e.1 < name) : place name a es = es ++ [(name, a)] := by
  induction es with
  | nil => rfl
  | cons e es ih =>
    obtain ⟨he, hes⟩ := List.forall_mem_cons.1 h
    have hnlt : ¬ name < e.1 := String.lt_asymm he
    have hne : name ≠ e.1 := fun heq => String.lt_irrefl e.1 (heq ▸ he)
    rw [place, if_neg hnlt, if_neg hne, ih hes, List.cons_append]

theorem NameMap.eq_empty_of_isEmpty {α : Type} {m : NameMap α} (h : m.isEmpty = true) :
    m = ∅ := by
  obtain ⟨es, hes⟩ := m
  cases es with
  | nil => rfl
  | cons e es => cases h

namespace Json

theorem Number.isFinite_ofNat {n : Nat} (h : n < 9007199254740992) : (ofNat n).isFinite = true := by
  have hone : Double.nearest (Nat.pow 10 (0 : Int).toNat) = 1 := Double.nearest_of_lt (by decide)
  have hbound : 9007199254740992 ≤ Double.bound := by decide +kernel
  simp only [isFinite, ofNat, Double.nearest_of_lt h, hone]
  simp [maxExponent]
  omega

namespace Value

variable {depth : Nat}

theorem isSound_ofString (s : String) : (ofString s).isSound depth = true := by
  simp [ofString, isSound]

theorem isSound_ofNat {n : Nat} (h : n < 9007199254740992) : (ofNat n).isSound depth = true := by
  simpa [ofNat, isSound] using Number.isFinite_ofNat h

theorem areSound_iff {vs : List Value} :
    areSound depth vs = true ↔ ∀ v ∈ vs, v.isSound depth = true := by
  induction vs with
  | nil => simp [areSound]
  | cons v vs ih => simp [areSound, ih]

theorem entriesAreSound_iff {es : List (String × Value)} :
    entriesAreSound depth (es.map fun e => (some e.1, e.2)) = true ↔
      ∀ e ∈ es, e.2.isSound depth = true := by
  induction es with
  | nil => simp [entriesAreSound]
  | cons e es ih => simp [entriesAreSound, ih]

theorem isSound_array {vs : List Value} (h : ∀ v ∈ vs, v.isSound depth = true) :
    (array vs).isSound (depth + 1) = true := by
  rw [isSound, areSound_iff]
  exact h

theorem isSound_ofEntries {es : List (String × Value)} (h : ∀ e ∈ es, e.2.isSound depth = true) :
    (ofEntries es).isSound (depth + 1) = true := by
  rw [ofEntries, isSound, entriesAreSound_iff]
  exact h

end Value

namespace Codec

variable {α : Type}

/-- A value is read back from what is written of it, and that is sound to some depth. -/
structure Restores (c : Codec α) (depth : Nat) (a : α) : Prop where
  decode : c.decode (c.encode a) = .ok a
  sound : (c.encode a).isSound depth = true

variable {c : Codec α} {depth : Nat}

theorem restores_string (s : String) : string.Restores depth s :=
  ⟨rfl, Value.isSound_ofString s⟩

theorem restores_bool (b : Bool) : bool.Restores depth b := ⟨rfl, by simp [bool, Value.isSound]⟩

theorem restores_path (p : Path) : path.Restores depth p := ⟨rfl, Value.isSound_ofString p.text⟩

theorem decodeNat_ofNat {limit n : Nat} (h : n < limit) :
    decodeNat limit (.ofNat n) = .ok n := by
  simp [decodeNat, Value.ofNat, Number.ofNat, Number.toNat?, h]

theorem restores_uint16 (n : UInt16) : uint16.Restores depth n where
  decode := by
    simp only [uint16, decodeNat_ofNat n.toNat_lt_size, Except.map, UInt16.ofNat_toNat]
  sound := Value.isSound_ofNat (Nat.lt_trans n.toNat_lt (by decide))

theorem restores_uint32 (n : UInt32) : uint32.Restores depth n where
  decode := by
    simp only [uint32, decodeNat_ofNat n.toNat_lt_size, Except.map, UInt32.ofNat_toNat]
  sound := Value.isSound_ofNat (Nat.lt_trans n.toNat_lt (by decide))

section Texts

variable {parse : String → Except RecordFault α} {print : α → String} {a : α}

/-- A text that is not empty is not absent. -/
theorem restores_absentWhenEmpty (hparse : parse (print a) = .ok a) (hne : print a ≠ "") :
    (ofText parse print).absentWhenEmpty.Restores depth (some a) where
  decode := by
    have hdecode : (ofText parse print).decode (.ofString (print a)) = .ok a := hparse
    change (ofText parse print).absentWhenEmpty.decode (.ofString (print a)) = _
    simp only [absentWhenEmpty]
    split
    · rename_i hnull
      cases hnull
    · rename_i hempty
      exact absurd (Option.some.inj (Value.text.inj hempty)) hne
    · rw [hdecode]
      rfl
  sound := Value.isSound_ofString (print a)

end Texts

theorem restores_list {as : List α} (h : ∀ a ∈ as, c.Restores depth a) :
    c.list.Restores (depth + 1) as where
  decode := Edit.exceptMapM_eq_ok.2 <| List.forall₂_map_left_iff.2 <|
    List.forall₂_same.2 fun a ha => (h a ha).decode
  sound := Value.isSound_array <| List.forall_mem_map.2 fun a ha => (h a ha).sound

theorem decodeEntries_encode {es : List (String × α)} (hes : ∀ e ∈ es, c.Restores depth e.2)
    (m : NameMap α) (h : (m.entries ++ es).Pairwise fun a b => a.1 < b.1) :
    decodeEntries c (es.map fun e => (some e.1, c.encode e.2)) m = .ok ⟨m.entries ++ es, h⟩ := by
  induction es generalizing m with
  | nil => simp [decodeEntries]
  | cons e es ih =>
    obtain ⟨he, hrest⟩ := List.forall_mem_cons.1 hes
    -- The entries come in order, so each is put behind those that are there.
    have hplace : (m.insert e.1 e.2).entries = m.entries ++ [e] :=
      NameMap.place_of_forall_lt e.2 fun e' he' =>
        (List.pairwise_append.1 h).2.2 e' he' e List.mem_cons_self
    have hnext : ((m.insert e.1 e.2).entries ++ es).Pairwise fun a b => a.1 < b.1 := by
      rw [hplace, List.append_assoc]
      exact h
    rw [List.map_cons, decodeEntries, he.decode]
    change decodeEntries c _ (m.insert e.1 e.2) = _
    rw [ih hrest _ hnext]
    simp [hplace]

theorem restores_nameMap {m : NameMap α} (h : ∀ a ∈ m.values, c.Restores depth a) :
    c.nameMap.Restores (depth + 1) m where
  decode := by
    have hall : ∀ e ∈ m.entries, c.Restores depth e.2 := List.forall_mem_map.1 h
    have hentries := decodeEntries_encode hall ∅ m.ascending
    change decodeEntries c ((m.entries.map fun e => (e.1, c.encode e.2)).map
      fun e => (some e.1, e.2)) ∅ = _
    rw [List.map_map]
    exact hentries
  sound := by
    refine Value.isSound_ofEntries <| List.forall_mem_map.2 fun e he => ?_
    exact (List.forall_mem_map.1 h e he).sound

end Codec

namespace Member

variable {α β : Type} {m : Member α} {depth : Nat} {a b : α}

/-- What a member writes of `a`, read into `b`, makes it `c`; where it writes nothing, it is that
already. -/
def Copies (m : Member α) (depth : Nat) (a b c : α) : Prop :=
  match m.write a with
  | none => b = c
  | some v => m.read v b = .ok c ∧ v.isSound depth = true

namespace Copies

theorem eq_of_none {c : α} (h : m.Copies depth a b c) (hwrite : m.write a = none) : b = c := by
  rwa [Copies, hwrite] at h

theorem of_some {c : α} {v : Value} (h : m.Copies depth a b c) (hwrite : m.write a = some v) :
    m.read v b = .ok c ∧ v.isSound depth = true := by
  rwa [Copies, hwrite] at h

variable {name : String} {codec : Codec β} {set : β → α → α}

theorem always {get : α → β} (h : codec.Restores depth (get a)) :
    (always name codec get set).Copies depth a b (set (get a) b) := by
  refine ⟨?_, h.sound⟩
  simp only [Member.always, h.decode]
  rfl

theorem optional {isUnset : β → Bool} {get : α → β} {unset : β} (hset : set unset b = b)
    (hunset : isUnset (get a) = true → get a = unset)
    (h : isUnset (get a) = false → codec.Restores depth (get a)) :
    (optional name codec isUnset get set).Copies depth a b (set (get a) b) := by
  rw [Copies, Member.optional]
  cases hcase : isUnset (get a) with
  | true =>
    simp only [hcase, if_true]
    rw [hunset hcase, hset]
  | false =>
    have hcodec := h hcase
    simp only [hcase, Bool.false_eq_true, if_false, hcodec.decode]
    exact ⟨rfl, hcodec.sound⟩

section Fields

theorem string {get : α → String} {set : String → α → α} (hset : set "" b = b) :
    (string name get set).Copies depth a b (set (get a) b) :=
  optional hset (fun h => by simpa using h) fun _ => Codec.restores_string _

theorem flag {get : α → Bool} {set : Bool → α → α} (hset : set false b = b) :
    (flag name get set).Copies depth a b (set (get a) b) :=
  optional hset (fun h => by simpa using h) fun _ => Codec.restores_bool _

theorem uint16 {get : α → UInt16} {set : UInt16 → α → α} (hset : set 0 b = b) :
    (uint16 name get set).Copies depth a b (set (get a) b) :=
  optional hset (fun h => by simpa using h) fun _ => Codec.restores_uint16 _

theorem uint32 {get : α → UInt32} {set : UInt32 → α → α} (hset : set 0 b = b) :
    (uint32 name get set).Copies depth a b (set (get a) b) :=
  optional hset (fun h => by simpa using h) fun _ => Codec.restores_uint32 _

theorem option {get : α → Option β} {set : Option β → α → α} (hset : set none b = b)
    (h : ∀ x, get a = some x → codec.absentWhenEmpty.Restores depth (some x)) :
    (option name codec get set).Copies depth a b (set (get a) b) := by
  refine optional hset (fun hnone => by simpa using hnone) fun hsome => ?_
  obtain ⟨x, hx⟩ := Option.isSome_iff_exists.1 (by simpa using hsome)
  rw [hx]
  exact h x hx

theorem list {get : α → List β} {set : List β → α → α} (hset : set [] b = b)
    (h : ∀ x ∈ get a, codec.Restores depth x) :
    (list name codec get set).Copies (depth + 1) a b (set (get a) b) :=
  optional hset (fun hnil => by simpa using hnil) fun _ => Codec.restores_list h

theorem nameMap {get : α → NameMap β} {set : NameMap β → α → α} (hset : set ∅ b = b)
    (h : ∀ x ∈ (get a).values, codec.Restores depth x) :
    (nameMap name codec get set).Copies (depth + 1) a b (set (get a) b) :=
  optional hset NameMap.eq_empty_of_isEmpty fun _ => Codec.restores_nameMap h

end Fields

end Copies

/-- Members one after the other copy their parts of `a`, from `b` on until it is `c`. -/
inductive CopiedBy (depth : Nat) (a : α) : List (Member α) → α → α → Prop
  | nil {b : α} : CopiedBy depth a [] b b
  | cons {m : Member α} {ms : List (Member α)} {b c d : α} :
      m.Copies depth a b c → CopiedBy depth a ms c d → CopiedBy depth a (m :: ms) b d

section Records

variable {members ms : List (Member α)} {c : α}

theorem mem_writeAll {e : String × Value} (he : e ∈ writeAll members a) :
    ∃ m ∈ members, m.write a = some e.2 ∧ m.name = e.1 := by
  obtain ⟨m, hm, hwrite⟩ := List.mem_filterMap.1 he
  obtain ⟨v, hv, rfl⟩ := Option.map_eq_some_iff.1 hwrite
  exact ⟨m, hm, hv, rfl⟩

/-- What members write, as the entries of a text. -/
def written (ms : List (Member α)) (a : α) : List (Option String × Value) :=
  (writeAll ms a).map fun e => (some e.1, e.2)

theorem written_of_none (h : m.write a = none) : written (m :: ms) a = written ms a := by
  rw [written, writeAll, List.filterMap_cons_none (by rw [h]; rfl)]
  rfl

theorem written_of_some {v : Value} (h : m.write a = some v) :
    written (m :: ms) a = (some m.name, v) :: written ms a := by
  rw [written, writeAll, List.filterMap_cons_some (by rw [h]; rfl)]
  rfl

theorem CopiedBy.sound (h : CopiedBy depth a ms b c) :
    ∀ e ∈ writeAll ms a, e.2.isSound depth = true := by
  intro e he
  obtain ⟨m, hm, hwrite, -⟩ := mem_writeAll he
  clear he
  induction h with
  | nil => cases hm
  | cons hfirst _ ih =>
    rcases List.mem_cons.1 hm with rfl | hm
    · exact (hfirst.of_some hwrite).2
    · exact ih hm

/-- Some members at the end of all of them are still to be read. -/
structure Unread (members ms : List (Member α)) (seen : List String) : Prop where
  nodup : (members.map name).Nodup
  suffix : ms <:+ members
  fresh : ∀ m ∈ ms, m.name ∉ seen

variable {seen : List String}

theorem Unread.find? (h : Unread members (m :: ms) seen) :
    members.find? (·.name == m.name) = some m :=
  find?_of_mem_of_nodup h.nodup (h.suffix.subset List.mem_cons_self)

theorem Unread.skip (h : Unread members (m :: ms) seen) : Unread members ms seen :=
  ⟨h.nodup, (List.suffix_cons m ms).trans h.suffix, fun m' hm' => h.fresh m' (.tail m hm')⟩

theorem Unread.next (h : Unread members (m :: ms) seen) : Unread members ms (m.name :: seen) where
  nodup := h.nodup
  suffix := h.skip.suffix
  fresh m' hm' hmem := by
    have hnames : ((m :: ms).map name).Nodup := h.nodup.sublist (h.suffix.sublist.map name)
    rcases List.mem_cons.1 hmem with hname | hseen
    · exact (List.nodup_cons.1 hnames).1 (hname ▸ List.mem_map_of_mem hm')
    · exact h.skip.fresh m' hm' hseen

/-- What the members that are left write is read back by all of them. -/
theorem CopiedBy.readAll (h : CopiedBy depth a ms b c) (hms : Unread members ms seen) :
    readAll members seen (written ms a) b = .ok c := by
  induction h generalizing seen with
  | nil => rfl
  | @cons m _ _ _ _ hfirst _ ih =>
    cases hwrite : m.write a with
    | none =>
      rw [written_of_none hwrite, hfirst.eq_of_none hwrite]
      exact ih hms.skip
    | some v =>
      have hfresh : m.name ∉ seen := hms.fresh m List.mem_cons_self
      simp only [written_of_some hwrite, Member.readAll, hms.find?, if_neg hfresh,
        (hfirst.of_some hwrite).1]
      exact ih hms.next

/-- What the members that are left write is read back, and what comes behind it is read then. -/
theorem CopiedBy.readOwn (h : CopiedBy depth a ms b c) (hms : Unread members ms seen)
    {limit : Nat} {rest : List (Option String × Value)} {r : α × List (Option String × Value)}
    (hrest : ∀ seen, readOwn members limit seen rest c = .ok r) :
    readOwn members limit seen (written ms a ++ rest) b = .ok r := by
  induction h generalizing seen with
  | nil => exact hrest seen
  | @cons m _ _ _ _ hfirst _ ih =>
    cases hwrite : m.write a with
    | none =>
      rw [written_of_none hwrite, hfirst.eq_of_none hwrite]
      exact ih hms.skip hrest
    | some v =>
      have hfresh : m.name ∉ seen := hms.fresh m List.mem_cons_self
      simp only [written_of_some hwrite, List.cons_append, Member.readOwn, hms.find?,
        if_neg hfresh, (hfirst.of_some hwrite).1]
      exact ih hms.next hrest

/-- Values for members in order are read as entries under the names of those members. -/
theorem readInOrder_eq_readAll {vs : List Value} (hms : Unread members ms seen)
    (hlen : vs.length ≤ ms.length) (a : α) : readInOrder ms vs a =
      readAll members seen (((ms.map name).zip vs).map fun e => (some e.1, e.2)) a := by
  induction ms generalizing vs seen a with
  | nil =>
    obtain rfl := List.eq_nil_of_length_eq_zero (Nat.le_zero.1 hlen)
    rfl
  | cons m ms ih =>
    cases vs with
    | nil => rfl
    | cons v vs =>
      have hfresh : m.name ∉ seen := hms.fresh m List.mem_cons_self
      simp only [readInOrder, List.map_cons, List.zip_cons_cons, readAll, hms.find?, if_neg hfresh]
      cases m.read v a with
      | error e => rfl
      | ok b => exact ih hms.next (Nat.le_of_succ_le_succ hlen) b

theorem length_le_of_readInOrder {vs : List Value} (h : readInOrder ms vs a = .ok b) :
    vs.length ≤ ms.length := by
  induction ms generalizing vs a with
  | nil =>
    cases vs with
    | nil => exact Nat.le_refl _
    | cons v vs => cases h
  | cons m ms ih =>
    cases vs with
    | nil => exact Nat.zero_le _
    | cons v vs =>
      obtain ⟨c, -, hrest⟩ := Edit.exceptBind_eq_ok.1 h
      exact Nat.succ_le_succ (ih hrest)

/-- Entries under other names are kept as they are. -/
theorem readOwn_foreign {es : List (String × Value)} {limit : Nat}
    (hnames : ∀ e ∈ es, e.1 ∉ members.map name) (hsound : ∀ e ∈ es, e.2.isSound limit = true)
    (seen : List String) (a : α) :
    readOwn members limit seen (es.map fun e => (some e.1, e.2)) a =
      .ok (a, es.map fun e => (some e.1, e.2)) := by
  induction es with
  | nil => rfl
  | cons e es ih =>
    obtain ⟨hname, hrestNames⟩ := List.forall_mem_cons.1 hnames
    obtain ⟨hvalue, hrestSound⟩ := List.forall_mem_cons.1 hsound
    have hnone : members.find? (·.name == e.1) = none := by
      rw [List.find?_eq_none]
      intro m hm hfound
      exact hname (List.mem_map.2 ⟨m, hm, by simpa using hfound⟩)
    simp only [List.map_cons, readOwn, hnone, hvalue, if_true, ih hrestNames hrestSound]
    rfl

end Records

end Member

namespace Codec

variable {α β : Type} {depth : Nat} {a : α}

theorem restores_record {unset : α} {members : List (Member α)}
    (hnames : (members.map Member.name).Nodup) (h : Member.CopiedBy depth a members unset a) :
    (record unset members).Restores (depth + 1) a where
  decode := h.readAll ⟨hnames, List.suffix_rfl, fun _ _ => List.not_mem_nil⟩
  sound := Value.isSound_ofEntries h.sound

/-- An array stands for the record whose members have its values in order. -/
theorem decode_array {unset : α} {members : List (Member α)} {vs : List Value}
    (hnames : (members.map Member.name).Nodup) (hlen : vs.length ≤ members.length) :
    (record unset members).decode (.array vs) =
      (record unset members).decode (.ofEntries ((members.map Member.name).zip vs)) :=
  Member.readInOrder_eq_readAll ⟨hnames, List.suffix_rfl, fun _ _ => List.not_mem_nil⟩ hlen unset

/-- No record is read from more values than it has members. -/
theorem length_le_of_decode_array {unset : α} {members : List (Member α)} {vs : List Value}
    (h : (record unset members).decode (.array vs) = .ok a) : vs.length ≤ members.length :=
  Member.length_le_of_readInOrder h

/-- A record is read back with the one that it holds, which has to be sound to the depth that is
left to it, if no two members have one name. -/
theorem decode_flattened {unset b : α} {own : List (Member α)} {inner : β}
    {members : List (Member β)} {get : α → β} {set : β → α → α}
    (hnames : (own.map Member.name ++ members.map Member.name).Nodup)
    (hown : Member.CopiedBy depth a own unset b)
    (hinner : Member.CopiedBy (maxDepth - 1) (get a) members inner (get a))
    (hset : set (get a) b = a) : (flattened unset own inner members get set).decode
      ((flattened unset own inner members get set).encode a) = .ok a := by
  obtain ⟨hownNames, hinnerNames, hdisjoint⟩ := List.nodup_append.1 hnames
  have hforeign : ∀ e ∈ Member.writeAll members (get a), e.1 ∉ own.map Member.name := by
    intro e he hname
    obtain ⟨m, hm, -, hmname⟩ := Member.mem_writeAll he
    exact hdisjoint _ hname _ (List.mem_map_of_mem hm) hmname.symm
  have hread := hown.readOwn ⟨hownNames, List.suffix_rfl, fun _ _ => List.not_mem_nil⟩
    (Member.readOwn_foreign hforeign hinner.sound · b)
  have hreadInner := hinner.readAll ⟨hinnerNames, List.suffix_rfl, fun _ _ => List.not_mem_nil⟩
  rw [Member.written, ← List.map_append] at hread
  simp only [flattened, Value.ofEntries, hread]
  change (Member.readAll members [] _ inner >>= fun b' => pure (set b' b)) = _
  rw [Member.written] at hreadInner
  rw [hreadInner]
  exact congrArg Except.ok hset

end Codec

end Json

end GuestCompiler
