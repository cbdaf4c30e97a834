import GuestCompiler.Proofs.Directories
import GuestCompiler.Proofs.Edit
import GuestCompiler.Proofs.NameMaps

/-!
# Where a catalog comes from

A catalog is read from the records of a configuration directory: the main file, and then the
fragments by their stems. `Records.Load` says what that comes to, without an order in which anything
is listed: the first record that cannot be decoded is the error, and where all can be, each name has
the entry of the first record that has one. `HostFiles.loadCatalog_layered` is the law.
-/
namespace GuestCompiler

/-- A record that a catalog is read from. -/
inductive Source
  | main
  | fragment (stem : String)
  deriving DecidableEq

namespace Source

/-- The main file comes before the fragments, and these go by their stems. -/
def Before : Source → Source → Prop
  | main, fragment _ => True
  | fragment a, fragment b => a < b
  | _, main => False

/-- The names that lead to a record from the configuration directory. -/
def names : Source → List String
  | main => ["qforge.conf.json"]
  | fragment stem => ["system.conf.d", stem ++ ".conf.json"]

def path (l : Locations) : Source → Path
  | main => l.systemFile
  | fragment stem => l.systemDir.join (stem ++ Locations.recordSuffix)

/-- A source of which something holds that holds of none before it. -/
def First (P : Source → Prop) (s : Source) : Prop := P s ∧ ∀ t, t.Before s → ¬ P t

section Order

theorem Before.asymm {s t : Source} (h : s.Before t) : ¬ t.Before s := by
  cases s with
  | main =>
    cases t with
    | main => exact fun _ => h
    | fragment b => exact id
  | fragment a =>
    cases t with
    | main => exact fun _ => h
    | fragment b => exact String.lt_asymm h

variable {ss front back : List Source} {s : Source} (hss : ss.Pairwise Before)
include hss

/-- In front of a source are those that come before it. -/
theorem mem_front_iff (hsplit : ss = front ++ s :: back) {t : Source} :
    t ∈ front ↔ t ∈ ss ∧ t.Before s := by
  subst hsplit
  obtain ⟨-, htail, hcross⟩ := List.pairwise_append.1 hss
  constructor
  · exact fun ht => ⟨List.mem_append_left _ ht, hcross t ht s List.mem_cons_self⟩
  · rintro ⟨ht, hbefore⟩
    rcases List.mem_append.1 ht with hfront | hrest
    · exact hfront
    · rcases List.mem_cons.1 hrest with rfl | hback
      · exact absurd hbefore hbefore.asymm
      · exact absurd ((List.pairwise_cons.1 htail).1 t hback) hbefore.asymm

theorem first_iff {P : Source → Prop} (hP : ∀ t, P t → t ∈ ss) : First P s ↔
    ∃ front back, ss = front ++ s :: back ∧ P s ∧ ∀ t ∈ front, ¬ P t := by
  constructor
  · rintro ⟨hs, hbefore⟩
    obtain ⟨front, back, hsplit⟩ := List.append_of_mem (hP s hs)
    exact ⟨front, back, hsplit, hs, fun t ht => hbefore t ((mem_front_iff hss hsplit).1 ht).2⟩
  · rintro ⟨front, back, hsplit, hs, hfront⟩
    refine ⟨hs, fun t ht hPt => ?_⟩
    exact hfront t ((mem_front_iff hss hsplit).2 ⟨hP t hPt, ht⟩) hPt

end Order

end Source

open Edit Source

/-- What is in each of the records that are there. -/
abbrev Records := Source → Option (List UInt8)

namespace Records

variable (records : Records)

def Undecodable (s : Source) : Prop :=
  ∃ bytes fault, records s = some bytes ∧
    Catalog.codec.decodeDocument (.ofBytes bytes) = .error fault

def Holds (s : Source) (c : Catalog) : Prop :=
  ∃ bytes, records s = some bytes ∧ Catalog.codec.decodeDocument (.ofBytes bytes) = .ok c

/-- The first record that has an entry of a name, in one of a catalog's maps, has this one. -/
def Settles {α : Type} (map : Catalog → NameMap α) (name : String) (a : α) : Prop :=
  ∃ s, First (fun t => ∃ c b, records.Holds t c ∧ (map c).get? name = some b) s ∧
    ∃ c, records.Holds s c ∧ (map c).get? name = some a

/-- A catalog whose entries are those of the first record that has one of the name. -/
structure Layered (c : Catalog) : Prop where
  pools : ∀ name a, c.pools.get? name = some a ↔ records.Settles Catalog.pools name a
  networks : ∀ name a, c.networks.get? name = some a ↔ records.Settles Catalog.networks name a
  mediatedDevices : ∀ name a,
    c.mediatedDevices.get? name = some a ↔ records.Settles Catalog.mediatedDevices name a
  processors : ∀ name a,
    c.processors.get? name = some a ↔ records.Settles Catalog.processors name a
  tags : ∀ name a, c.tags.get? name = some a ↔ records.Settles Catalog.tags name a

/-- What a catalog is read as: the error is that of the first record that cannot be decoded. -/
structure Load (l : Locations) (result : Except Error Catalog) : Prop where
  error : ∀ e, result = .error e ↔
    ∃ s, First records.Undecodable s ∧ e = .config (.undecodable (s.path l).text)
  ok : ∀ c, result = .ok c ↔ (∀ s, ¬ records.Undecodable s) ∧ records.Layered c

variable {records} {l : Locations}

theorem Layered.unique {c d : Catalog} (hc : records.Layered c) (hd : records.Layered d) :
    c = d := by
  have hmap {α : Type} {m n : NameMap α} {P : String → α → Prop}
      (hm : ∀ name a, m.get? name = some a ↔ P name a)
      (hn : ∀ name a, n.get? name = some a ↔ P name a) : m = n :=
    NameMap.ext_of_get? fun name => Option.ext fun a => (hm name a).trans (hn name a).symm
  obtain ⟨cpools, cnetworks, cdevices, cprocessors, ctags⟩ := c
  obtain ⟨dpools, dnetworks, ddevices, dprocessors, dtags⟩ := d
  congr
  · exact hmap hc.pools hd.pools
  · exact hmap hc.networks hd.networks
  · exact hmap hc.mediatedDevices hd.mediatedDevices
  · exact hmap hc.processors hd.processors
  · exact hmap hc.tags hd.tags

/-- Records are read as one result only. -/
theorem Load.unique {result result' : Except Error Catalog} (h : records.Load l result)
    (h' : records.Load l result') : result = result' := by
  cases hresult : result with
  | error e => exact ((h'.error e).2 ((h.error e).1 hresult)).symm
  | ok c => exact ((h'.ok c).2 ((h.ok c).1 hresult)).symm

end Records

namespace Catalog

/-- A map that is empty in an empty catalog and that other catalogs only fill in. -/
structure Fills {α : Type} (map : Catalog → NameMap α) : Prop where
  empty : map {} = ∅
  absorb : ∀ c d, map (c.absorb d) = (map c).fill (map d)

theorem empty_absorb (c : Catalog) : ({} : Catalog).absorb c = c := by
  have hfill {α : Type} (m : NameMap α) : (∅ : NameMap α).fill m = m :=
    NameMap.ext_of_get? fun name => by rw [NameMap.get?_fill, NameMap.get?_empty, Option.none_or]
  simp only [absorb, hfill]

/-- Read records one after the other, each laid under what has been read before. -/
def readAll (read : Source → Except Error Catalog) : Catalog → List Source → Except Error Catalog
  | c, [] => .ok c
  | c, s :: rest => do readAll read (c.absorb (← read s)) rest

variable {read : Source → Except Error Catalog} {ss : List Source} {c : Catalog}

theorem readAll_eq_error {e : Error} : readAll read c ss = .error e ↔
    ∃ front s back, ss = front ++ s :: back ∧ read s = .error e ∧
      ∀ t ∈ front, ∃ d, read t = .ok d := by
  induction ss generalizing c with
  | nil => simp [readAll]
  | cons s rest ih =>
    rw [readAll, exceptBind_eq_error]
    constructor
    · rintro (hs | ⟨d, hs, hrest⟩)
      · exact ⟨[], s, rest, rfl, hs, by simp⟩
      · obtain ⟨front, t, back, rfl, ht, hfront⟩ := ih.1 hrest
        exact ⟨s :: front, t, back, rfl, ht, List.forall_mem_cons.2 ⟨⟨d, hs⟩, hfront⟩⟩
    · rintro ⟨front, t, back, hsplit, ht, hfront⟩
      cases front with
      | nil =>
        obtain ⟨rfl, -⟩ := List.cons.inj hsplit
        exact .inl ht
      | cons u front =>
        obtain ⟨rfl, rfl⟩ := List.cons.inj hsplit
        obtain ⟨⟨d, hu⟩, hrest⟩ := List.forall_mem_cons.1 hfront
        exact .inr ⟨d, hu, ih.2 ⟨front, t, back, rfl, ht, hrest⟩⟩

theorem exists_of_readAll {d : Catalog} (h : readAll read c ss = .ok d) :
    ∀ s ∈ ss, ∃ e, read s = .ok e := by
  induction ss generalizing c with
  | nil => simp
  | cons s rest ih =>
    rw [readAll, exceptBind_eq_ok] at h
    obtain ⟨e, hs, hrest⟩ := h
    exact List.forall_mem_cons.2 ⟨⟨e, hs⟩, ih hrest⟩

/-- What is found after reading was found before, or else in the first record that has it. -/
theorem get?_readAll {α : Type} {map : Catalog → NameMap α} (hmap : Fills map) (name : String)
    {d : Catalog} (h : readAll read c ss = .ok d) : (map d).get? name =
      ((map c).get? name).or
        (ss.findSome? fun s => (read s).toOption.bind fun e => (map e).get? name) := by
  induction ss generalizing c with
  | nil =>
    obtain rfl : c = d := Except.ok.inj h
    simp
  | cons s rest ih =>
    rw [readAll, exceptBind_eq_ok] at h
    obtain ⟨e, hs, hrest⟩ := h
    have hhead : ((read s).toOption.bind fun e => (map e).get? name) = (map e).get? name := by
      rw [hs]
      rfl
    rw [ih hrest, hmap.absorb, NameMap.get?_fill, Option.or_assoc, List.findSome?_cons, hhead]
    cases (map e).get? name <;> rfl

end Catalog

namespace Records

open Catalog

/-- Records that are read from a list of sources. -/
structure ReadBy (records : Records) (l : Locations) (read : Source → Except Error Catalog)
    (ss : List Source) : Prop where
  ordered : ss.Pairwise Before
  mem : ∀ s, s ∈ ss ↔ (records s).isSome
  reads : ∀ s bytes, records s = some bytes → read s =
    (Catalog.codec.decodeDocument (.ofBytes bytes)).mapError fun _ =>
      .config (.undecodable (s.path l).text)

namespace ReadBy

variable {records : Records} {l : Locations} {read : Source → Except Error Catalog}
  {ss : List Source} {s : Source} (h : records.ReadBy l read ss)
include h

theorem mem_of_some {bytes : List UInt8} (hbytes : records s = some bytes) : s ∈ ss := by
  rw [h.mem, hbytes]
  rfl

theorem mem_of_undecodable (hs : records.Undecodable s) : s ∈ ss := by
  obtain ⟨bytes, fault, hbytes, -⟩ := hs
  exact h.mem_of_some hbytes

theorem mem_of_holds {c : Catalog} (hs : records.Holds s c) : s ∈ ss := by
  obtain ⟨bytes, hbytes, -⟩ := hs
  exact h.mem_of_some hbytes

theorem read_eq_ok (hs : s ∈ ss) {c : Catalog} : read s = .ok c ↔ records.Holds s c := by
  obtain ⟨bytes, hbytes⟩ := Option.isSome_iff_exists.1 ((h.mem s).1 hs)
  rw [h.reads s bytes hbytes, Holds, hbytes]
  cases hdecode : Catalog.codec.decodeDocument (.ofBytes bytes) with
  | error fault => simp [Except.mapError, hdecode]
  | ok d => simp [Except.mapError, hdecode]

theorem read_eq_error (hs : s ∈ ss) {e : Error} : read s = .error e ↔
    records.Undecodable s ∧ e = .config (.undecodable (s.path l).text) := by
  obtain ⟨bytes, hbytes⟩ := Option.isSome_iff_exists.1 ((h.mem s).1 hs)
  rw [h.reads s bytes hbytes, Undecodable, hbytes]
  cases hdecode : Catalog.codec.decodeDocument (.ofBytes bytes) with
  | error fault => simp [Except.mapError, hdecode, eq_comm]
  | ok d => simp [Except.mapError, hdecode]

theorem exists_read_iff (hs : s ∈ ss) : (∃ c, read s = .ok c) ↔ ¬ records.Undecodable s := by
  cases hread : read s with
  | error e => simp [((h.read_eq_error hs).1 hread).1]
  | ok c =>
    have hnot : ¬ records.Undecodable s := fun hbad => by
      rw [(h.read_eq_error hs).2 ⟨hbad, rfl⟩] at hread
      cases hread
    simp [hnot]

theorem readAll_eq_error {c : Catalog} {e : Error} : readAll read c ss = .error e ↔
    ∃ s, First records.Undecodable s ∧ e = .config (.undecodable (s.path l).text) := by
  rw [Catalog.readAll_eq_error]
  constructor
  · rintro ⟨front, s, back, hsplit, hs, hfront⟩
    have hmem : s ∈ ss := by simp [hsplit]
    obtain ⟨hbad, he⟩ := (h.read_eq_error hmem).1 hs
    refine ⟨s, (first_iff h.ordered fun t ht => h.mem_of_undecodable ht).2 ?_, he⟩
    refine ⟨front, back, hsplit, hbad, fun t ht => (h.exists_read_iff ?_).1 (hfront t ht)⟩
    simp [hsplit, ht]
  · rintro ⟨s, hfirst, rfl⟩
    obtain ⟨front, back, hsplit, hbad, hfront⟩ :=
      (first_iff h.ordered fun t ht => h.mem_of_undecodable ht).1 hfirst
    have hmem : s ∈ ss := by simp [hsplit]
    refine ⟨front, s, back, hsplit, (h.read_eq_error hmem).2 ⟨hbad, rfl⟩, fun t ht => ?_⟩
    refine (h.exists_read_iff ?_).2 (hfront t ht)
    simp [hsplit, ht]

/-- What is found in the catalog that is read is what the records settle. -/
theorem get?_eq_some_iff {α : Type} {map : Catalog → NameMap α} (hmap : Fills map) {c : Catalog}
    (hc : readAll read {} ss = .ok c) (name : String) (a : α) :
    (map c).get? name = some a ↔ records.Settles map name a := by
  have hbind {t : Source} (ht : t ∈ ss) (b : α) :
      ((read t).toOption.bind fun e => (map e).get? name) = some b ↔
        ∃ d, records.Holds t d ∧ (map d).get? name = some b := by
    simp only [← h.read_eq_ok ht]
    cases read t <;> simp [Except.toOption]
  have hP (t : Source) (ht : ∃ d b, records.Holds t d ∧ (map d).get? name = some b) : t ∈ ss := by
    obtain ⟨d, b, hd, -⟩ := ht
    exact h.mem_of_holds hd
  rw [get?_readAll hmap name hc, hmap.empty, NameMap.get?_empty, Option.none_or,
    List.findSome?_eq_some_iff]
  constructor
  · rintro ⟨front, s, back, hsplit, hs, hfront⟩
    have hmem : s ∈ ss := by simp [hsplit]
    obtain ⟨d, hd, ha⟩ := (hbind hmem a).1 hs
    refine ⟨s, (first_iff h.ordered hP).2 ⟨front, back, hsplit, ⟨d, a, hd, ha⟩, ?_⟩, d, hd, ha⟩
    rintro t ht ⟨d', b, hd', hb⟩
    have hsome := (hbind (h.mem_of_holds hd') b).2 ⟨d', hd', hb⟩
    rw [hfront t ht] at hsome
    cases hsome
  · rintro ⟨s, hfirst, d, hd, ha⟩
    obtain ⟨front, back, hsplit, -, hfront⟩ := (first_iff h.ordered hP).1 hfirst
    refine ⟨front, s, back, hsplit, (hbind (h.mem_of_holds hd) a).2 ⟨d, hd, ha⟩, fun t ht => ?_⟩
    have hmem : t ∈ ss := by simp [hsplit, ht]
    refine Option.eq_none_iff_forall_ne_some.2 fun b hb => hfront t ht ?_
    obtain ⟨d', hd', hb'⟩ := (hbind hmem b).1 hb
    exact ⟨d', b, hd', hb'⟩

theorem layered {c : Catalog} (hc : readAll read {} ss = .ok c) : records.Layered c where
  pools := h.get?_eq_some_iff ⟨rfl, fun _ _ => rfl⟩ hc
  networks := h.get?_eq_some_iff ⟨rfl, fun _ _ => rfl⟩ hc
  mediatedDevices := h.get?_eq_some_iff ⟨rfl, fun _ _ => rfl⟩ hc
  processors := h.get?_eq_some_iff ⟨rfl, fun _ _ => rfl⟩ hc
  tags := h.get?_eq_some_iff ⟨rfl, fun _ _ => rfl⟩ hc

theorem load : records.Load l (readAll read {} ss) where
  error _ := h.readAll_eq_error
  ok c := by
    constructor
    · intro hc
      refine ⟨fun s hbad => ?_, h.layered hc⟩
      have hmem := h.mem_of_undecodable hbad
      exact (h.exists_read_iff hmem).1 (exists_of_readAll hc s hmem) hbad
    · rintro ⟨hgood, hlayered⟩
      cases hread : readAll read {} ss with
      | error e =>
        obtain ⟨s, hfirst, -⟩ := h.readAll_eq_error.1 hread
        exact absurd hfirst.1 (hgood s)
      | ok d => rw [(h.layered hread).unique hlayered]

end ReadBy

end Records

end GuestCompiler
