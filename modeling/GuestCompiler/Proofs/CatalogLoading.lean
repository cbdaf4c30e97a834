import GuestCompiler.Proofs.CatalogSources
import Mathlib

/-!
# Loading a catalog

The sources of a host's catalog are the main file, where there is one, and a fragment for each stem
of a record in the fragments' directory. Loading reads them in this order, so that a catalog is what
its records come to (`loadCatalog_layered`): nothing else that a host has makes a difference, and
neither does the order in which its files are listed.
-/
namespace GuestCompiler.HostFiles

open Catalog Source

/-- The records of a configuration directory; a file that is all ending is none. -/
def records (h : HostFiles) (l : Locations) : Records := fun s =>
  if s = .fragment "" then none
  else (h.place? l.confDir).bind fun d => h.content? (s.names.foldl Place.child d)

/-- A configuration directory that is not there, or in which the main file is no directory and the
directory of the fragments is no file. -/
inductive Configures (h : HostFiles) (l : Locations) : Prop
  | missing (nowhere : h.find l.confDir = .error .missing)
  | present (at_ : Place) (found : h.find l.confDir = .ok at_) (directory : h.isDirectory at_)
      (main : h.isDirectory (at_.child "qforge.conf.json") = false)
      (fragments : h.content? (at_.child "system.conf.d") = none)

variable {h h' : HostFiles} {l : Locations} {at_ : Place}

section Sources

/-- How a source is read. -/
def read (h : HostFiles) (l : Locations) (s : Source) : Except Error Catalog :=
  h.readRecord Catalog.codec (s.path l)

def sources (h : HostFiles) (at_ : Place) : List Source :=
  (if (h.content? (at_.child "qforge.conf.json")).isSome then [main] else []) ++
    (h.stems (at_.child "system.conf.d")).map fragment

theorem absorbFragments_eq (c : Catalog) (names : List String) :
    h.absorbFragments l.systemDir c names = readAll (h.read l) c (names.map fragment) := by
  induction names generalizing c with
  | nil => rfl
  | cons name rest ih =>
    rw [absorbFragments, List.map_cons, readAll]
    exact congrArg _ (funext fun d => ih (c.absorb d))

theorem length_fragment (stem : String) : 2 < (stem ++ Locations.recordSuffix).length := by
  have hsuffix : Locations.recordSuffix.length = 10 := rfl
  rw [String.length_append, hsuffix]
  omega

theorem readRecord_of_content? {p : Path} {bytes : List UInt8} (hp : h.find p = .ok at_)
    (hbytes : h.content? at_ = some bytes) : h.readRecord Catalog.codec p =
      (Catalog.codec.decodeDocument (.ofBytes bytes)).mapError fun _ =>
        .config (.undecodable p.text) := by
  have hplace : (h.place? p).bind h.content? = some bytes := by
    rw [place?, hp]
    exact hbytes
  rw [readRecord, hplace]

theorem isThere_of_content? {bytes : List UInt8} (hbytes : h.content? at_ = some bytes) :
    h.isThere at_ := by
  rw [isThere, hbytes]
  rfl

end Sources

section Present

variable (found : h.find l.confDir = .ok at_) (directory : h.isDirectory at_)
include found

theorem records_main :
    h.records l main = h.content? (at_.child "qforge.conf.json") := by
  rw [records, place?, found]
  rfl

theorem records_fragment {stem : String} (hstem : stem ≠ "") : h.records l (fragment stem) =
    h.content? ((at_.child "system.conf.d").child (stem ++ Locations.recordSuffix)) := by
  rw [records, place?, found, if_neg (by simpa using hstem)]
  rfl

include directory

theorem find_systemFile : h.find l.systemFile =
    if h.isThere (at_.child "qforge.conf.json") then .ok (at_.child "qforge.conf.json")
    else .error .missing :=
  find_join_of_directory (by decide) (by decide) found directory

theorem find_systemDir : h.find l.systemDir =
    if h.isThere (at_.child "system.conf.d") then .ok (at_.child "system.conf.d")
    else .error .missing :=
  find_join_of_directory (by decide) (by decide) found directory

/-- A fragment that is there is found by its path. -/
theorem find_fragment (hs : h.Sound) {stem : String} {bytes : List UInt8}
    (hbytes : h.content?
      ((at_.child "system.conf.d").child (stem ++ Locations.recordSuffix)) = some bytes) :
    h.find ((fragment stem).path l) =
      .ok ((at_.child "system.conf.d").child (stem ++ Locations.recordSuffix)) := by
  have hsome := Option.isSome_of_eq_some hbytes
  have hdir := isDirectory_of_content? hsome
  have hthere : h.isThere (at_.child "system.conf.d") := by
    rw [isThere, hdir, Bool.or_true]
  have hsystem := find_systemDir found directory
  rw [if_pos hthere] at hsystem
  rw [path, find_join_of_directory (hs.not_mem_of_content? hsome) (length_fragment stem) hsystem
    hdir, if_pos (isThere_of_content? hbytes)]

theorem readBy_sources (hs : h.Sound) : (h.records l).ReadBy l (h.read l) (h.sources at_) where
  ordered := by
    have hfragments := (hs.ascending_stems (at_.child "system.conf.d")).map fragment
      (S := Before) fun _ _ hlt => hlt
    rw [sources]
    split
    · refine List.pairwise_cons.2 ⟨fun s hmem => ?_, hfragments⟩
      obtain ⟨stem, -, rfl⟩ := List.mem_map.1 hmem
      trivial
    · exact hfragments
  mem s := by
    rw [sources, List.mem_append]
    cases s with
    | main =>
      rw [records_main found]
      by_cases hmain : (h.content? (at_.child "qforge.conf.json")).isSome <;> simp [hmain]
    | fragment stem =>
      have hnot : fragment stem ∉
          if (h.content? (at_.child "qforge.conf.json")).isSome then [main] else [] := by
        split <;> simp
      have hmap : fragment stem ∈ (h.stems (at_.child "system.conf.d")).map fragment ↔
          stem ∈ h.stems (at_.child "system.conf.d") :=
        List.mem_map_of_injective fun _ _ heq => Source.fragment.inj heq
      rw [or_iff_right hnot, hmap, mem_stems]
      by_cases hstem : stem = ""
      · subst hstem
        simp [records]
      · rw [records_fragment found hstem, and_iff_right hstem]
  reads s bytes hbytes := by
    cases s with
    | main =>
      rw [records_main found] at hbytes
      have hfind := find_systemFile found directory
      rw [if_pos (isThere_of_content? hbytes)] at hfind
      exact readRecord_of_content? hfind hbytes
    | fragment stem =>
      have hstem : stem ≠ "" := by
        rintro rfl
        simp [records] at hbytes
      rw [records_fragment found hstem] at hbytes
      exact readRecord_of_content? (find_fragment found directory hs hbytes) hbytes

/-- Where there is no directory of fragments, there are none. -/
theorem recordNames_systemDir
    (fragments : h.content? (at_.child "system.conf.d") = none) :
    h.recordNames l.systemDir = .ok (h.stems (at_.child "system.conf.d")) := by
  have hfind := find_systemDir found directory
  by_cases hdir : h.isDirectory (at_.child "system.conf.d")
  · rw [if_pos (by rw [isThere, hdir, Bool.or_true])] at hfind
    exact recordNames_of_directory hfind hdir
  · rw [if_neg (by simp [isThere, fragments, hdir])] at hfind
    have hnone : h.stems (at_.child "system.conf.d") = [] := by
      refine List.eq_nil_iff_forall_not_mem.2 fun stem hstem => hdir ?_
      exact isDirectory_of_content? (mem_stems.1 hstem).2
    rw [recordNames_of_missing hfind, hnone]

theorem loadCatalog_eq (main : h.isDirectory (at_.child "qforge.conf.json") = false)
    (fragments : h.content? (at_.child "system.conf.d") = none) :
    h.loadCatalog l = readAll (h.read l) {} (h.sources at_) := by
  have hnames := recordNames_systemDir found directory fragments
  have hfile := find_systemFile found directory
  have hthere : h.isThere (at_.child "qforge.conf.json") =
      (h.content? (at_.child "qforge.conf.json")).isSome := by
    rw [isThere, main, Bool.or_false]
  rw [hthere] at hfile
  have hfragments (c : Catalog) : (do h.absorbFragments l.systemDir c (← h.recordNames l.systemDir))
      = readAll (h.read l) c ((h.stems (at_.child "system.conf.d")).map fragment) := by
    rw [hnames]
    exact absorbFragments_eq c _
  rw [loadCatalog, sources, place?, hfile]
  by_cases hmain : (h.content? (at_.child "qforge.conf.json")).isSome
  · simp only [hmain, if_true, Except.toOption, Option.isSome_some, List.singleton_append, readAll,
      empty_absorb]
    exact congrArg _ (funext hfragments)
  · simp only [hmain, Bool.false_eq_true, if_false, Except.toOption, Option.isSome_none,
      List.nil_append]
    exact hfragments {}

end Present

/-- A catalog is what the records of its configuration directory come to. -/
theorem loadCatalog_load (hs : h.Sound) (hl : h.Configures l) :
    (h.records l).Load l (h.loadCatalog l) := by
  cases hl with
  | missing nowhere =>
    have hnone : h.records l = fun _ => none := by
      funext s
      rw [records, place?, nowhere]
      exact ite_self none
    have hfile : h.find l.systemFile = .error .missing :=
      find_join_of_missing (by decide) (by decide) nowhere
    have hdir : h.find l.systemDir = .error .missing :=
      find_join_of_missing (by decide) (by decide) nowhere
    have hload : h.loadCatalog l = readAll (h.read l) {} [] := by
      rw [loadCatalog, place?, hfile, recordNames_of_missing hdir]
      rfl
    rw [hload, hnone]
    exact Records.ReadBy.load ⟨.nil, by simp, by simp⟩
  | present at_ found directory main fragments =>
    rw [loadCatalog_eq found directory main fragments]
    exact (readBy_sources found directory hs).load

theorem Configures.congr (hl : h.Configures l) (hcontent : ∀ p, h'.content? p = h.content? p)
    (hdir : ∀ p, h'.isDirectory p = h.isDirectory p) : h'.Configures l := by
  have hfind : h'.find l.confDir = h.find l.confDir := walk_congr hcontent hdir _ _
  cases hl with
  | missing nowhere => exact .missing (hfind.trans nowhere)
  | present at_ found directory main fragments =>
    exact .present at_ (hfind.trans found) ((hdir _).trans directory) ((hdir _).trans main)
      ((hcontent _).trans fragments)

/-- Loading a catalog fails with the first record that cannot be decoded, and where all can be, gives
each name the entry of the first record that has one. What else there is makes no difference, and
neither does the order in which files and directories are listed. -/
theorem loadCatalog_layered (hs : h.Sound) (hl : h.Configures l) :
    (h.records l).Load l (h.loadCatalog l) ∧
    (∀ h' : HostFiles, h'.Sound → h'.Configures l → h'.records l = h.records l →
      h'.loadCatalog l = h.loadCatalog l) ∧
    ∀ h' : HostFiles, h'.files.Perm h.files → h'.directories.Perm h.directories →
      h'.loadCatalog l = h.loadCatalog l := by
  have hload := loadCatalog_load hs hl
  have hsame (h' : HostFiles) (hs' : h'.Sound) (hl' : h'.Configures l)
      (hrecords : h'.records l = h.records l) : h'.loadCatalog l = h.loadCatalog l := by
    have hload' := loadCatalog_load hs' hl'
    rw [hrecords] at hload'
    exact hload'.unique hload
  refine ⟨hload, hsame, fun h' hfiles hdirectories => ?_⟩
  have hcontent := hs.content?_perm hfiles
  have hdir := isDirectory_perm hfiles hdirectories
  have hfind : h'.find l.confDir = h.find l.confDir := walk_congr hcontent hdir _ _
  refine hsame h' (hs.perm hfiles) (hl.congr hcontent hdir) ?_
  funext s
  simp only [records, place?, hfind, hcontent]

namespace Sample

def folder : Place := [.root, .name "etc", .name "qforge"]

def object (members : List (String × String)) : String :=
  "\x7b" ++ ",".intercalate (members.map fun m => "\"" ++ m.1 ++ "\":" ++ m.2) ++ "\x7d"

/-- A record of networks, each with its device. -/
def record (devices : List (String × String)) : List UInt8 :=
  Text.utf8 (object [("network", object (devices.map fun d =>
    (d.1, object [("device", "\"" ++ d.2 ++ "\"")])))])

def networks (devices : List (String × String)) : Catalog where
  networks := .ofList (devices.map fun d => (d.1, { device := d.2 }))

/-- A host with two networks, each in two of its records. -/
def office : HostFiles where
  files := [
    ((folder.child "system.conf.d").child "b.conf.json", record [("wan", "br2")]),
    ((folder.child "system.conf.d").child "notes.txt", []),
    ((folder.child "system.conf.d").child "a.conf.json",
      record [("lan", "br1"), ("wan", "br1")]),
    (folder.child "qforge.conf.json", record [("lan", "br0")])]

theorem office_sound : office.Sound where
  distinct := by decide +kernel
  named := by simp [office, folder, Place.child]

theorem office_found : office.find ({} : Locations).confDir = .ok folder := by decide +kernel

theorem office_configures : office.Configures {} :=
  .present folder office_found (by decide +kernel) (by decide +kernel) (by decide +kernel)

theorem office_sources : office.sources folder = [main, fragment "a", fragment "b"] := by
  have hmain : (office.content? (folder.child "qforge.conf.json")).isSome := by
    decide +kernel
  have hstems : (office.fileNames (folder.child "system.conf.d")).filterMap recordName? =
      ["b", "a"] := by decide +kernel
  have hsorted : (["b", "a"].mergeSort fun a b => a ≤ b) = ["a", "b"] := by cbv
  rw [sources, if_pos hmain, stems, hstems, hsorted]
  rfl

theorem office_read {s : Source} {devices : List (String × String)}
    (hs : office.records {} s = some (record devices))
    (hdecode : Catalog.codec.decodeDocument (.ofBytes (record devices)) = .ok (networks devices)) :
    office.read {} s = .ok (networks devices) := by
  rw [(readBy_sources office_found (by decide +kernel) office_sound).reads s _ hs, hdecode]
  rfl

theorem office_loadCatalog :
    office.loadCatalog {} = .ok (networks [("lan", "br0"), ("wan", "br1")]) := by
  have hmain : office.read {} main = .ok (networks [("lan", "br0")]) :=
    office_read (by decide +kernel) (by cbv)
  have hfirst : office.read {} (fragment "a") = .ok (networks [("lan", "br1"), ("wan", "br1")]) :=
    office_read (by decide +kernel) (by cbv)
  have hsecond : office.read {} (fragment "b") = .ok (networks [("wan", "br2")]) :=
    office_read (by decide +kernel) (by cbv)
  rw [loadCatalog_eq office_found (by decide +kernel) (by decide +kernel) (by decide +kernel),
    office_sources]
  simp only [readAll, hmain, hfirst, hsecond]
  decide +kernel

/-- The main file and the fragments are read in their order, whatever order they are listed in. -/
theorem office_loaded : office.Sound ∧ office.Configures {} ∧
    (office.records {}).Load {} (.ok (networks [("lan", "br0"), ("wan", "br1")])) ∧
    loadCatalog { office with files := office.files.reverse } {} =
      .ok (networks [("lan", "br0"), ("wan", "br1")]) := by
  obtain ⟨hload, -, hperm⟩ := loadCatalog_layered office_sound office_configures
  rw [office_loadCatalog] at hload
  have hreverse := hperm { office with files := office.files.reverse } (List.reverse_perm _)
    (.refl _)
  exact ⟨office_sound, office_configures, hload, hreverse.trans office_loadCatalog⟩

end Sample

end GuestCompiler.HostFiles
