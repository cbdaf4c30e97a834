import GuestCompiler.ConfDir
import GuestCompiler.Proofs.PathComponents
import Mathlib.Data.List.Nodup

/-!
# What is in a directory

A file of a directory is found by the directory's path and its own name (`find_join_of_directory`),
and the records of a directory are its files that end as records do, by their stems: each once, in
ascending order (`mem_stems`, `ascending_stems`). None of it depends on the order in which the files
of a host are listed.
-/
namespace GuestCompiler

/-- The place of a name in a directory. -/
def Place.child (at_ : Place) (name : String) : Place := at_ ++ [.name name]

namespace HostFiles

/-- Files as a host can have them: one at a place, and no name that is a path. -/
structure Sound (h : HostFiles) : Prop where
  distinct : (h.files.map (·.1)).Nodup
  named : ∀ f ∈ h.files, ∀ name, .name name ∈ f.1 → '/' ∉ name.toList

variable {h : HostFiles} {at_ : Place}

section Contents

theorem isSome_content?_iff : (h.content? at_).isSome ↔ at_ ∈ h.files.map (·.1) := by
  rw [content?, List.lookup_isSome_iff, List.mem_map]
  simp only [beq_iff_eq, eq_comm (a := at_)]

/-- A name below which something is is one of a directory. -/
theorem isDirectory_of_content? {name : String} (hc : (h.content? (at_.child name)).isSome) :
    h.isDirectory at_ := by
  obtain ⟨f, hf, hplace⟩ := List.mem_map.1 (isSome_content?_iff.1 hc)
  have hbelow : (at_.isPrefixOf f.1 && at_ != f.1) = true := by simp [hplace, Place.child]
  rw [isDirectory, Bool.or_eq_true]
  exact .inr (List.any_eq_true.2 ⟨f, hf, hbelow⟩)

theorem Sound.not_mem_of_content? (hs : h.Sound) {name : String}
    (hc : (h.content? (at_.child name)).isSome) : '/' ∉ name.toList := by
  obtain ⟨f, hf, hplace⟩ := List.mem_map.1 (isSome_content?_iff.1 hc)
  exact hs.named f hf name (by simp [hplace, Place.child])

end Contents

section Walks

theorem enter_name (h : HostFiles) (at_ : Place) (name : String) : h.enter at_ (.name name) =
    if h.isThere (at_.child name) then some (at_.child name) else none := rfl

theorem walk_append (h : HostFiles) (at_ : Place) (cs ds : List Path.Component) :
    h.walk at_ (cs ++ ds) = (h.walk at_ cs >>= fun next => h.walk next ds) := by
  induction cs generalizing at_ with
  | nil => rfl
  | cons c cs ih =>
    rw [List.cons_append, walk, walk]
    by_cases hdir : h.isDirectory at_
    · rw [if_pos hdir, if_pos hdir]
      cases h.enter at_ c with
      | none => rfl
      | some next => exact ih next
    · rw [if_neg hdir, if_neg hdir]
      rfl

variable {p : Path} {file : String} (hslash : '/' ∉ file.toList) (hlength : 2 < file.length)
include hslash hlength

theorem find_join : h.find (p.join file) = (h.find p >>= fun d => h.walk d [.name file]) := by
  rw [find, Path.components_join_file p hslash hlength, walk_append]
  rfl

theorem find_join_of_directory (hp : h.find p = .ok at_) (hdir : h.isDirectory at_) :
    h.find (p.join file) =
      if h.isThere (at_.child file) then .ok (at_.child file) else .error .missing := by
  have hwalk : h.walk at_ [.name file] =
      if h.isThere (at_.child file) then .ok (at_.child file) else .error .missing := by
    rw [walk, if_pos hdir, enter_name]
    by_cases hthere : h.isThere (at_.child file)
    · rw [if_pos hthere, if_pos hthere]
      rfl
    · rw [if_neg hthere, if_neg hthere]
  rw [find_join hslash hlength, hp, ← hwalk]
  rfl

theorem find_join_of_missing (hp : h.find p = .error .missing) :
    h.find (p.join file) = .error .missing := by
  rw [find_join hslash hlength, hp]
  rfl

end Walks

section Records

/-- The name that a place has in a directory. -/
def nameIn? (at_ : Place) (place : Place) : Option String :=
  match place.getLast? with
  | some (.name n) => if place.dropLast = at_ then some n else none
  | _ => none

theorem nameIn?_eq_some_iff {place : Place} {name : String} :
    nameIn? at_ place = some name ↔ place = at_.child name := by
  constructor
  · intro hname
    unfold nameIn? at hname
    split at hname
    · rename_i n hlast
      obtain ⟨front, rfl⟩ := List.getLast?_eq_some_iff.1 hlast
      rw [List.dropLast_concat] at hname
      split at hname
      · rename_i hfront
        rw [hfront, Option.some_inj.1 hname]
        rfl
      · cases hname
    · cases hname
  · rintro rfl
    simp [nameIn?, Place.child]

theorem fileNames_eq (h : HostFiles) (at_ : Place) :
    h.fileNames at_ = (h.files.map (·.1)).filterMap (nameIn? at_) := by
  rw [List.filterMap_map]
  rfl

theorem mem_fileNames {name : String} :
    name ∈ h.fileNames at_ ↔ (h.content? (at_.child name)).isSome := by
  rw [isSome_content?_iff, fileNames_eq, List.mem_filterMap]
  simp only [nameIn?_eq_some_iff, exists_eq_right]

theorem Sound.nodup_fileNames (hs : h.Sound) (at_ : Place) : (h.fileNames at_).Nodup := by
  rw [fileNames_eq]
  refine hs.distinct.filterMap fun place place' name hname hname' => ?_
  rw [nameIn?_eq_some_iff.1 hname, nameIn?_eq_some_iff.1 hname']

theorem recordName?_eq_some_iff {file stem : String} :
    recordName? file = some stem ↔ stem ≠ "" ∧ file = stem ++ Locations.recordSuffix := by
  simp only [recordName?, Option.ite_none_right_eq_some, Option.some_inj]
  constructor
  · rintro ⟨⟨hsuffix, hlength⟩, rfl⟩
    have hsplit := List.take_append_drop
      (file.toList.length - Locations.recordSuffix.toList.length) file.toList
    rw [hsuffix] at hsplit
    constructor
    · intro hempty
      have htake := congrArg String.toList hempty
      rw [String.toList_ofList, String.toList_empty, List.take_eq_nil_iff] at htake
      rcases htake with hzero | hnil
      · exact hlength hzero
      · exact hlength (by rw [hnil]; rfl)
    · rw [← String.toList_inj, String.toList_append, String.toList_ofList, hsplit]
  · rintro ⟨hne, rfl⟩
    have hlength : (stem ++ Locations.recordSuffix).toList.length -
        Locations.recordSuffix.toList.length = stem.toList.length := by
      rw [String.toList_append, List.length_append, Nat.add_sub_cancel]
    have hstem : stem.toList.length ≠ 0 := by simpa using hne
    rw [hlength, String.toList_append, List.drop_left, List.take_left, String.ofList_toList]
    exact ⟨⟨rfl, hstem⟩, rfl⟩

/-- The stems of the records in a directory. -/
def stems (h : HostFiles) (at_ : Place) : List String :=
  ((h.fileNames at_).filterMap recordName?).mergeSort fun a b => a ≤ b

theorem mem_stems {stem : String} : stem ∈ h.stems at_ ↔
    stem ≠ "" ∧ (h.content? (at_.child (stem ++ Locations.recordSuffix))).isSome := by
  rw [stems, List.mem_mergeSort, List.mem_filterMap]
  simp only [recordName?_eq_some_iff, mem_fileNames]
  constructor
  · rintro ⟨file, hfile, hstem, rfl⟩
    exact ⟨hstem, hfile⟩
  · rintro ⟨hstem, hfile⟩
    exact ⟨_, hfile, hstem, rfl⟩

theorem Sound.ascending_stems (hs : h.Sound) (at_ : Place) : (h.stems at_).Pairwise (· < ·) := by
  have hnodup : (h.stems at_).Nodup := by
    rw [stems, List.nodup_mergeSort]
    refine (hs.nodup_fileNames at_).filterMap fun file file' stem hfile hfile' => ?_
    rw [(recordName?_eq_some_iff.1 hfile).2, (recordName?_eq_some_iff.1 hfile').2]
  have hsorted : (h.stems at_).Pairwise fun a b => decide (a ≤ b) = true :=
    List.pairwise_mergeSort (by simpa using fun _ _ _ => String.le_trans)
      (by simpa using String.le_total) _
  refine (hsorted.and hnodup).imp fun ⟨hle, hne⟩ => ?_
  refine Decidable.byContradiction fun hlt => hne ?_
  exact String.le_antisymm (of_decide_eq_true hle) (String.not_lt.1 hlt)

theorem recordNames_of_directory {p : Path} (hp : h.find p = .ok at_) (hdir : h.isDirectory at_) :
    h.recordNames p = .ok (h.stems at_) := by
  rw [recordNames, hp]
  exact if_pos hdir

theorem recordNames_of_missing {p : Path} (hp : h.find p = .error .missing) :
    h.recordNames p = .ok [] := by
  rw [recordNames, hp]

end Records

section Orders

variable {h' : HostFiles}

theorem Sound.content?_eq_some_iff (hs : h.Sound) {bytes : List UInt8} :
    h.content? at_ = some bytes ↔ (at_, bytes) ∈ h.files := by
  rw [content?, List.lookup_eq_some_iff]
  constructor
  · rintro ⟨front, back, hsplit, -⟩
    rw [hsplit]
    exact List.mem_append_right _ List.mem_cons_self
  · intro hmem
    obtain ⟨front, back, hsplit⟩ := List.append_of_mem hmem
    refine ⟨front, back, hsplit, fun f hf => bne_iff_ne.2 ?_⟩
    -- A file in front of it is at another place.
    have hdistinct := hs.distinct
    rw [hsplit, List.map_append, List.nodup_append] at hdistinct
    exact (hdistinct.2.2 f.1 (List.mem_map_of_mem hf) at_ List.mem_cons_self).symm

theorem Sound.perm (hs : h.Sound) (hfiles : h'.files.Perm h.files) : h'.Sound where
  distinct := (hfiles.map _).nodup_iff.2 hs.distinct
  named f hf := hs.named f (hfiles.mem_iff.1 hf)

theorem Sound.content?_perm (hs : h.Sound) (hfiles : h'.files.Perm h.files) (at_ : Place) :
    h'.content? at_ = h.content? at_ := by
  ext bytes
  rw [(hs.perm hfiles).content?_eq_some_iff, hs.content?_eq_some_iff, hfiles.mem_iff]

theorem isDirectory_perm (hfiles : h'.files.Perm h.files)
    (hdirectories : h'.directories.Perm h.directories) (at_ : Place) :
    h'.isDirectory at_ = h.isDirectory at_ := by
  rw [isDirectory, isDirectory, hfiles.any_eq, hdirectories.any_eq]

theorem walk_congr (hcontent : ∀ p, h'.content? p = h.content? p)
    (hdir : ∀ p, h'.isDirectory p = h.isDirectory p) (at_ : Place) (cs : List Path.Component) :
    h'.walk at_ cs = h.walk at_ cs := by
  have hthere : h'.isThere = h.isThere := by
    funext p
    rw [isThere, isThere, hcontent, hdir]
  have henter : h'.enter = h.enter := by
    funext p c
    unfold enter
    rw [hthere]
  induction cs generalizing at_ with
  | nil => rfl
  | cons c cs ih =>
    rw [walk, walk, hdir, henter]
    split
    · split
      · exact ih _
      · rfl
    · rfl

end Orders

end HostFiles

end GuestCompiler
