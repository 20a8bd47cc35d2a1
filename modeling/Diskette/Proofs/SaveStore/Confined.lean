import Diskette.SaveStore.Folder
import Diskette.Proofs.Catalog.Playlist
import Diskette.Proofs.FileName.Steps
import Diskette.Zip.Reader

/-!
# Saves stay in their folder

Whatever its name, a save is kept in one file right inside of the save folder, or it is refused. The
names that images get in their slots have no slashes, so each of them is the name of its own file,
and the folder gives back what was stored last under it.
-/

set_option autoImplicit false

namespace Diskette

/-- The names that images get in their slots: the base name of the path they were loaded from, or
one that is made up for the slot. -/
inductive IsImageName : String → Prop where
  | base (path : String) : IsImageName (FileName.base path)
  | nameless (slot : Nat) : IsImageName (Catalog.namelessImage slot)

theorem FileName.no_slash_base (path : String) : '/' ∉ (base path).toList := by
  intro h
  rw [base, String.toList_ofList, List.mem_reverse] at h
  have hsep := List.all_eq_true.mp List.all_takeWhile _ h
  exact absurd hsep (by decide)

theorem Catalog.no_slash_namelessImage (slot : Nat) : '/' ∉ (namelessImage slot).toList := by
  have hdigits : '/' ∉ Nat.toDigits 10 slot := fun h =>
    absurd (Nat.isDigit_of_mem_toDigits (by decide) (by decide) h) (by decide)
  have hrepr : toString slot = slot.repr := rfl
  simp [namelessImage, hrepr, hdigits]

theorem IsImageName.no_slash {name : String} (h : IsImageName name) : '/' ∉ name.toList := by
  cases h with
  | base path => exact FileName.no_slash_base path
  | nameless slot => exact Catalog.no_slash_namelessImage slot

theorem Catalog.isImageName_replace [Zip.Library] {σ : Type} [SaveStore σ] {c : Catalog σ}
    {slot : Nat} (h : slot < c.slots.length) (path : Option String) (file : Bytes) :
    ∃ image, (c.replace slot path file).1.slots[slot]? = some image ∧ IsImageName image.name := by
  have hl : slot < (c.released slot).slots.length := by rwa [length_slots_released]
  rw [replace_eq h]
  refine ⟨_, List.getElem?_set_self hl, ?_⟩
  cases path with
  | none => exact .nameless slot
  | some path => exact .base path

namespace SaveFolder

theorem isEntry_of_fileName? {name file : String} (h : fileName? name = some file) :
    FileName.IsEntry file := by
  unfold fileName? at h
  split at h
  · cases h
  · rename_i part hlast
    obtain ⟨last, rfl⟩ : ∃ last : String, part = last.toList :=
      ⟨String.ofList part, String.toList_ofList.symm⟩
    split at h
    · cases h
    · rename_i hup
      rw [String.ofList_toList] at h
      cases h
      have hmem := List.mem_of_getLast? hlast
      rw [FileName.steps, List.mem_filter] at hmem
      obtain ⟨hmem, hkept⟩ := hmem
      simp only [Bool.and_eq_true, bne_iff_ne, ne_eq] at hkept
      constructor
      · rintro rfl
        exact hkept.1 rfl
      · rintro rfl
        exact hkept.2 rfl
      · rintro rfl
        exact hup rfl
      · exact FileName.no_slash_of_mem _ _ hmem

theorem fileName?_of_no_slash {name : String} (h : '/' ∉ name.toList) :
    fileName? name = if name = "" ∨ name = "." ∨ name = ".." then none else some name := by
  have hup : name.toList = ['.', '.'] ↔ name = ".." := by rw [← String.toList_inj]; rfl
  rw [fileName?, FileName.steps_of_no_slash h]
  by_cases hstep : name = "" ∨ name = "."
  · have hnone : name = "" ∨ name = "." ∨ name = ".." := hstep.imp_right .inl
    rw [if_pos hstep, if_pos hnone]
    rfl
  · rw [if_neg hstep]
    rw [not_or] at hstep
    simp [hstep.1, hstep.2, hup]

theorem make_eq_ok {s t : SaveFolder} (h : s.make = .ok t) :
    t = { s with site := .folder s.entries } := by
  rcases s with ⟨path, site⟩
  cases site <;> cases h <;> rfl

theorem store_eq_ok {s t : SaveFolder} {name : String} {data : Bytes}
    (h : s.store name data = (t, .ok ())) :
    ∃ file, fileName? name = some file ∧
      t = { s with site := .folder (s.entries.insert file (.file data)) } := by
  unfold store at h
  split at h
  · cases h
  · rename_i file hfile
    split at h
    · cases h
    · rename_i made hmade
      split at h
      · cases h
      · cases h
        exact ⟨file, hfile, by rw [make_eq_ok hmade]; rfl⟩

theorem store_eq_error {s t : SaveFolder} {name : String} {data : Bytes} {fault : Fault}
    (h : s.store name data = (t, .error fault)) :
    t = s ∨ t = { s with site := .folder s.entries } := by
  unfold store at h
  split at h
  · cases h
    exact .inl rfl
  · split at h
    · cases h
      exact .inl rfl
    · rename_i made hmade
      split at h
      · cases h
        exact .inr (make_eq_ok hmade)
      · cases h

/-- Two states of a folder differ in one file at most, and in whether the folder was made. -/
structure SameBut (file : String) (s t : SaveFolder) : Prop where
  path : t.path = s.path
  entries : ∀ other, other ≠ file → t.entries[other]? = s.entries[other]?

theorem sameBut_insert (s : SaveFolder) (file : String) (entry : FolderEntry) :
    SameBut file s { s with site := .folder (s.entries.insert file entry) } := by
  refine ⟨rfl, fun other ho => ?_⟩
  have hcompare : compare file other ≠ .eq := Std.LawfulEqCmp.compare_eq_iff_eq.not.mpr ho.symm
  change (s.entries.insert file entry)[other]? = _
  rw [Std.ExtTreeMap.getElem?_insert, if_neg hcompare]

theorem sameBut_store {name file : String} (hfile : fileName? name = some file) (s : SaveFolder)
    (data : Bytes) : SameBut file s (s.store name data).1 := by
  cases h : s.store name data with
  | mk t result =>
    cases result with
    | error fault =>
      rcases store_eq_error h with rfl | rfl
      · exact ⟨rfl, fun _ _ => rfl⟩
      · exact ⟨rfl, fun _ _ => rfl⟩
    | ok u =>
      obtain ⟨file', hfile', rfl⟩ := store_eq_ok h
      obtain rfl : file = file' := Option.some.inj (hfile.symm.trans hfile')
      exact sameBut_insert s file (.file data)

theorem load_congr {name file : String} (hfile : fileName? name = some file) {s t : SaveFolder}
    (h : t.entries[file]? = s.entries[file]?) : t.load name = s.load name := by
  unfold load
  rw [hfile, Option.bind_some, Option.bind_some, h]

theorem load_of_fileName?_eq_none {name : String} (h : fileName? name = none) (s : SaveFolder) :
    s.load name = none := by
  rw [load, h]
  rfl

theorem load_store {s t : SaveFolder} {name : String} {data : Bytes}
    (h : s.store name data = (t, .ok ())) (other : String) :
    t.load other = if fileName? other = fileName? name then some data else s.load other := by
  obtain ⟨file, hfile, rfl⟩ := store_eq_ok h
  rw [hfile]
  cases ho : fileName? other with
  | none => simp [load_of_fileName?_eq_none ho]
  | some file' =>
    by_cases he : file' = file
    · subst he
      simp [load, ho, entries]
    · rw [load_congr ho ((sameBut_insert s file (.file data)).entries file' he)]
      simp [he]

def storeAll (s : SaveFolder) : List (String × Bytes) → Except Fault SaveFolder
  | [] => .ok s
  | (name, data) :: saves =>
    match s.store name data with
    | (t, .ok ()) => t.storeAll saves
    | (_, .error fault) => .error fault

theorem fileName?_inj {m n : String} (hm : IsImageName m) (hn : IsImageName n) {file : String}
    (h : fileName? m = some file) (h' : fileName? n = some file) : m = n := by
  rw [fileName?_of_no_slash hm.no_slash] at h
  rw [fileName?_of_no_slash hn.no_slash] at h'
  split at h
  · cases h
  · split at h'
    · cases h'
    · exact (Option.some.inj h).trans (Option.some.inj h').symm

theorem load_storeAll {saves : List (String × Bytes)} {s t : SaveFolder}
    (h : s.storeAll saves = .ok t) (hsaves : ∀ p ∈ saves, IsImageName p.1) {name : String}
    (hname : IsImageName name) :
    t.load name = (saves.reverse.lookup name).or (s.load name) := by
  induction saves generalizing s with
  | nil =>
    cases h
    rfl
  | cons head saves ih =>
    obtain ⟨other, data⟩ := head
    unfold storeAll at h
    split at h
    · rename_i r hr
      have hother : IsImageName other := hsaves _ (List.mem_cons_self ..)
      obtain ⟨file, hfile, -⟩ := store_eq_ok hr
      have hsame : fileName? name = fileName? other ↔ name = other :=
        ⟨fun he => fileName?_inj hname hother (he.trans hfile) hfile, fun he => he ▸ rfl⟩
      have hload : r.load name = if name = other then some data else s.load name :=
        (load_store hr name).trans (if_congr hsame rfl rfl)
      -- The list is searched from its end, so the first save comes last, just before the folder.
      rw [ih h (fun p hp => hsaves p (List.mem_cons_of_mem _ hp)), hload, List.reverse_cons,
        List.lookup_append, Option.or_assoc]
      by_cases he : name = other
      · simp [he]
      · have hkey : (name == other) = false := beq_eq_false_iff_ne.mpr he
        simp [List.lookup_cons, hkey, he]
    · cases h

/-- All that is done under a name is done to one file, which lies right inside of the folder. -/
structure ConfinedTo (file name : String) : Prop where
  isEntry : FileName.IsEntry file
  pathFor? : ∀ s : SaveFolder, s.pathFor? name = some (FileName.join s.path file)
  isInside : ∀ s : SaveFolder, FileName.IsInside s.path file (FileName.join s.path file)
  load : ∀ s t : SaveFolder, t.entries[file]? = s.entries[file]? → t.load name = s.load name
  holds : ∀ s t : SaveFolder, t.entries[file]? = s.entries[file]? →
    SaveStore.holds t name = SaveStore.holds s name
  store : ∀ (s : SaveFolder) (data : Bytes), SameBut file s (s.store name data).1

theorem confinedTo_of_fileName? {name file : String} (h : fileName? name = some file) :
    ConfinedTo file name where
  isEntry := isEntry_of_fileName? h
  pathFor? s := by rw [SaveFolder.pathFor?, h, Option.map_some]
  isInside s := FileName.isInside_join s.path (isEntry_of_fileName? h)
  load _ _ := load_congr h
  holds _ _ he := congrArg Option.isSome (load_congr h he)
  store s data := sameBut_store h s data

/-- A name leads to one file right inside of the save folder, and nothing else is read or written
under it, or it leads nowhere and is refused. The names that images get in their slots lead to the
files of these very names, all but the three that name no file, so that no two images share a file;
and what was stored last under such a name is what is loaded. -/
theorem saves_confined [Zip.Library] :
    (∀ name : String,
      (∃ file, ConfinedTo file name) ∨
      ∀ s : SaveFolder, s.pathFor? name = none ∧ s.load name = none ∧
        SaveStore.holds s name = false ∧
        ∀ data, s.store name data = (s, .error (.persist (.invalidName (Text.quoted name))))) ∧
    (∀ (c : Catalog SaveFolder) (slot : Nat) (path : Option String) (file : Bytes),
      slot < c.slots.length → ∃ image,
        (c.replace slot path file).1.slots[slot]? = some image ∧ IsImageName image.name) ∧
    (∀ (s : SaveFolder) (name : String), IsImageName name →
      s.pathFor? name =
        if name = "" ∨ name = "." ∨ name = ".." then none
        else some (FileName.join s.path name)) ∧
    (∀ (s : SaveFolder) (m n path : String), IsImageName m → IsImageName n →
      s.pathFor? m = some path → s.pathFor? n = some path → m = n) ∧
    ∀ (s t : SaveFolder) (saves : List (String × Bytes)), s.storeAll saves = .ok t →
      (∀ p ∈ saves, IsImageName p.1) → ∀ name, IsImageName name →
      t.load name = (saves.reverse.lookup name).or (s.load name) := by
  refine ⟨?_, ?_, ?_, ?_, ?_⟩
  · intro name
    cases hfile : fileName? name with
    | some file => exact .inl ⟨file, confinedTo_of_fileName? hfile⟩
    | none =>
      refine .inr fun s => ?_
      have hload := load_of_fileName?_eq_none hfile s
      refine ⟨by rw [pathFor?, hfile, Option.map_none], hload, congrArg Option.isSome hload, ?_⟩
      intro data
      rw [store, hfile]
  · intro c slot path file h
    exact Catalog.isImageName_replace h path file
  · intro s name h
    rw [pathFor?, fileName?_of_no_slash h.no_slash]
    split <;> rfl
  · intro s m n path hm hn h h'
    obtain ⟨file, hfile, rfl⟩ := Option.map_eq_some_iff.mp h
    obtain ⟨file', hfile', he⟩ := Option.map_eq_some_iff.mp h'
    obtain rfl := FileName.join_inj (isEntry_of_fileName? hfile') (isEntry_of_fileName? hfile) he
    exact fileName?_inj hm hn hfile hfile'
  · intro s t saves h hsaves name hname
    exact load_storeAll h hsaves hname

open scoped Zip.Reader in
/-- Three saves of two images in a new folder, and a name that starts out of it. -/
theorem saves_confined_two_images :
    let s : SaveFolder := { path := "saves" }
    let saves : List (String × Bytes) :=
      [("GAME.ST", [1]), (Catalog.namelessImage 0, [2]), ("GAME.ST", [3])]
    ∃ t, s.storeAll saves = .ok t ∧ t.load "GAME.ST" = some [3] ∧
      t.load (Catalog.namelessImage 0) = some [2] ∧
      s.pathFor? "GAME.ST" = some "saves/GAME.ST" ∧
      s.pathFor? (Catalog.namelessImage 0) ≠ some "saves/GAME.ST" ∧
      ConfinedTo "GAME.ST" "../../GAME.ST" ∧
      ∃ image, ((Catalog.new {} s).add.1.replace 0 (some "disks/GAME.ST") []).1.slots[0]? =
        some image ∧ IsImageName image.name := by
  intro s saves
  obtain ⟨hnames, hreplace, hpath, hinj, hload⟩ := saves_confined
  have hgame : IsImageName "GAME.ST" := by
    have hbase : FileName.base "disks/GAME.ST" = "GAME.ST" := by decide +kernel
    exact hbase ▸ .base "disks/GAME.ST"
  have hnameless := IsImageName.nameless 0
  have hsaves : ∀ p ∈ saves, IsImageName p.1 := by simp [saves, hgame, hnameless]
  obtain ⟨t, ht⟩ : ∃ t, s.storeAll saves = .ok t := exists_of_isOk (by decide +kernel)
  have hgamePath : s.pathFor? "GAME.ST" = some "saves/GAME.ST" := by
    rw [hpath s _ hgame]
    decide +kernel
  refine ⟨t, ht, ?_, ?_, hgamePath, ?_, ?_, ?_⟩
  · rw [hload s t saves ht hsaves _ hgame]
    decide +kernel
  · rw [hload s t saves ht hsaves _ hnameless]
    decide +kernel
  · intro hsame
    exact absurd (hinj s _ _ _ hnameless hgame hsame hgamePath) (by decide +kernel)
  · rcases hnames "../../GAME.ST" with ⟨file, hfile⟩ | hnone
    · have hjoin : FileName.join s.path file = "saves/GAME.ST" :=
        Option.some.inj ((hfile.pathFor? s).symm.trans (by decide +kernel))
      have hgameFile : fileName? "GAME.ST" = some "GAME.ST" := by decide +kernel
      obtain rfl : file = "GAME.ST" := FileName.join_inj hfile.isEntry
        (isEntry_of_fileName? hgameFile) (hjoin.trans (by decide +kernel))
      exact hfile
    · exact absurd (hnone s).1 (by decide +kernel)
  · exact hreplace _ 0 _ _ (by decide)

end SaveFolder

end Diskette
