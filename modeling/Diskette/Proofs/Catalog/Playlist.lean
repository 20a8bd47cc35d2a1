import Diskette.Proofs.Catalog.Independence
import Diskette.Proofs.Disk.WellFormed
import Diskette.Zip.Reader

/-!
# Loading a playlist

A playlist leaves nothing of what was in the catalog before. Its slots are told by the files, and by
the saves that are in the store once the old disks have been ejected; which disks are in the drives
is told by the slots.
-/

set_option autoImplicit false

namespace Diskette

structure Drive.Shows (d : Drive) (s : Nat) (disk : Option InsertedDisk) : Prop where
  inserted : d.inserted = disk
  slot : disk.isSome = true → d.slot = some s

theorem Drive.Shows.of_empty {d : Drive} {s : Nat} (h : d.inserted = none) : d.Shows s none where
  inserted := h
  slot hs := by cases hs

namespace Catalog

variable {σ : Type} [SaveStore σ]

/-! ## The slot of a file -/

def saveFor (c : Catalog σ) (name : Option String) : Option Bytes :=
  name.bind fun path =>
    if c.policy.saveEnabled then SaveStore.load c.store (FileName.base path) else none

/-- Decode the save of a file if there is one, or else the file. -/
def decode [Zip.Library] (c : Catalog σ) (name : Option String) (file : Bytes) :
    Except Fault Disk :=
  Disk.ofFile name ((c.saveFor name).getD file) c.codec

def imageFor [Zip.Library] (c : Catalog σ) (slot : Nat) (name : Option String) (file : Bytes) :
    DiskImage where
  name := (name.map FileName.base).getD (namelessImage slot)
  disk := (c.decode name file).toOption
  isSaved := (c.saveFor name).isSome && (c.decode name file).isOk

theorem isPopulated_imageFor [Zip.Library] {c : Catalog σ} (hc : c.codec.IsHosted) (slot : Nat)
    (name : Option String) (file : Bytes) :
    (c.imageFor slot name file).isPopulated = (c.decode name file).isOk := by
  unfold imageFor DiskImage.isPopulated
  cases hd : c.decode name file with
  | ok d => exact (Disk.wellFormed_of_ofFile hc hd).isPopulated
  | error fault => rfl

def released (c : Catalog σ) (slot : Nat) : Catalog σ := (c.ejectFrom slot .a).ejectFrom slot .b

theorem length_slots_released (c : Catalog σ) (slot : Nat) :
    (c.released slot).slots.length = c.slots.length := by
  rw [released, length_slots_ejectFrom, length_slots_ejectFrom]

theorem replace_eq [Zip.Library] {c : Catalog σ} {slot : Nat} (hl : slot < c.slots.length)
    (name : Option String) (file : Bytes) :
    let released := c.released slot
    c.replace slot name file =
      ({ released with slots := released.slots.set slot (released.imageFor slot name file) },
        (released.decode name file).map fun _ => ()) := by
  intro released
  have hsave : (if name.isSome && released.policy.saveEnabled then
      SaveStore.load released.store ((name.map FileName.base).getD (namelessImage slot)) else none) =
      released.saveFor name := by
    cases name <;> simp [saveFor]
  have hreleased : (c.ejectFrom slot .a).ejectFrom slot .b = released := rfl
  unfold replace
  rw [if_neg (Nat.not_le_of_lt hl)]
  simp only [hreleased, hsave]
  unfold imageFor DiskImage.ofFile
  cases hd : released.decode name file with
  | ok d =>
    have hd : Disk.ofFile name ((released.saveFor name).getD file) released.codec = .ok d := hd
    rw [hd]
    simp [bind, Except.bind, Except.toOption, Except.isOk, Except.toBool, Except.map]
  | error fault =>
    have hd : Disk.ofFile name ((released.saveFor name).getD file) released.codec =
        .error fault := hd
    rw [hd]
    simp [bind, Except.bind, Except.toOption, Except.isOk, Except.toBool, Except.map,
      DiskImage.empty]

theorem replace_of_empty [Zip.Library] {c : Catalog σ} (he : ∀ id, (c.drive id).inserted = none)
    {slot : Nat} (hl : slot < c.slots.length) (name : Option String) (file : Bytes) :
    (c.replace slot name file).1 =
      { c with slots := c.slots.set slot (c.imageFor slot name file) } := by
  have hreleased : c.released slot = c := by
    simp [released, ejectFrom, presents_eq_false_of_empty (he _)]
  rw [replace_eq hl, hreleased]

def imagesFor [Zip.Library] (c : Catalog σ) (files : List (Option String × Bytes)) :
    List DiskImage :=
  (files.take (maxSlots - c.slots.length)).mapIdx fun i (name, file) =>
    c.imageFor (c.slots.length + i) name file

def addSlots (c : Catalog σ) (images : List DiskImage) : Catalog σ :=
  { c with slots := c.slots ++ images }

theorem addAll_cons [Zip.Library] {c : Catalog σ} (he : ∀ id, (c.drive id).inserted = none)
    (hl : c.slots.length < maxSlots) (name : Option String) (file : Bytes)
    (files : List (Option String × Bytes)) :
    c.addAll ((name, file) :: files) =
      (c.addSlots [c.imageFor c.slots.length name file]).addAll files := by
  have hlast : c.slots.length < (c.addSlots [{}]).slots.length := by simp [addSlots]
  have hreplace := replace_of_empty (c := c.addSlots [{}]) he hlast name file
  have himage : (c.addSlots [{}]).imageFor c.slots.length name file =
      c.imageFor c.slots.length name file := rfl
  rw [addAll, add, if_neg (Nat.not_le_of_lt hl)]
  change ((c.addSlots [{}]).replace c.slots.length name file).1.addAll files = _
  rw [hreplace, himage]
  simp [addSlots]

theorem imagesFor_cons [Zip.Library] {c : Catalog σ} (hl : c.slots.length < maxSlots)
    (name : Option String) (file : Bytes) (files : List (Option String × Bytes)) :
    c.imagesFor ((name, file) :: files) = c.imageFor c.slots.length name file ::
      (c.addSlots [c.imageFor c.slots.length name file]).imagesFor files := by
  have hlength : ∀ image, (c.addSlots [image]).slots.length = c.slots.length + 1 := by
    simp [addSlots]
  have hroom : maxSlots - c.slots.length = maxSlots - (c.slots.length + 1) + 1 := by omega
  unfold imagesFor
  rw [hlength, hroom, List.take_succ_cons, List.mapIdx_cons]
  simp only [Nat.add_assoc, Nat.add_comm 1]
  rfl

theorem addAll_of_empty [Zip.Library] (files : List (Option String × Bytes)) {c : Catalog σ}
    (he : ∀ id, (c.drive id).inserted = none) (hl : c.slots.length ≤ maxSlots) :
    c.addAll files = (c.addSlots (c.imagesFor files),
      if c.slots.length + files.length ≤ maxSlots then .ok () else .error .catalogFull) := by
  induction files generalizing c with
  | nil => simp [addAll, addSlots, imagesFor, hl]
  | cons head files ih =>
    obtain ⟨name, file⟩ := head
    by_cases hfull : maxSlots ≤ c.slots.length
    · have hroom : maxSlots - c.slots.length = 0 := Nat.sub_eq_zero_of_le hfull
      have hmore : ¬c.slots.length + ((name, file) :: files).length ≤ maxSlots := by
        rw [List.length_cons]
        omega
      rw [addAll, add, if_pos hfull, if_neg hmore, imagesFor, hroom]
      simp [Outcome.andThen, addSlots]
    · have hlt : c.slots.length < maxSlots := Nat.lt_of_not_le hfull
      have hlength : (c.addSlots [c.imageFor c.slots.length name file]).slots.length =
          c.slots.length + 1 := by simp [addSlots]
      have htail := ih (c := c.addSlots [c.imageFor c.slots.length name file]) he
        (hlength.trans_le hlt)
      rw [addAll_cons he hlt, imagesFor_cons hlt, htail, hlength]
      simp [addSlots, Nat.add_assoc, Nat.add_comm 1]

/-! ## The drives -/

theorem presents_iff_of_shows {d : Drive} {s : Nat} {disk : Option InsertedDisk} {p : Bool}
    (h : d.Shows s (if p then disk else none)) (t : Nat) :
    d.presents t = true ↔ p = true ∧ disk.isSome = true ∧ t = s := by
  rw [presents_eq_true_iff, Drive.isInserted, h.inserted, ← and_assoc]
  have hdisk : (if p then disk else none).isSome = true ↔ p = true ∧ disk.isSome = true := by
    cases p <;> simp
  rw [← hdisk]
  apply and_congr_right
  intro hd
  rw [h.slot hd, Option.some_inj, eq_comm]

theorem eq_some_of_shows {d : Drive} {s : Nat} {disk : Option InsertedDisk} {p : Bool}
    (h : d.Shows s (if p then disk else none)) {i : InsertedDisk} (hi : d.inserted = some i) :
    d.presents s = true ∧ disk = some i := by
  have hdisk := h.inserted.symm.trans hi
  cases p with
  | false => cases hdisk
  | true => exact ⟨presents_eq_true_of (h.slot (Option.isSome_of_eq_some hdisk)) hi, hdisk⟩

theorem select_of_not_presents {c : Catalog σ} {id : DriveId} {s : Nat} (hl : s < c.slots.length)
    (hp : (c.drive id).presents s = false) :
    let ejected := c.eject id true
    c.select id s = (ejected.setDrive id { ejected.drive id with slot := some s }, .ok ()) := by
  intro ejected
  rw [select, if_neg (Nat.not_le_of_lt hl)]
  split
  · rename_i hs
    have he : (c.drive id).inserted = none := by
      cases hi : (c.drive id).inserted with
      | none => rfl
      | some i =>
        rw [presents_eq_true_of hs hi] at hp
        cases hp
    have hejected : ejected = c := eject_of_empty he true
    rw [hejected, ← hs, setDrive_drive]
  · rfl

theorem select_of_empty {c : Catalog σ} {id : DriveId} (he : (c.drive id).inserted = none) {s : Nat}
    (hl : s < c.slots.length) :
    c.select id s = (c.setDrive id { c.drive id with slot := some s }, .ok ()) := by
  rw [select_of_not_presents hl (presents_eq_false_of_empty he s), eject_of_empty he]

theorem setInserted_of_selected {c : Catalog σ} (id : DriveId) {s : Nat}
    (he : (c.drive id).inserted = none) (ho : (c.drive id.other).presents s = false) :
    ∃ d : Drive, d.Shows s (c.working? s) ∧
      (c.setDrive id { c.drive id with slot := some s }).setInserted id true = (c.setDrive id d,
        if (c.working? s).isSome then .ok () else .error .imageUnavailable) := by
  let selected := c.setDrive id { c.drive id with slot := some s }
  have hslot : (selected.drive id).slot = some s := by simp [selected]
  have hempty : (selected.drive id).isInserted = false := by
    simp [selected, Drive.isInserted, he]
  have hreserved : selected.Reserved id := by
    intro t ht
    cases hslot.symm.trans ht
    simpa [selected] using ho
  have hinsert := insert_of_reserved hreserved hempty hslot
  have hworking : selected.working? s = c.working? s := by simp [working?, selected]
  change ∃ d : Drive, d.Shows s (c.working? s) ∧ selected.insert id = _
  rw [hinsert, hworking]
  cases c.working? s with
  | none => exact ⟨{ c.drive id with slot := some s }, .of_empty he, rfl⟩
  | some i =>
    refine ⟨(c.drive id).insert s i c.tick, ⟨rfl, fun _ => rfl⟩, ?_⟩
    simp [selected, setDrive_setDrive, Drive.insert, Drive.put]

theorem succ_mod_ne {n first : Nat} (h : 1 < n) (hf : first < n) : (first + 1) % n ≠ first := by
  by_cases hlast : first + 1 = n
  · rw [hlast, Nat.mod_self]
    omega
  · rw [Nat.mod_eq_of_lt (by omega)]
    omega

theorem insertSecond_eq {c : Catalog σ} {first : Nat} (hf : first < c.slots.length)
    (ha : ∀ s, (c.drive .a).presents s = true → s = first)
    (hb : (c.drive .b).inserted = none) :
    let second := (first + 1) % c.slots.length
    ∃ d : Drive, d.Shows second (if c.policy.driveBEnabled && 1 < c.slots.length then
        c.working? second else none) ∧ c.insertSecond first = (c.setDrive .b d, .ok ()) := by
  intro second
  by_cases h : (c.policy.driveBEnabled && 1 < c.slots.length) = true
  · have hn : 1 < c.slots.length := by simp_all
    have hfree : (c.drive .a).presents second = false := by
      apply Bool.eq_false_iff.mpr
      intro hp
      exact succ_mod_ne hn hf (ha second hp)
    obtain ⟨d, hd, hinsert⟩ := setInserted_of_selected .b hb hfree
    refine ⟨d, ?_, ?_⟩
    · rwa [if_pos h]
    · rw [insertSecond, if_pos h, select_of_empty hb (Nat.mod_lt _ (by omega))]
      dsimp only [Outcome.andThen]
      rw [hinsert]
  · rw [if_neg h]
    refine ⟨c.drive .b, .of_empty hb, ?_⟩
    rw [insertSecond, if_neg h, setDrive_drive]

/-- Nothing has changed but the drives. If all went well they hold the disks of two slots, one after
the other; otherwise nothing. -/
structure Presented (c : Catalog σ) (first : Nat) (o : Outcome σ Unit) : Prop where
  drives : ∃ a b, o.1 = (c.setDrive .a a).setDrive .b b
  driveA : o.1.driveA.Shows first (if o.2.isOk then c.working? first else none)
  driveB : o.1.driveB.Shows ((first + 1) % c.slots.length)
    (if o.2.isOk && (c.policy.driveBEnabled && 1 < c.slots.length) then
      c.working? ((first + 1) % c.slots.length) else none)

omit [SaveStore σ] in
theorem Presented.of_error {c : Catalog σ} (he : ∀ id, (c.drive id).inserted = none) (first : Nat)
    (fault : Fault) : c.Presented first (c, .error fault) where
  drives := ⟨c.driveA, c.driveB, rfl⟩
  driveA := .of_empty (he .a)
  driveB := .of_empty (he .b)

def present (c : Catalog σ) (first : Nat) : Outcome σ Unit :=
  Outcome.andThen (c.select .a first) fun c _ =>
  Outcome.andThen (c.setInserted .a true) fun c _ =>
  c.insertSecond first

theorem presented_present {c : Catalog σ} (he : ∀ id, (c.drive id).inserted = none) {first : Nat}
    (hf : first < c.slots.length) :
    c.Presented first (c.present first) ∧ (c.present first).2 =
      if (c.working? first).isSome then .ok () else .error .imageUnavailable := by
  have hfree := presents_eq_false_of_empty (he .b) first
  obtain ⟨a, ha, hinsert⟩ := setInserted_of_selected .a (he .a) hfree
  have hb : (c.setDrive .a a).driveB.inserted = none := he .b
  unfold present
  rw [select_of_empty (he .a) hf]
  dsimp only [Outcome.andThen]
  rw [hinsert]
  cases hd : c.working? first with
  | none =>
    rw [hd] at ha
    exact ⟨⟨⟨a, c.driveB, rfl⟩, ha, .of_empty hb⟩, rfl⟩
  | some i =>
    have honly : ∀ s, (c.setDrive .a a).driveA.presents s = true → s = first := by
      intro s hs
      have hslot : a.slot = some first := ha.slot (Option.isSome_of_eq_some hd)
      exact Option.some.inj ((slot_of_presents hs).symm.trans hslot)
    obtain ⟨b, hb, hsecond⟩ := insertSecond_eq (c := c.setDrive .a a) hf honly hb
    change Presented c first ((c.setDrive .a a).insertSecond first) ∧
      ((c.setDrive .a a).insertSecond first).2 = .ok ()
    rw [hsecond]
    exact ⟨⟨⟨a, b, rfl⟩, ha, hb⟩, rfl⟩

/-! ## The whole playlist -/

def shelved [Zip.Library] (c : Catalog σ) (files : List (Option String × Bytes)) : Catalog σ :=
  c.clear.addSlots (c.clear.imagesFor files)

theorem inserted_shelved [Zip.Library] (c : Catalog σ) (files : List (Option String × Bytes))
    (id : DriveId) :
    ((c.shelved files).drive id).inserted = none :=
  (drive_unload_both c id).1

theorem policy_shelved [Zip.Library] (c : Catalog σ) (files : List (Option String × Bytes)) :
    (c.shelved files).policy = c.policy := by
  simp [shelved, addSlots, clear, unload]

theorem slots_shelved [Zip.Library] (c : Catalog σ) (files : List (Option String × Bytes)) :
    (c.shelved files).slots =
      (files.take maxSlots).mapIdx fun i (name, file) => c.clear.imageFor i name file := by
  change [] ++ c.clear.imagesFor files = _
  rw [List.nil_append, imagesFor]
  change (files.take (maxSlots - 0)).mapIdx (fun i f => c.clear.imageFor (0 + i) f.1 f.2) = _
  simp

theorem length_shelved [Zip.Library] (c : Catalog σ) (files : List (Option String × Bytes)) :
    (c.shelved files).slots.length = min files.length maxSlots := by
  simp [slots_shelved, Nat.min_comm]

theorem addAll_clear [Zip.Library] (c : Catalog σ) (files : List (Option String × Bytes)) :
    c.clear.addAll files = (c.shelved files,
      if files.length ≤ maxSlots then .ok () else .error .catalogFull) := by
  have he : ∀ id, (c.clear.drive id).inserted = none := fun id => (drive_unload_both c id).1
  have hlength : c.clear.slots.length = 0 := rfl
  rw [addAll_of_empty files he (Nat.zero_le _), hlength, Nat.zero_add, shelved]

theorem presented_loadPlaylist [Zip.Library] (c : Catalog σ) (start : Nat)
    (files : List (Option String × Bytes)) (first : Nat)
    (hfirst : first = if start < files.length then start else 0) :
    (c.shelved files).Presented first (c.loadPlaylist start files) ∧
      (c.loadPlaylist start files).2 =
        if maxSlots < files.length then .error .catalogFull
        else if files.length = 0 then .error .noImageSelected
        else if ((c.shelved files).working? first).isSome then .ok ()
        else .error .imageUnavailable := by
  have he := c.inserted_shelved files
  unfold loadPlaylist
  rw [addAll_clear]
  by_cases hfull : maxSlots < files.length
  · rw [if_neg (Nat.not_le_of_lt hfull), if_pos hfull]
    exact ⟨.of_error he first .catalogFull, rfl⟩
  · have hfits : files.length ≤ maxSlots := Nat.le_of_not_lt hfull
    have hlength : (c.shelved files).slots.length = files.length := by
      rw [length_shelved, Nat.min_eq_left hfits]
    rw [if_pos hfits, if_neg hfull]
    dsimp only [Outcome.andThen]
    by_cases hnone : files.length = 0
    · have hempty : (c.shelved files).slots.isEmpty = true := by
        rw [List.isEmpty_iff_length_eq_zero, hlength, hnone]
      rw [if_pos hempty, if_pos hnone]
      exact ⟨.of_error he first .noImageSelected, rfl⟩
    · have hsome : ¬(c.shelved files).slots.isEmpty = true := by
        rw [List.isEmpty_iff_length_eq_zero, hlength]
        exact hnone
      have hf : first < (c.shelved files).slots.length := by
        rw [hlength, hfirst]
        split
        · assumption
        · exact Nat.pos_of_ne_zero hnone
      rw [if_neg hsome, if_neg hnone, hlength, ← hfirst]
      exact presented_present he hf

theorem fits_of_loadPlaylist_ok [Zip.Library] {c : Catalog σ} {start first : Nat}
    {files : List (Option String × Bytes)}
    (hfirst : first = if start < files.length then start else 0)
    (h : (c.loadPlaylist start files).2 = .ok ()) :
    files.length ≤ maxSlots ∧ ((c.shelved files).working? first).isSome = true := by
  rw [(c.presented_loadPlaylist start files first hfirst).2] at h
  by_cases hfull : maxSlots < files.length
  · rw [if_pos hfull] at h
    cases h
  · rw [if_neg hfull] at h
    split at h
    · cases h
    · split at h
      · rename_i hsome
        exact ⟨Nat.le_of_not_lt hfull, hsome⟩
      · cases h

/-! ## What the files decide -/

def decodes [Zip.Library] (c : Catalog σ) (files : List (Option String × Bytes)) (i : Nat) : Bool :=
  (files[i]?).any fun (name, file) => (c.decode name file).isOk

theorem isPopulated_shelved [Zip.Library] {c : Catalog σ} (hc : c.codec.IsHosted)
    {files : List (Option String × Bytes)} {i : Nat} {image : DiskImage}
    (h : (c.shelved files).slots[i]? = some image) :
    image.isPopulated = c.clear.decodes files i := by
  rw [slots_shelved, List.getElem?_mapIdx] at h
  obtain ⟨⟨name, file⟩, hf, rfl⟩ := Option.map_eq_some_iff.mp h
  have hcodec : c.clear.codec = c.codec := by simp [clear, unload]
  have hfile : files[i]? = some (name, file) := by
    rw [List.getElem?_take] at hf
    split at hf
    · exact hf
    · cases hf
  rw [decodes, hfile]
  exact isPopulated_imageFor (hcodec ▸ hc) i name file

theorem isSome_working?_shelved [Zip.Library] {c : Catalog σ} (hc : c.codec.IsHosted)
    {files : List (Option String × Bytes)} (hn : files.length ≤ maxSlots) (i : Nat) :
    ((c.shelved files).working? i).isSome = c.clear.decodes files i := by
  unfold working?
  cases h : (c.shelved files).slots[i]? with
  | none =>
    rw [slots_shelved, List.getElem?_mapIdx, Option.map_eq_none_iff, List.take_of_length_le hn] at h
    rw [decodes, h]
    rfl
  | some image =>
    rw [← isPopulated_shelved hc h]
    exact image.isSome_working?

/-- Loading a playlist. How it ends, the slots and the drives are told by the files, the saves that
are there once the catalog is cleared, and the settings. -/
theorem loadPlaylist_determined [Zip.Library] (c : Catalog σ) (hc : c.codec.IsHosted) (start : Nat)
    (files : List (Option String × Bytes)) (c' : Catalog σ) (result : Except Fault Unit)
    (h : c.loadPlaylist start files = (c', result)) :
    let first := if start < files.length then start else 0
    let second := (first + 1) % files.length
    result = (if maxSlots < files.length then .error .catalogFull
      else if files.length = 0 then .error .noImageSelected
      else if c.clear.decodes files first then .ok ()
      else .error .imageUnavailable) ∧
    c'.slots.length = min files.length maxSlots ∧
    c'.slots = (files.take maxSlots).mapIdx (fun i (name, file) => c.clear.imageFor i name file) ∧
    (∀ i image, c'.slots[i]? = some image → image.isPopulated = c.clear.decodes files i) ∧
    c'.store = c.clear.store ∧
    (∀ s, c'.driveA.presents s = true ↔ result = .ok () ∧ s = first) ∧
    (∀ s, c'.driveB.presents s = true ↔ result = .ok () ∧ s = second ∧
      c.policy.driveBEnabled = true ∧ 1 < files.length ∧ c.clear.decodes files second = true) ∧
    ∀ id i, (c'.drive id).inserted = some i →
      ∃ s, (c'.drive id).presents s = true ∧ c'.working? s = some i := by
  intro first second
  obtain ⟨hpresented, hresult⟩ := c.presented_loadPlaylist start files first rfl
  rw [h] at hpresented hresult
  obtain ⟨⟨a, b, rfl⟩, hA, hB⟩ := hpresented
  dsimp only at hresult hA hB
  refine ⟨?_, c.length_shelved files, c.slots_shelved files, fun _ _ => isPopulated_shelved hc,
    rfl, ?_⟩
  · rw [hresult]
    split
    · rfl
    · rename_i hfull
      rw [isSome_working?_shelved hc (Nat.le_of_not_lt hfull)]
  have hisOk : result.isOk = true ↔ result = .ok () := by
    cases result <;> simp [Except.isOk, Except.toBool]
  have hfirst : result = .ok () →
      files.length ≤ maxSlots ∧ ((c.shelved files).working? first).isSome = true := by
    intro hok
    exact fits_of_loadPlaylist_ok rfl ((congrArg Prod.snd h).trans hok)
  refine ⟨?_, ?_, ?_⟩
  · intro s
    rw [presents_iff_of_shows hA, hisOk]
    exact ⟨fun hs => ⟨hs.1, hs.2.2⟩, fun hs => ⟨hs.1, (hfirst hs.1).2, hs.2⟩⟩
  · intro s
    rw [presents_iff_of_shows hB, Bool.and_eq_true, Bool.and_eq_true, hisOk, policy_shelved,
      decide_eq_true_eq]
    by_cases hok : result = .ok ()
    · have hn := (hfirst hok).1
      rw [length_shelved, Nat.min_eq_left hn, isSome_working?_shelved hc hn]
      tauto
    · simp [hok]
  · intro id i hi
    cases id with
    | a =>
      obtain ⟨hp, hd⟩ := eq_some_of_shows hA hi
      exact ⟨_, hp, hd⟩
    | b =>
      obtain ⟨hp, hd⟩ := eq_some_of_shows hB hi
      exact ⟨_, hp, hd⟩

open scoped Zip.Reader in
/-- The first of three files has a save, the second does not decode, and the third has no name. As
the last one goes into drive A, the first one goes into drive B. -/
theorem loadPlaylist_determined_saved :
    let save := Bytes.overwrite Disk.twoSectors 512 [1, 2, 3]
    let c := new {} (SaveStore.store ({} : MemoryStore) "a.st" save).1
    let files := [(some "disks/a.st", Disk.twoSectors), (some "b.st", [0]), (none, Disk.twoSectors)]
    let o := c.loadPlaylist 2 files
    o.2 = .ok () ∧ o.1.slots.length = 3 ∧
      o.1.slots.map (·.name) = ["a.st", "b.st", "<Image 2>.st"] ∧
      o.1.slots.map (·.data) = [save, [], Disk.twoSectors] ∧
      o.1.slots.map (·.isSaved) = [true, false, false] ∧ o.1.driveA.presents 2 = true ∧
      o.1.driveB.presents 0 = true := by
  intro save c files o
  obtain ⟨hresult, hlength, hslots, -, -, hA, hB, -⟩ :=
    loadPlaylist_determined c .unavailable 2 files o.1 o.2 Prod.mk.eta.symm
  have hdecodes : c.clear.decodes files 2 = true ∧ c.clear.decodes files 0 = true := by
    decide +kernel
  have hpolicy : c.policy.driveBEnabled = true := by decide +kernel
  have hfiles : files.length = 3 := rfl
  have hfirst : (if 2 < files.length then 2 else 0) = 2 := rfl
  have hsecond : (2 + 1) % files.length = 0 := by rw [hfiles]
  rw [hfirst, hsecond] at hB
  rw [hfirst] at hA hresult
  have hok : o.2 = .ok () := by
    rw [hresult, if_neg (by decide), if_neg (by decide), if_pos hdecodes.1]
  refine ⟨hok, hlength, ?_, ?_, ?_, (hA 2).mpr ⟨hok, rfl⟩, (hB 0).mpr ⟨hok, rfl, hpolicy, ?_, ?_⟩⟩
  · rw [hslots]
    decide +kernel
  · rw [hslots]
    decide +kernel
  · rw [hslots]
    decide +kernel
  · decide
  · exact hdecodes.2

open scoped Zip.Reader in
/-- A save that does not decode goes before the file all the same, and leaves the slot empty and not
marked as saved. -/
theorem loadPlaylist_undecodable_save :
    let c := new {} (SaveStore.store ({} : MemoryStore) "x.st" [0]).1
    let c' := (c.loadPlaylist 0 [(some "x.st", Disk.twoSectors)]).1
    c.clear.saveFor (some "x.st") = some [0] ∧ c'.slots.map (·.isSaved) = [false] := by
  decide +kernel

end Catalog

end Diskette
