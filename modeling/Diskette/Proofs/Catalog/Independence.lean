import Diskette.Proofs.Catalog.Insertion
import Diskette.Proofs.SaveStore.Map
import Diskette.Zip.Reader

/-!
# The two drives are independent

An operation on a drive looks at nothing but the drive, the slot that it has selected and the
settings of the host, and changes nothing but that drive and that slot; to the save store it hands
one file at most. So operations on the two drives may change places, as long as the drives have not
selected the same slot and do not save under the same name.
-/

set_option autoImplicit false

namespace Diskette

def DiskImage.working? (image : DiskImage) : Option InsertedDisk :=
  (image.disk.filter Disk.isPopulated).map (.ofDisk image.name · image.isSaved)

theorem DiskImage.isSome_working? (image : DiskImage) :
    image.working?.isSome = image.isPopulated := by
  unfold working? isPopulated
  cases image.disk with
  | none => rfl
  | some disk => cases hd : disk.isPopulated <;> simp [hd]

theorem DiskImage.working?_of_disk {image : DiskImage} {disk : Disk} (h : image.disk = some disk)
    (hp : disk.isPopulated = true) :
    image.working? = some (.ofDisk image.name disk image.isSaved) := by
  rw [working?, h, Option.filter_some_pos hp, Option.map_some]

theorem DiskImage.data_of_working? {image : DiskImage} {i : InsertedDisk}
    (h : image.working? = some i) : i.disk.data = image.data := by
  obtain ⟨disk, hd, rfl⟩ := Option.map_eq_some_iff.mp h
  rw [data, (Option.filter_eq_some_iff.mp hd).1]
  rfl

namespace Catalog

def Operation.Uses : Operation → DriveId → Prop
  | .read drive _ _, id | .write drive _ _, id | .setInserted drive _, id
  | .setWriteProtected drive _, id | .lineOverride drive, id | .lineSignal drive, id => drive = id
  | _, _ => False

theorem Operation.Uses.setInserted (id : DriveId) (inserted : Bool) :
    (Operation.setInserted id inserted).Uses id := rfl

/-- What an operation on a drive depends on. -/
structure View where
  drive : Drive
  image : Option DiskImage
  policy : Policy
  tick : UInt64

/-- What an operation on a drive changes, and how it answers. -/
structure Effect where
  drive : Drive
  put : Option (Nat × DiskImage) := none
  save : Option (String × Bytes) := none
  reply : Reply

variable {σ : Type}

def working? (c : Catalog σ) (s : Nat) : Option InsertedDisk :=
  (c.slots[s]?).bind DiskImage.working?

def view (c : Catalog σ) (id : DriveId) : View where
  drive := c.drive id
  image := (c.drive id).slot.bind (c.slots[·]?)
  policy := c.policy
  tick := c.tick

/-- The drives have not selected the same slot. -/
def Apart (c : Catalog σ) : Prop :=
  ∀ id s, (c.drive id).slot = some s → (c.drive id.other).slot ≠ some s

namespace Effect

def slots (e : Effect) (slots : List DiskImage) : List DiskImage :=
  match e.put with
  | some (s, image) => slots.set s image
  | none => slots

variable [SaveStore σ]

def store (e : Effect) (store : σ) : σ :=
  match e.save with
  | some (name, file) => (SaveStore.store store name file).1
  | none => store

def apply (e : Effect) (id : DriveId) (c : Catalog σ) : Catalog σ :=
  { c.setDrive id e.drive with
    slots := e.slots (c.setDrive id e.drive).slots
    store := e.store (c.setDrive id e.drive).store }

end Effect

def Reserved (c : Catalog σ) (id : DriveId) : Prop :=
  ∀ s, (c.drive id).slot = some s → (c.drive id.other).presents s = false

variable [SaveStore σ]

/-- The effect of an operation on a drive, in any catalog that looks the same to it. -/
structure Acts [Zip.Library] (σ : Type) [SaveStore σ] (op : Operation) (id : DriveId) (v : View)
    (e : Effect) :
    Prop where
  slot : e.drive.slot = v.drive.slot
  put : ∀ s image, e.put = some (s, image) → v.drive.slot = some s
  save : ∀ name file, e.save = some (name, file) → op = .setInserted id false ∧
    ∃ i, v.drive.inserted = some i ∧ i.isModified = true ∧ i.name = name
  step : ∀ c : Catalog σ, c.view id = v → c.Reserved id → c.step op = (e.apply id c, e.reply)

namespace Acts

variable {op : Operation} {id : DriveId} {v : View}

theorem of_drive [Zip.Library] (d : Drive) (reply : Reply) (hd : d.slot = v.drive.slot)
    (h : ∀ c : Catalog σ, c.view id = v → c.Reserved id → c.step op = (c.setDrive id d, reply)) :
    Acts σ op id v { drive := d, reply := reply } where
  slot := hd
  put s image hp := by cases hp
  save name file hs := by cases hs
  step := h

end Acts

/-! ## Sectors and the write-protect line -/

def View.held (v : View) : Drive × Bool :=
  if v.policy.writeProtection || v.drive.isWriteProtected then (v.drive, true)
  else (v.drive.updateTimer v.tick, v.drive.timer.lineOverride v.tick == .forceProtected)

omit [SaveStore σ] in
theorem write_eq_held (c : Catalog σ) (id : DriveId) (a : Address) (data : Bytes) :
    c.write id a data =
      match (c.view id).held.1.write a data (c.view id).held.2 with
      | .ok d => (c.setDrive id d, .ok ())
      | .error fault => (c.setDrive id (c.view id).held.1, .error fault) := by
  unfold write
  by_cases hp : c.isSetProtected id = true
  · have hheld : (c.view id).held = (c.drive id, true) := if_pos hp
    rw [if_pos hp, hheld]
    dsimp only
    cases (c.drive id).write a data true with
    | ok d => rfl
    | error fault => rw [setDrive_drive]
  · have hheld : (c.view id).held = ((c.drive id).updateTimer c.tick,
        (c.drive id).timer.lineOverride c.tick == .forceProtected) := if_neg hp
    rw [if_neg hp, hheld]
    dsimp only [lineOverride]
    rw [drive_setDrive_self]
    cases ((c.drive id).updateTimer c.tick).write a data
        ((c.drive id).timer.lineOverride c.tick == .forceProtected) with
    | ok d => exact congrArg (·, _) (setDrive_setDrive c id _ d)
    | error fault => rfl

theorem View.slot_held (v : View) : v.held.1.slot = v.drive.slot := by
  unfold held
  split <;> rfl

theorem exists_acts_write [Zip.Library] (id : DriveId) (a : Address) (data : Bytes) (v : View) :
    ∃ e, Acts σ (.write id a data) id v e := by
  cases hw : v.held.1.write a data v.held.2 with
  | ok d =>
    obtain ⟨-, i, -, -, -, hd⟩ := Drive.write_eq_ok hw
    have hslot : d.slot = v.drive.slot := by
      rw [hd]
      exact v.slot_held
    refine ⟨_, .of_drive d (.done (.ok ())) hslot ?_⟩
    rintro c rfl -
    simp only [step, write_eq_held, hw]
    rfl
  | error fault =>
    refine ⟨_, .of_drive v.held.1 (.done (.error fault)) v.slot_held ?_⟩
    rintro c rfl -
    simp only [step, write_eq_held, hw]
    rfl

def View.lineLevel (v : View) : Bool :=
  if v.drive.timer.lineOverride v.tick = .none then
    !v.drive.isInserted || (v.policy.writeProtection || v.drive.isWriteProtected)
  else v.drive.timer.lineOverride v.tick == .forceProtected

omit [SaveStore σ] in
theorem lineSignal_eq (c : Catalog σ) (id : DriveId) :
    c.lineSignal id =
      (c.setDrive id ((c.drive id).updateTimer c.tick), (c.view id).lineLevel) := by
  unfold lineSignal View.lineLevel view
  dsimp only [lineOverride]
  cases (c.drive id).timer.lineOverride c.tick with
  | none =>
    simp only [isSetProtected, drive_setDrive_self, policy_setDrive]
    rfl
  | forceProtected => rfl
  | forceUnprotected => rfl

theorem exists_acts_lineSignal [Zip.Library] (id : DriveId) (v : View) :
    ∃ e, Acts σ (.lineSignal id) id v e := by
  refine ⟨_, .of_drive (v.drive.updateTimer v.tick) (.lineSignal v.lineLevel) rfl ?_⟩
  rintro c rfl -
  change (c.lineSignal id).map _ _ = _
  rw [lineSignal_eq]
  rfl

/-! ## Inserting and ejecting -/

theorem insert_of_inserted {c : Catalog σ} {id : DriveId} (h : (c.drive id).isInserted = true) :
    c.insert id = (c, .ok ()) := by
  rw [insert, if_pos h]

theorem insert_of_no_slot {c : Catalog σ} {id : DriveId} (he : (c.drive id).isInserted = false)
    (hs : (c.drive id).slot = none) : c.insert id = (c, .error .noImageSelected) := by
  simp [insert, he, hs]

theorem insert_of_reserved {c : Catalog σ} {id : DriveId} {s : Nat} (hr : c.Reserved id)
    (he : (c.drive id).isInserted = false) (hs : (c.drive id).slot = some s) :
    c.insert id =
      match c.working? s with
      | none => (c, .error .imageUnavailable)
      | some i => (c.setDrive id ((c.drive id).insert s i c.tick), .ok ()) := by
  have hfrom : c.ejectFrom s id.other = c := by simp [ejectFrom, hr s hs]
  simp only [insert, working?, he, hs, hfrom, Bool.false_eq_true, if_false]
  cases c.slots[s]? with
  | none => rfl
  | some image =>
    dsimp only [DiskImage.working?, Option.bind_some]
    cases image.disk.filter Disk.isPopulated <;> rfl

theorem exists_acts_insert [Zip.Library] (id : DriveId) (v : View) :
    ∃ e, Acts σ (.setInserted id true) id v e := by
  cases he : v.drive.isInserted with
  | true =>
    refine ⟨_, .of_drive v.drive (.done (.ok ())) rfl ?_⟩
    rintro c rfl -
    change (c.insert id).map _ _ = (c.setDrive id (c.drive id), _)
    rw [insert_of_inserted he, setDrive_drive]
    rfl
  | false =>
    cases hs : v.drive.slot with
    | none =>
      refine ⟨_, .of_drive v.drive (.done (.error .noImageSelected)) rfl ?_⟩
      rintro c rfl -
      change (c.insert id).map _ _ = (c.setDrive id (c.drive id), _)
      rw [insert_of_no_slot he hs, setDrive_drive]
      rfl
    | some s =>
      have hview : ∀ c : Catalog σ, c.view id = v →
          c.working? s = v.image.bind DiskImage.working? := by
        rintro c rfl
        have hs : (c.drive id).slot = some s := hs
        simp [working?, view, hs]
      cases hd : v.image.bind DiskImage.working? with
      | none =>
        refine ⟨_, .of_drive v.drive (.done (.error .imageUnavailable)) rfl ?_⟩
        intro c hc hr
        change (c.insert id).map _ _ = _
        subst hc
        rw [insert_of_reserved hr he hs, hview c rfl, hd]
        exact congrArg (·, _) (setDrive_drive c id).symm
      | some i =>
        refine ⟨_, .of_drive (v.drive.insert s i v.tick) (.done (.ok ())) hs.symm ?_⟩
        rintro c rfl hr
        change (c.insert id).map _ _ = _
        rw [insert_of_reserved hr he hs, hview c rfl, hd]
        rfl

def View.returned (v : View) (i : InsertedDisk) : Option (Nat × DiskImage) :=
  match v.drive.slot, v.image with
  | some s, some image =>
    if image.name = i.name then some (s, { i.toImage with isSaved := true }) else none
  | _, _ => none

omit [SaveStore σ] in
theorem slot_of_returned {v : View} {i : InsertedDisk} {s : Nat} {image : DiskImage}
    (h : v.returned i = some (s, image)) : v.drive.slot = some s := by
  unfold View.returned at h
  split at h
  · rename_i hs _
    split at h
    · cases h
      exact hs
    · cases h
  · cases h

omit [SaveStore σ] in
theorem putBack_eq_returned {c d : Catalog σ} (h : d.slots = c.slots) (id : DriveId)
    (i : InsertedDisk) : d.putBack (c.drive id).slot i =
      { d with slots := match (c.view id).returned i with
        | some (s, image) => d.slots.set s image
        | none => d.slots } := by
  unfold putBack View.returned view
  cases (c.drive id).slot with
  | none => rfl
  | some s =>
    dsimp only [Option.bind_some]
    rw [h]
    cases c.slots[s]? with
    | none => exact congrArg (fun l => { d with slots := l }) h
    | some image =>
      dsimp only
      split
      · rfl
      · exact congrArg (fun l => { d with slots := l }) h

theorem eject_of_isKept {c : Catalog σ} {id : DriveId} {i : InsertedDisk} {file : Bytes}
    (hi : (c.drive id).inserted = some i) (hk : i.isKept = true)
    (hf : i.disk.encode i.disk.format = .ok file) :
    c.eject id true =
      ({ c.setDrive id ((c.drive id).eject c.tick) with
        store := if c.policy.saveEnabled then (SaveStore.store c.store i.name file).1
          else c.store } : Catalog σ).putBack (c.drive id).slot i := by
  simp only [InsertedDisk.isKept, Bool.and_eq_true] at hk
  rw [eject_of_inserted hi, if_pos ⟨hk.1.1, rfl⟩, persist, hk.1.2, hf]
  simp

theorem exists_acts_eject [Zip.Library] (id : DriveId) (v : View) :
    ∃ e, Acts σ (.setInserted id false) id v e := by
  cases hi : v.drive.inserted with
  | none =>
    refine ⟨_, .of_drive v.drive (.done (.ok ())) rfl ?_⟩
    rintro c rfl -
    change (c.eject id true, Reply.done (.ok ())) = (c.setDrive id (c.drive id), _)
    rw [eject_of_empty hi, setDrive_drive]
  | some i =>
    cases hk : i.isKept with
    | false =>
      refine ⟨_, .of_drive (v.drive.eject v.tick) (.done (.ok ())) rfl ?_⟩
      rintro c rfl -
      change (c.eject id true, Reply.done (.ok ())) = _
      rw [eject_of_not_isKept hi hk]
      rfl
    | true =>
      have hmod : i.isModified = true ∧ (i.disk.encode i.disk.format).isOk = true := by
        simp only [InsertedDisk.isKept, Bool.and_eq_true] at hk
        exact ⟨hk.1.1, hk.2⟩
      obtain ⟨file, hfile⟩ := exists_of_isOk hmod.2
      refine ⟨{
        drive := v.drive.eject v.tick
        put := v.returned i
        save := if v.policy.saveEnabled then some (i.name, file) else none
        reply := .done (.ok ()) }, rfl, fun s image => slot_of_returned, ?_, ?_⟩
      · intro name file' hs
        dsimp only at hs
        split at hs
        · cases hs
          exact ⟨rfl, i, hi, hmod.1, rfl⟩
        · cases hs
      · rintro c rfl -
        change (c.eject id true, Reply.done (.ok ())) = _
        rw [eject_of_isKept hi hk hfile, putBack_eq_returned (c := c) (by simp)]
        have hpolicy : (c.view id).policy = c.policy := rfl
        unfold Effect.apply Effect.slots Effect.store
        rw [hpolicy, store_setDrive]
        cases c.policy.saveEnabled <;> rfl

variable (σ) in
theorem exists_acts [Zip.Library] {op : Operation} {id : DriveId} (h : op.Uses id) (v : View) :
    ∃ e, Acts σ op id v e := by
  cases op with
  | read drive a count =>
    obtain rfl : drive = id := h
    refine ⟨_, .of_drive v.drive (.bytes (v.drive.read a count)) rfl ?_⟩
    rintro c rfl -
    rw [view, setDrive_drive]
    rfl
  | write drive a data =>
    obtain rfl : drive = id := h
    exact exists_acts_write drive a data v
  | setInserted drive inserted =>
    obtain rfl : drive = id := h
    cases inserted with
    | true => exact exists_acts_insert drive v
    | false => exact exists_acts_eject drive v
  | setWriteProtected drive on =>
    obtain rfl : drive = id := h
    refine ⟨_, .of_drive { v.drive with isWriteProtected := on } .silent rfl ?_⟩
    rintro c rfl -
    rfl
  | lineOverride drive =>
    obtain rfl : drive = id := h
    refine ⟨_, .of_drive (v.drive.updateTimer v.tick)
      (.lineOverride (v.drive.timer.lineOverride v.tick)) rfl ?_⟩
    rintro c rfl -
    rfl
  | lineSignal drive =>
    obtain rfl : drive = id := h
    exact exists_acts_lineSignal drive v
  | _ => exact h.elim

/-! ## Effects on the two drives -/

omit [SaveStore σ] in
theorem Apart.reserved {c : Catalog σ} (h : c.Apart) (id : DriveId) : c.Reserved id := by
  intro s hs
  apply Bool.eq_false_iff.mpr
  intro hp
  exact h id s hs (slot_of_presents hp)

theorem Effect.drive_apply (e : Effect) (id j : DriveId) (c : Catalog σ) :
    (e.apply id c).drive j = if j = id then e.drive else c.drive j :=
  drive_setDrive c id j e.drive

theorem Effect.slots_apply (e : Effect) (id : DriveId) (c : Catalog σ) :
    (e.apply id c).slots = e.slots c.slots :=
  congrArg e.slots (slots_setDrive c id e.drive)

namespace Acts

variable {op op' : Operation} {id : DriveId} {e f : Effect} {c : Catalog σ}

theorem apart [Zip.Library] (h : Acts σ op id (c.view id) e) (ha : c.Apart) :
    (e.apply id c).Apart := by
  have hslot : ∀ j, ((e.apply id c).drive j).slot = (c.drive j).slot := by
    intro j
    rw [e.drive_apply]
    split
    · rename_i hj
      rw [hj]
      exact h.slot
    · rfl
  intro j s hs
  rw [hslot] at hs ⊢
  exact ha j s hs

theorem view_other [Zip.Library] (h : Acts σ op id (c.view id) e) (ha : c.Apart) :
    (e.apply id c).view id.other = c.view id.other := by
  have hdrive : (e.apply id c).drive id.other = c.drive id.other := by
    rw [e.drive_apply, if_neg (other_ne id).symm]
  have himage : ∀ t, (c.drive id.other).slot = some t →
      (e.apply id c).slots[t]? = c.slots[t]? := by
    intro t ht
    rw [e.slots_apply, Effect.slots]
    cases hp : e.put with
    | none => rfl
    | some p =>
      apply List.getElem?_set_ne
      rintro rfl
      exact ha id _ (h.put _ _ hp) ht
  unfold view
  rw [hdrive]
  congr 1
  · cases ht : (c.drive id.other).slot with
    | none => rfl
    | some t => exact himage t ht
  · exact policy_setDrive c id e.drive
  · exact tick_setDrive c id e.drive

end Acts

theorem exists_effects [Zip.Library] {c : Catalog σ} {op op' : Operation} {id : DriveId}
    (h : op.Uses id) (h' : op'.Uses id.other) (ha : c.Apart) :
    ∃ e f, Acts σ op id (c.view id) e ∧ Acts σ op' id.other (c.view id.other) f ∧
      c.step op = (e.apply id c, e.reply) ∧ c.step op' = (f.apply id.other c, f.reply) ∧
      (c.step op).1.step op' = (f.apply id.other (e.apply id c), f.reply) ∧
      (c.step op').1.step op = (e.apply id (f.apply id.other c), e.reply) := by
  obtain ⟨e, he⟩ := exists_acts σ h (c.view id)
  obtain ⟨f, hf⟩ := exists_acts σ h' (c.view id.other)
  have hstep := he.step c rfl (ha.reserved id)
  have hstep' := hf.step c rfl (ha.reserved id.other)
  have hview := he.view_other ha
  have hview' := hf.view_other ha
  rw [other_other] at hview'
  refine ⟨e, f, he, hf, hstep, hstep', ?_, ?_⟩
  · rw [hstep]
    exact hf.step _ hview ((he.apart ha).reserved id.other)
  · rw [hstep']
    exact he.step _ hview' ((hf.apart ha).reserved id)

/-! ## One drive after another operation -/

def Effect.view (e : Effect) (v : View) : View :=
  { v with
    drive := e.drive
    image := match e.put with
      | some (_, image) => v.image.map fun _ => image
      | none => v.image }

namespace Acts

variable {op : Operation} {id : DriveId} {e : Effect} {c : Catalog σ}

theorem reserved [Zip.Library] (h : Acts σ op id (c.view id) e) (hr : c.Reserved id) :
    (e.apply id c).Reserved id := by
  intro s hs
  rw [e.drive_apply, if_pos rfl, h.slot] at hs
  rw [e.drive_apply, if_neg (other_ne id).symm]
  exact hr s hs

theorem view_apply [Zip.Library] (h : Acts σ op id (c.view id) e) :
    (e.apply id c).view id = e.view (c.view id) := by
  have himage : (c.drive id).slot.bind ((e.slots c.slots)[·]?) = (e.view (c.view id)).image := by
    unfold Effect.slots Effect.view
    cases hp : e.put with
    | none => rfl
    | some p =>
      have hs : (c.drive id).slot = some p.1 := h.put _ _ hp
      simp only [Catalog.view, hs, Option.bind_some, List.getElem?_set_self']
      rfl
  have hslot : e.drive.slot = (c.drive id).slot := h.slot
  unfold Catalog.view
  rw [e.drive_apply, if_pos rfl, e.slots_apply, hslot, himage]
  simp [Effect.apply, Effect.view, Catalog.view]

end Acts

/-- An operation on a drive answers alike in two catalogs that look alike to it, and they still look
alike afterwards. -/
theorem step_congr [Zip.Library] {op : Operation} {id : DriveId} (h : op.Uses id) {c d : Catalog σ}
    (hv : d.view id = c.view id) (hc : c.Reserved id) (hd : d.Reserved id) :
    (d.step op).2 = (c.step op).2 ∧ (d.step op).1.view id = (c.step op).1.view id := by
  obtain ⟨e, he⟩ := exists_acts σ h (c.view id)
  have he' : Acts σ op id (d.view id) e := hv ▸ he
  rw [he.step c rfl hc, he.step d hv hd]
  refine ⟨rfl, ?_⟩
  rw [he'.view_apply, he.view_apply, hv]

theorem step_drive_other [Zip.Library] {op : Operation} {id : DriveId} (h : op.Uses id)
    {c : Catalog σ} (hr : c.Reserved id) :
    (c.step op).1.drive id.other = c.drive id.other ∧ (c.step op).1.Reserved id := by
  obtain ⟨e, he⟩ := exists_acts σ h (c.view id)
  rw [he.step c rfl hr]
  refine ⟨?_, he.reserved hr⟩
  rw [e.drive_apply, if_neg (other_ne id).symm]

theorem step_view_other [Zip.Library] {op : Operation} {id : DriveId} (h : op.Uses id)
    {c : Catalog σ} (ha : c.Apart) :
    (c.step op).1.view id.other = c.view id.other ∧ (c.step op).1.Apart := by
  obtain ⟨e, he⟩ := exists_acts σ h (c.view id)
  rw [he.step c rfl (ha.reserved id)]
  exact ⟨he.view_other ha, he.apart ha⟩

/-! ## Changing places -/

/-- Effects on different drives and slots may change places, the save store apart. -/
theorem Effect.apply_comm (e f : Effect) (id : DriveId) (c : Catalog σ)
    (hs : ∀ s image t image', e.put = some (s, image) → f.put = some (t, image') → s ≠ t) :
    f.apply id.other (e.apply id c) =
      { e.apply id (f.apply id.other c) with store := f.store (e.store c.store) } := by
  have hslots : f.slots (e.slots c.slots) = e.slots (f.slots c.slots) := by
    unfold Effect.slots
    cases he : e.put with
    | none => rfl
    | some p =>
      cases hf : f.put with
      | none => rfl
      | some q => exact List.set_comm _ _ (hs _ _ _ _ he hf)
  unfold Effect.apply
  cases id <;> simp only [setDrive, DriveId.other, hslots]

theorem Effect.store_comm {writable : σ → Prop} (hstore : SaveStore.ActsAsMap writable) {store : σ}
    (hmap : SaveStore.IsMap writable store) (e f : Effect)
    (hn : ∀ name file name' file', e.save = some (name, file) → f.save = some (name', file') →
      name ≠ name') :
    SaveStore.SameSaves (f.store (e.store store)) (e.store (f.store store)) ∧
      (SaveStore.Extensional writable → f.store (e.store store) = e.store (f.store store)) := by
  have hsame : ∀ {s t : σ}, s = t →
      SaveStore.SameSaves s t ∧ (SaveStore.Extensional writable → s = t) := by
    rintro s t rfl
    exact ⟨fun _ => rfl, fun _ => rfl⟩
  unfold Effect.store
  cases he : e.save with
  | none => exact hsame rfl
  | some p =>
    cases hf : f.save with
    | none => exact hsame rfl
    | some q =>
      obtain ⟨name, file⟩ := p
      obtain ⟨name', file'⟩ := q
      rcases hmap with hw | hread
      · have hcomm := hstore.store_comm hw (hn _ _ _ _ he hf) file file'
        refine ⟨hcomm, fun hext => hext _ _ ?_ ?_ hcomm⟩
        · exact hstore.writable_store _ _ _ (hstore.writable_store _ _ _ hw)
        · exact hstore.writable_store _ _ _ (hstore.writable_store _ _ _ hw)
      · apply hsame
        simp only [hread]

/-- Operations on the two drives may change places. -/
theorem step_comm [Zip.Library] {writable : σ → Prop} (hstore : SaveStore.ActsAsMap writable)
    (c : Catalog σ) (hmap : SaveStore.IsMap writable c.store) (ha : c.Apart) {id : DriveId}
    {op op' : Operation} (h : op.Uses id) (h' : op'.Uses id.other)
    (hn : op = .setInserted id false → op' = .setInserted id.other false →
      ∀ i j, (c.drive id).inserted = some i → (c.drive id.other).inserted = some j →
        i.isModified = true → j.isModified = true → i.name ≠ j.name) :
    let one := (c.step op).1.step op'
    let other := (c.step op').1.step op
    one.2 = (c.step op').2 ∧ other.2 = (c.step op).2 ∧
      one.1 = { other.1 with store := one.1.store } ∧
      SaveStore.SameSaves one.1.store other.1.store ∧
      (SaveStore.Extensional writable → one.1 = other.1) := by
  intro one other
  obtain ⟨e, f, he, hf, hstep, hstep', hone, hother⟩ := exists_effects h h' ha
  have hcomm := e.apply_comm f id c (by
    rintro s image t image' hs ht rfl
    exact ha id s (he.put _ _ hs) (hf.put _ _ ht))
  obtain ⟨hsaves, hequal⟩ := Effect.store_comm hstore hmap e f (by
    rintro name file name' file' hs ht
    obtain ⟨hop, i, hi, hmi, rfl⟩ := he.save _ _ hs
    obtain ⟨hop', j, hj, hmj, rfl⟩ := hf.save _ _ ht
    exact hn hop hop' i j hi hj hmi hmj)
  have hone' : one.1 = f.apply id.other (e.apply id c) := congrArg Prod.fst hone
  have hother' : other.1 = e.apply id (f.apply id.other c) := congrArg Prod.fst hother
  have hfirst : one.1.store = f.store (e.store c.store) := by rw [hone', hcomm]
  have hsecond : other.1.store = e.store (f.store c.store) := by
    rw [hother']
    simp [Effect.apply]
  have hrest : one.1 = { other.1 with store := one.1.store } := by
    rw [hfirst, hone', hother', hcomm]
  refine ⟨?_, ?_, hrest, ?_, ?_⟩
  · exact (congrArg Prod.snd hone).trans (congrArg Prod.snd hstep').symm
  · exact (congrArg Prod.snd hother).trans (congrArg Prod.snd hstep).symm
  · rw [hfirst, hsecond]
    exact hsaves
  · intro hext
    rw [hrest, hfirst, hequal hext, ← hsecond]

open scoped Zip.Reader in
/-- Two disks that have been written to are ejected and saved, in either order. -/
theorem step_comm_both_saved :
    let c := (new {} ({} : MemoryStore)).run [.add, .replace 0 (some "a.st") Disk.twoSectors, .add,
      .replace 1 (some "b.st") Disk.twoSectors, .select .a 0, .setInserted .a true, .select .b 1,
      .setInserted .b true, .write .a ⟨0, 0, 2⟩ [1], .write .b ⟨0, 0, 2⟩ [2]]
    (c.drive .a).isModified = true ∧ (c.drive .b).isModified = true ∧
      ((c.step (.setInserted .a false)).1.step (.setInserted .b false)).1 =
        ((c.step (.setInserted .b false)).1.step (.setInserted .a false)).1 := by
  intro c
  have hmodified : (c.drive .a).isModified = true ∧ (c.drive .b).isModified = true := by
    decide +kernel
  have hslots : (c.drive .a).slot = some 0 ∧ (c.drive .b).slot = some 1 := by decide +kernel
  have hnames : (c.drive .a).inserted.map (·.name) = some "a.st" ∧
      (c.drive .b).inserted.map (·.name) = some "b.st" := by decide +kernel
  have hmap := MemoryStore.isMap c.store
  clear_value c
  have ha : c.Apart := by
    intro id s hs
    cases id <;> simp_all [DriveId.other]
  have hn : ∀ i j, (c.drive .a).inserted = some i → (c.drive .b).inserted = some j →
      i.isModified = true → j.isModified = true → i.name ≠ j.name := by
    intro i j hi hj _ _
    simp_all
  have hcomm := step_comm MemoryStore.actsAsMap c hmap ha (.setInserted .a false)
    (.setInserted .b false) (fun _ _ => hn)
  exact ⟨hmodified.1, hmodified.2, hcomm.2.2.2.2 MemoryStore.extensional⟩

end Catalog

end Diskette
