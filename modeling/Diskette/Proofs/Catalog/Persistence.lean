import Diskette.Proofs.Catalog.Content
import Diskette.Proofs.Catalog.RoundTrip
import Diskette.Zip.Reader

/-!
# Which disks are saved

Whether the changes of a disk may be kept is settled when a drive is given the disk, and from then
on the answer goes wherever the disk goes, through snapshots as well. So the save store is handed
nothing but disks that leave their drives changed, were plain and not out of an archive, and had a
boot sector to be trusted when they went in.
-/

set_option autoImplicit false

namespace Diskette

namespace InsertedDisk

def saveTo {σ : Type} [SaveStore σ] (i : InsertedDisk) (store : σ) : σ :=
  match i.disk.encode i.disk.format with
  | .ok file => (SaveStore.store store i.name file).1
  | .error _ => store

/-- The drive was given the disk `d`, which may have been written to since. -/
structure Descends (i : InsertedDisk) (d : Disk) : Prop where
  okToPersist : i.okToPersist = d.canPersist
  format : i.disk.format = d.format
  kind : i.disk.kind = d.kind
  isArchived : i.disk.isArchived = d.isArchived

theorem IsFresh.descends {i : InsertedDisk} (h : i.IsFresh) : i.Descends i.disk :=
  ⟨h.okToPersist, rfl, rfl, rfl⟩

namespace Descends

variable {i : InsertedDisk} {d : Disk}

theorem written (h : i.Descends d) (offset : Nat) (data : Bytes) :
    (i.written offset data).Descends d :=
  ⟨h.okToPersist, h.format, h.kind, h.isArchived⟩

theorem marked (h : i.Descends d) (saved : Bool) : (i.recorded.marked saved).Descends d :=
  ⟨h.okToPersist, h.format, h.kind, h.isArchived⟩

theorem of_okToPersist (h : i.Descends d) (hk : i.okToPersist = true) :
    i.disk.kind = .plainSector ∧ i.disk.isArchived = false ∧ d.bootSectorIsTrustworthy = true := by
  have hd : d.canPersist = true := h.okToPersist.symm.trans hk
  simp only [Disk.canPersist, Bool.and_eq_true, beq_iff_eq, Bool.not_eq_true'] at hd
  obtain ⟨⟨hkind, harchived⟩, htrusted⟩ := hd
  exact ⟨h.kind.trans hkind, h.isArchived.trans harchived, htrusted⟩

end Descends

end InsertedDisk

namespace Catalog

variable {σ : Type} [SaveStore σ]

def saveFrom (c : Catalog σ) (store : σ) (id : DriveId) : σ :=
  match (c.drive id).inserted with
  | some i => i.saveTo store
  | none => store

/-- The disk may be handed to the save store when it leaves its drive. -/
structure Saves (c : Catalog σ) (i : InsertedDisk) : Prop where
  saveEnabled : c.policy.saveEnabled = true
  isModified : i.isModified = true
  okToPersist : i.okToPersist = true
  isOk : (i.disk.encode i.disk.format).isOk = true

/-! ## The store after an ejection -/

theorem store_persist (c : Catalog σ) (slot : Option Nat) (i : InsertedDisk) :
    (c.persist slot i).store =
      if i.okToPersist && c.policy.saveEnabled then i.saveTo c.store else c.store := by
  unfold persist InsertedDisk.saveTo
  cases hk : i.okToPersist with
  | false => rfl
  | true =>
    cases he : i.disk.encode i.disk.format with
    | error fault => exact (ite_self _).symm
    | ok file =>
      dsimp only
      obtain ⟨slots, hp, -⟩ := putBack_eq { c with store := if c.policy.saveEnabled then
        (SaveStore.store c.store i.name file).1 else c.store } slot i
      rw [if_neg (by simp), hp, Bool.true_and]

theorem store_eject {c : Catalog σ} {id : DriveId} {i : InsertedDisk}
    (hi : (c.drive id).inserted = some i) (keep : Bool) :
    (c.eject id keep).store =
      if i.isModified && keep && i.okToPersist && c.policy.saveEnabled then i.saveTo c.store
      else c.store := by
  rw [eject_of_inserted hi]
  by_cases hm : i.isModified = true ∧ keep = true
  · rw [if_pos hm, store_persist, store_setDrive, policy_setDrive, hm.1, hm.2]
    rfl
  · rw [if_neg hm, store_setDrive, if_neg]
    simp only [Bool.and_eq_true]
    exact fun h => hm h.1.1

theorem store_eject_cases {c : Catalog σ} {id : DriveId} {i : InsertedDisk}
    (hi : (c.drive id).inserted = some i) (keep : Bool) :
    (c.eject id keep).store = c.store ∨
      (c.eject id keep).store = i.saveTo c.store ∧ c.Saves i := by
  rw [store_eject hi]
  split
  · rename_i h
    simp only [Bool.and_eq_true] at h
    cases he : i.disk.encode i.disk.format with
    | error fault =>
      left
      rw [InsertedDisk.saveTo, he]
    | ok file => exact .inr ⟨rfl, h.2, h.1.1.1, h.1.2, by rw [he]; rfl⟩
  · exact .inl rfl

theorem Saves.store_eject {c : Catalog σ} {id : DriveId} {i : InsertedDisk} (h : c.Saves i)
    (hi : (c.drive id).inserted = some i) : (c.eject id true).store = i.saveTo c.store := by
  rw [Catalog.store_eject hi, h.isModified, h.okToPersist, h.saveEnabled]
  rfl

/-! ## The store after an operation -/

/-- From `c` on the save store has only been handed disks that were in the drives then and have
left them since. -/
structure Saved (c d : Catalog σ) (ids : List DriveId) : Prop where
  nodup : ids.Nodup
  store : d.store = ids.foldl c.saveFrom c.store
  policy : d.policy = c.policy
  saves : ∀ id ∈ ids, ∃ i, (c.drive id).inserted = some i ∧ c.Saves i
  drives : ∀ id i, (d.drive id).inserted = some i → i.isModified = true →
    (c.drive id).inserted = some i ∧ id ∉ ids

namespace Saved

variable {c d d' : Catalog σ} {ids : List DriveId} {op : Operation} {into : DriveId → Bool}

theorem refl (c : Catalog σ) : c.Saved c [] :=
  ⟨List.nodup_nil, rfl, rfl, by simp, fun _ _ hi _ => ⟨hi, List.not_mem_nil⟩⟩

theorem of_frame (h : c.Saved d ids) (hs : d'.store = d.store) (hp : d'.policy = d.policy)
    (hd : ∀ id i, (d'.drive id).inserted = some i →
      (d.drive id).inserted = some i ∨ i.isModified = false) : c.Saved d' ids where
  nodup := h.nodup
  store := hs.trans h.store
  policy := hp.trans h.policy
  saves := h.saves
  drives id i hi hm := by
    rcases hd id i hi with hi | hu
    · exact h.drives id i hi hm
    · rw [hu] at hm
      cases hm

theorem handOver (h : c.Saved d ids) {id : DriveId} {i : InsertedDisk} {keep : Bool}
    (hi : (d.drive id).inserted = some i) (hs : (d.eject id keep).store = i.saveTo d.store)
    (hsaves : d.Saves i) : c.Saved (d.eject id keep) (ids ++ [id]) := by
  obtain ⟨hc, hid⟩ := h.drives id i hi hsaves.isModified
  constructor
  · have hne : ∀ j ∈ ids, j ≠ id := fun j hj e => hid (e ▸ hj)
    simpa [List.nodup_append, h.nodup] using hne
  · rw [List.foldl_append, ← h.store, hs]
    simp [saveFrom, hc]
  · rw [policy_eject, h.policy]
  · intro j hj
    rcases List.mem_append.mp hj with hj | hj
    · exact h.saves j hj
    · rw [List.mem_singleton.mp hj]
      exact ⟨i, hc, h.policy ▸ hsaves.saveEnabled, hsaves.isModified, hsaves.okToPersist,
        hsaves.isOk⟩
  · intro j k hk hm
    obtain ⟨hj, hk⟩ := inserted_of_eject hk
    obtain ⟨hck, hjids⟩ := h.drives j k hk hm
    exact ⟨hck, by simp [hjids, hj]⟩

theorem eject (h : c.Saved d ids) (id : DriveId) (keep : Bool) :
    ∃ ids, c.Saved (d.eject id keep) ids := by
  cases hi : (d.drive id).inserted with
  | none => exact ⟨ids, (eject_of_empty hi keep).symm ▸ h⟩
  | some i =>
    rcases store_eject_cases hi keep with hs | ⟨hs, hsaves⟩
    · exact ⟨ids, h.of_frame hs (policy_eject d id keep) fun _ _ hk =>
        .inl (inserted_of_eject hk).2⟩
    · exact ⟨ids ++ [id], h.handOver hi hs hsaves⟩

theorem move [Zip.Library] (hm : Move into op d d') (ha : ¬op.Alters)
    (hp : ∀ policy, op ≠ .setPolicy policy) (h : c.Saved d ids) : ∃ ids, c.Saved d' ids := by
  have hpolicy : d'.policy = d.policy := hm.policy.resolve_left fun ⟨policy, e⟩ => hp policy e
  have hdrives : ∀ id i, (d'.drive id).inserted = some i →
      (d.drive id).inserted = some i ∨ i.isModified = false := by
    intro id i hi
    rcases hm.drives.resolve_left ha id i hi with hi | ⟨-, hf⟩
    · exact .inl hi
    · exact .inr hf.isModified
  rcases hm.change.store_eq with hs | ⟨id, keep, rfl⟩
  · exact ⟨ids, h.of_frame hs hpolicy hdrives⟩
  · exact h.eject id keep

theorem step [Zip.Library] (c : Catalog σ) (ha : ¬op.Alters)
    (hp : ∀ policy, op ≠ .setPolicy policy) :
    ∃ ids, c.Saved (c.step op).1 ids :=
  (moves_step c op).keeps (I := fun d => ∃ ids, c.Saved d ids)
    (fun _ _ hm ⟨_, h⟩ => h.move hm ha hp) ⟨[], refl c⟩

end Saved

omit [SaveStore σ] in
theorem write_eq_setDrive (c : Catalog σ) (id : DriveId) (address : Address) (data : Bytes) :
    ∃ d, (c.write id address data).1 = c.setDrive id d ∧ ∀ j, d.inserted = some j →
      ∃ i, (c.drive id).inserted = some i ∧ (j = i ∨ ∃ offset, j = i.written offset data) := by
  obtain ⟨d, timer, p, rfl, -, -, h⟩ := write_eq c id address data
  rw [h]
  split
  · rename_i e he
    obtain ⟨-, i, hi, -, -, rfl⟩ := Drive.write_eq_ok he
    refine ⟨_, rfl, ?_⟩
    intro j hj
    cases hj
    exact ⟨i, hi, .inr ⟨_, rfl⟩⟩
  · exact ⟨_, rfl, fun j hj => ⟨j, hj, .inl rfl⟩⟩

theorem restore_frame (c : Catalog σ) (file : Bytes) :
    (c.restore file).1 = c ∨ ∃ keep,
      (c.restore file).1.slots = ((c.eject .a keep).eject .b keep).slots ∧
      (c.restore file).1.store = ((c.eject .a keep).eject .b keep).store := by
  unfold restore
  split
  · right
    refine ⟨c.policy.persistOnRestore, ?_⟩
    simp [restoreState]
  · exact .inl rfl

/-- The operation hands the disks of these drives to the save store as it ejects them. -/
structure HandsOver [Zip.Library] (c : Catalog σ) (op : Operation) (ids : List DriveId) : Prop where
  nodup : ids.Nodup
  store : (c.step op).1.store = ids.foldl c.saveFrom c.store
  saves : ∀ id ∈ ids, ∃ i, (c.drive id).inserted = some i ∧ c.Saves i
  ejected : ∀ id ∈ ids, op.Restores ∨ ((c.step op).1.drive id).isModified = false

theorem HandsOver.nothing [Zip.Library] {c : Catalog σ} {op : Operation}
    (h : (c.step op).1.store = c.store) :
    c.HandsOver op [] :=
  ⟨List.nodup_nil, h, by simp, by simp⟩

theorem handsOver_step [Zip.Library] (c : Catalog σ) (op : Operation) :
    ∃ ids, c.HandsOver op ids := by
  by_cases ha : op.Alters
  · cases op with
    | write id address data =>
      obtain ⟨d, h, -⟩ := write_eq_setDrive c id address data
      exact ⟨[], .nothing ((congrArg Catalog.store h).trans (store_setDrive c id d))⟩
    | restore file =>
      rcases restore_frame c file with h | ⟨keep, -, h⟩
      · exact ⟨[], .nothing (congrArg Catalog.store h)⟩
      · obtain ⟨_, ha⟩ := (Saved.refl c).eject .a keep
        obtain ⟨ids, hb⟩ := ha.eject .b keep
        exact ⟨ids, hb.nodup, h.trans hb.store, hb.saves, fun _ _ => .inl trivial⟩
    | _ => exact ha.elim
  · -- `Saved` speaks of one policy, so a change of policy stands apart. It ejects nothing.
    by_cases hp : ∃ policy, op = .setPolicy policy
    · obtain ⟨policy, rfl⟩ := hp
      exact ⟨[], .nothing rfl⟩
    · obtain ⟨ids, h⟩ := Saved.step c ha fun policy e => hp ⟨policy, e⟩
      refine ⟨ids, h.nodup, h.store, h.saves, fun id hid => .inr ?_⟩
      apply Bool.eq_false_iff.mpr
      intro hm
      obtain ⟨i, hi, hm⟩ := (Option.any_eq_true ..).mp hm
      exact (h.drives id i hi hm).2 hid

/-! ## A slot whose disk may not be kept -/

structure Quiet (c : Catalog σ) (s : Nat) (image : DiskImage) : Prop where
  mapped : c.Mapped
  image : c.slots[s]? = some image
  lost : ∀ id i, c.shown s id = some i → i.isModified = false ∨ i.okToPersist = false

namespace Quiet

variable {c c' : Catalog σ} {s : Nat} {image : DiskImage} {op : Operation} {into : DriveId → Bool}

theorem eject (h : c.Quiet s image) (id : DriveId) (keep : Bool) :
    (c.eject id keep).Quiet s image := by
  constructor
  · exact h.mapped.eject id keep
  · cases hi : c.shown s id with
    | none =>
      rw [Holds.slots_eject_of_hidden h.mapped hi, h.image]
    | some i =>
      rw [eject_of_lost (shown_eq_some_iff.mp hi).2 (h.lost id i hi), slots_setDrive]
      exact h.image
  · intro j i hi
    rw [Holds.shown_eject] at hi
    split at hi
    · cases hi
    · exact h.lost j i hi

omit [SaveStore σ] in
theorem setDrive (h : c.Quiet s image) {id : DriveId} {d : Drive} (hm : (c.setDrive id d).Mapped)
    (hd : ∀ i, d.slot = some s → d.inserted = some i →
      c.shown s id = some i ∨ i.isModified = false) : (c.setDrive id d).Quiet s image := by
  constructor
  · exact hm
  · rw [slots_setDrive]
    exact h.image
  · intro j i hi
    obtain ⟨hslot, hi⟩ := shown_eq_some_iff.mp hi
    rw [drive_setDrive] at hslot hi
    split at hi
    · rename_i e
      rw [if_pos e] at hslot
      rcases hd i hslot hi with hi | hu
      · exact h.lost id i hi
      · exact .inl hu
    · rename_i e
      rw [if_neg e] at hslot
      exact h.lost j i (shown_eq_some_iff.mpr ⟨hslot, hi⟩)

theorem change [Zip.Library] (hc : Change op c c') (ha : ¬op.Alters) (hf : ¬op.Fills s)
    (hclears : ¬op.Clears) (h : c.Quiet s image) : c'.Quiet s image := by
  have hm : c'.Mapped := h.mapped.change hc
  cases hc with
  | eject id keep hk => exact h.eject id keep
  | add hl =>
    refine ⟨hm, ?_, h.lost⟩
    rw [List.getElem?_append_left (List.getElem?_eq_some_iff.mp h.image).1, h.image]
  | fill slot image' ho hi hl hfree =>
    have hne : slot ≠ s := by
      rintro rfl
      exact hf ho
    refine ⟨hm, ?_, h.lost⟩
    rw [List.getElem?_set_ne hne, h.image]
  | point id slot he hl =>
    apply h.setDrive hm
    intro i _ hi
    cases he.symm.trans hi
  | insert id slot image' disk he hs hfree hi hd hp =>
    apply h.setDrive hm
    intro i _ hi
    cases hi
    exact .inr rfl
  | write id address data d ho hd => exact absurd (ho ▸ trivial) ha
  | adjust id timer on =>
    apply h.setDrive hm
    intro i hs hi
    exact .inl (shown_eq_some_iff.mpr ⟨hs, hi⟩)
  | host policy codec tick => exact ⟨hm, h.image, h.lost⟩
  | discard ho he hs => exact absurd ho hclears
  | restore id file t taken slot ho hs he hm hf => exact absurd (ho ▸ trivial) ha

theorem step [Zip.Library] (h : c.Quiet s image) (hf : ¬op.Fills s) (hclears : ¬op.Clears) :
    (c.step op).1.slots[s]? = some image := by
  by_cases ha : op.Alters
  · cases op with
    | write id address data =>
      obtain ⟨d, hw, -⟩ := write_eq_setDrive c id address data
      change (c.write id address data).1.slots[s]? = some image
      rw [hw, slots_setDrive]
      exact h.image
    | restore file =>
      change (c.restore file).1.slots[s]? = some image
      rcases restore_frame c file with hr | ⟨keep, hr, -⟩
      · rw [hr]
        exact h.image
      · rw [hr]
        exact ((h.eject .a keep).eject .b keep).image
    | _ => exact ha.elim
  · have hq := (changes_step c op).keeps (I := fun d => d.Quiet s image)
      (fun _ _ hc hq => hq.change hc ha hf hclears) h
    exact hq.image

end Quiet

/-! ## What the drives were given -/

def givenAfter [Zip.Library] (c : Catalog σ) (op : Operation) (given : DriveId → Option Disk)
    (id : DriveId) :
    Option Disk :=
  if op.presents c id then ((c.step op).1.drive id).inserted.map (·.disk) else given id

/-- Operations have led to the catalog, and the drives have last been given these disks. Nothing is
restored but snapshots of catalogs that were reached in the same way, over whatever save store; with
the disks of a snapshot comes what the drives had been given then. -/
inductive Reached [Zip.Library] :
    {σ : Type} → [SaveStore σ] → Catalog σ → (DriveId → Option Disk) → Prop
  | new {σ : Type} [SaveStore σ] (policy : Policy) (store : σ) :
      Reached (new policy store) (fun _ => none)
  | step {σ : Type} [SaveStore σ] {c : Catalog σ} {given : DriveId → Option Disk} (op : Operation)
      (hc : Reached c given) (ho : ¬op.Restores) : Reached (c.step op).1 (c.givenAfter op given)
  | restore {σ τ : Type} [SaveStore σ] [SaveStore τ] {c : Catalog σ} {d : Catalog τ}
      {given given' : DriveId → Option Disk} (file : Bytes) (hc : Reached c given)
      (hd : Reached d given') (hs : d.save = .ok file) :
      Reached (c.step (.restore file)).1 (if (c.restore file).2.isOk then given' else given)

theorem Reached.run [Zip.Library] {c : Catalog σ} {given : DriveId → Option Disk}
    (h : Reached c given) (ops : List Operation) (ho : ∀ op ∈ ops, ¬op.Restores) :
    ∃ given, Reached (c.run ops) given := by
  induction ops generalizing c given with
  | nil => exact ⟨given, h⟩
  | cons op ops ih =>
    exact ih (h.step op (ho op (by simp))) fun o h => ho o (by simp [h])

/-- Every disk in a drive descends from the one that the drive was given. -/
def Granted (c : Catalog σ) (given : DriveId → Option Disk) : Prop :=
  ∀ id i, (c.drive id).inserted = some i → ∃ d, given id = some d ∧ i.Descends d

theorem isFresh_of_presents [Zip.Library] {c : Catalog σ} {op : Operation} {id : DriveId}
    {i : InsertedDisk} (h : op.presents c id = true)
    (hi : ((c.step op).1.drive id).inserted = some i) :
    i.IsFresh := by
  have ha : ¬op.Alters := by
    cases op <;> simp_all [Operation.Alters, Operation.presents]
  obtain ⟨d, hd, hm⟩ := exists_moves_of_presents h
  rcases hm.drives ha id i hi with hi | ⟨-, hf⟩
  · rw [hd] at hi
    cases hi
  · exact hf

namespace Granted

variable {c : Catalog σ} {given : DriveId → Option Disk}

omit [SaveStore σ] in
theorem write (h : c.Granted given) (id : DriveId) (address : Address) (data : Bytes) :
    (c.write id address data).1.Granted given := by
  obtain ⟨e, hw, he⟩ := write_eq_setDrive c id address data
  rw [hw]
  intro j i hi
  rw [drive_setDrive] at hi
  split at hi
  · rename_i hj
    obtain ⟨k, hk, rfl | ⟨offset, rfl⟩⟩ := he i hi
    · exact h j i (hj ▸ hk)
    · obtain ⟨d, hg, hd⟩ := h j k (hj ▸ hk)
      exact ⟨d, hg, hd.written offset data⟩
  · exact h j i hi

theorem step [Zip.Library] {op : Operation} (h : c.Granted given) (ho : ¬op.Restores) :
    (c.step op).1.Granted (c.givenAfter op given) := by
  intro id i hi
  unfold givenAfter
  cases hp : op.presents c id with
  | true => exact ⟨i.disk, by rw [hi]; rfl, (isFresh_of_presents hp hi).descends⟩
  | false =>
    rw [if_neg Bool.false_ne_true]
    -- A drive that is given nothing has what it had, except for what is written to it.
    by_cases ha : op.Alters
    · cases op with
      | write drive address data => exact h.write drive address data id i hi
      | restore file => exact absurd trivial ho
      | _ => exact ha.elim
    · rcases (moves_step c op).drives ha id i hi with hi | ⟨hf, -⟩
      · exact h id i hi
      · rw [hp] at hf
        cases hf

theorem restore {τ : Type} [SaveStore τ] {d : Catalog τ} {given' : DriveId → Option Disk}
    {file : Bytes} (h : c.Granted given) (h' : d.Granted given') (hd : d.Sound)
    (hs : d.save = .ok file) :
    (c.restore file).1.Granted (if (c.restore file).2.isOk then given' else given) := by
  cases hr : Snapshot.ofBytes file with
  | error fault =>
    rw [Catalog.restore, hr]
    exact h
  | ok s =>
    have hsnap := Snapshot.eq_of_ofBytes (sound_of_hasDisk hd) hs hr
    rw [restore_eq_ok c hr]
    intro id i hi
    obtain ⟨-, saved, hstate⟩ := (driveState_restoreState c s).2 id
    have hi' : ((stateOf s id).marked saved).inserted = some i :=
      (congrArg DriveState.inserted hstate).symm.trans hi
    have hrecorded : stateOf s id = (driveState (d.drive id)).recorded := by
      rw [hsnap]
      cases id <;> rfl
    rw [hrecorded] at hi'
    obtain ⟨j, hj, rfl⟩ := Option.map_eq_some_iff.mp hi'
    obtain ⟨k, hk, rfl⟩ := Option.map_eq_some_iff.mp hj
    obtain ⟨e, hg, he⟩ := h' id k hk
    exact ⟨e, hg, he.marked saved⟩

end Granted

structure Lawful (c : Catalog σ) (given : DriveId → Option Disk) : Prop where
  mapped : c.Mapped
  sound : c.Sound
  granted : c.Granted given

theorem Reached.lawful [Zip.Library] {c : Catalog σ} {given : DriveId → Option Disk}
    (h : Reached c given) :
    c.Lawful given := by
  induction h with
  | new policy store =>
    refine ⟨.new policy store, .new policy store, ?_⟩
    intro id i hi
    cases id <;> cases hi
  | step op hc ho ih => exact ⟨ih.mapped.step op, ih.sound.step op, ih.granted.step ho⟩
  | restore file hc hd hs ih ih' =>
    exact ⟨ih.mapped.step (.restore file), ih.sound.step (.restore file),
      ih.granted.restore ih'.granted ih'.sound hs⟩

namespace Lawful

variable {c : Catalog σ} {given : DriveId → Option Disk} {id : DriveId} {d : Disk}

omit [SaveStore σ] in
theorem okToPersist_eq_false (h : c.Lawful given) (hg : given id = some d)
    (hd : d.canPersist = false) {i : InsertedDisk} (hi : (c.drive id).inserted = some i) :
    i.okToPersist = false := by
  obtain ⟨e, he, hdescends⟩ := h.granted id i hi
  rw [hg] at he
  cases he
  exact hdescends.okToPersist.trans hd

omit [SaveStore σ] in
theorem quiet (h : c.Lawful given) (hg : given id = some d) (hd : d.canPersist = false) {s : Nat}
    (hp : (c.drive id).presents s = true) : ∃ image, c.Quiet s image := by
  obtain ⟨i, hi⟩ := presents_iff_shown.mp hp
  obtain ⟨hslot, hinserted⟩ := shown_eq_some_iff.mp hi
  obtain ⟨image, himage, -⟩ := h.mapped.named id s i hslot hinserted
  refine ⟨image, h.mapped, himage, ?_⟩
  intro j k hk
  by_cases hj : j = id
  · subst hj
    exact .inr (h.okToPersist_eq_false hg hd (shown_eq_some_iff.mp hk).2)
  · exact absurd hk (h.mapped.shown_ne hi hj k)

end Lawful

/-- An operation on a catalog that was reached changes the save store only as it ejects disks, while
saving is enabled: it hands the data that a drive holds to the store, once at most, in the format
the disk came from and under its name. Such a disk is modified, plain and not out of an archive, and
had a boot sector to be trusted when the drive was given it. A disk whose changes might not be kept
when the drive was given it leaves without a trace, and its slot stays as it is. -/
theorem store_step [Zip.Library] {c : Catalog σ} {given : DriveId → Option Disk}
    (h : Reached c given) (op : Operation) :
    (∃ ids : List DriveId, ids.Nodup ∧ (c.step op).1.store = ids.foldl c.saveFrom c.store ∧
      ∀ id ∈ ids, c.policy.saveEnabled = true ∧
        (op.Restores ∨ ((c.step op).1.drive id).isModified = false) ∧
        ∃ i d, (c.drive id).inserted = some i ∧ i.isModified = true ∧
          (i.disk.encode i.disk.format).isOk = true ∧ i.disk.kind = .plainSector ∧
          i.disk.isArchived = false ∧ given id = some d ∧ d.canPersist = true ∧
          d.bootSectorIsTrustworthy = true) ∧
    ∀ id d, given id = some d → d.canPersist = false →
      (∀ keep, (c.eject id keep).store = c.store ∧ (c.eject id keep).slots = c.slots) ∧
      ∀ s, (c.drive id).presents s = true → ¬op.Fills s → ¬op.Clears →
        (c.step op).1.slots[s]? = c.slots[s]? := by
  have hc := h.lawful
  constructor
  · obtain ⟨ids, hids⟩ := handsOver_step c op
    refine ⟨ids, hids.nodup, hids.store, fun id hid => ?_⟩
    obtain ⟨i, hi, hs⟩ := hids.saves id hid
    obtain ⟨d, hg, hd⟩ := hc.granted id i hi
    obtain ⟨hkind, harchived, htrusted⟩ := hd.of_okToPersist hs.okToPersist
    have hpersist : d.canPersist = true := hd.okToPersist.symm.trans hs.okToPersist
    exact ⟨hs.saveEnabled, hids.ejected id hid, i, d, hi, hs.isModified, hs.isOk, hkind,
      harchived, hg, hpersist, htrusted⟩
  · intro id d hg hd
    constructor
    · intro keep
      cases hi : (c.drive id).inserted with
      | none => simp [eject_of_empty hi]
      | some i => simp [eject_of_lost hi (.inr (hc.okToPersist_eq_false hg hd hi))]
    · intro s hp hf hclears
      obtain ⟨image, hq⟩ := hc.quiet hg hd hp
      rw [hq.step hf hclears, hq.image]

open scoped Zip.Reader in
/-- A disk that has been written to is restored over an empty catalog and ejected there: what was
written ends up in the save store. -/
theorem store_step_after_restore :
    let c := (new {} ({} : MemoryStore)).run [.add, .replace 0 none Disk.twoSectors, .select .a 0,
      .setInserted .a true, .write .a ⟨0, 0, 2⟩ [1, 2, 3]]
    let file := c.save.toOption.getD []
    let d := ((new {} ({} : MemoryStore)).step (.restore file)).1
    let e := (d.step (.setInserted .a false)).1
    e.store.saves[namelessImage 0]? = some (Bytes.overwrite Disk.twoSectors 512 [1, 2, 3]) ∧
      ∃ given, Reached d given ∧ ∃ ids : List DriveId, e.store = ids.foldl d.saveFrom d.store ∧
        ∀ id ∈ ids, ∃ i disk, (d.drive id).inserted = some i ∧ i.isModified = true ∧
          given id = some disk ∧ disk.bootSectorIsTrustworthy = true := by
  intro c file d e
  have hstored : e.store.saves[namelessImage 0]? =
      some (Bytes.overwrite Disk.twoSectors 512 [1, 2, 3]) := by decide +kernel
  have hsave : c.save = .ok file := eq_ok_of_toOption (by decide +kernel)
  obtain ⟨given, hc⟩ := (Reached.new {} ({} : MemoryStore)).run [.add,
    .replace 0 none Disk.twoSectors, .select .a 0, .setInserted .a true,
    .write .a ⟨0, 0, 2⟩ [1, 2, 3]] (by simp [Operation.Restores])
  have hd := Reached.restore file (.new {} ({} : MemoryStore)) hc hsave
  obtain ⟨ids, -, hstore, hids⟩ := (store_step hd (.setInserted .a false)).1
  refine ⟨hstored, _, hd, ids, hstore, fun id hid => ?_⟩
  obtain ⟨-, -, i, disk, hi, hm, -, -, -, hg, -, ht⟩ := hids id hid
  exact ⟨i, disk, hi, hm, hg, ht⟩

end Catalog

end Diskette
