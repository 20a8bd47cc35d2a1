import Mathlib.Logic.Relation
import Diskette.Proofs.Catalog.Frame
import Diskette.Proofs.Drive.Sectors
import Diskette.Proofs.SwapTimer.History

/-!
# Elementary changes

An operation on a catalog is a sequence of elementary changes: a disk leaves or enters a drive, a
slot is added or filled, a drive is pointed at a slot. `changes_step` says so of every operation, so
that whatever each elementary change keeps holds of every run. `moves_step` says besides which
drives may be given a disk, and when the number of slots and the policy stay as they are.
-/

set_option autoImplicit false

namespace Diskette

structure InsertedDisk.IsFresh (i : InsertedDisk) : Prop where
  isModified : i.isModified = false
  okToPersist : i.okToPersist = i.disk.canPersist

namespace Catalog

variable {σ : Type} [SaveStore σ]

def Operation.Fills : Operation → Nat → Prop
  | .replace slot _ _, s => slot = s
  | .loadTitle _ _, _ | .loadPlaylist _ _, _ => True
  | _, _ => False

def Operation.Clears : Operation → Prop
  | .clear | .loadTitle _ _ | .loadPlaylist _ _ => True
  | _ => False

def Operation.Restores : Operation → Prop
  | .restore _ => True
  | _ => False

def Operation.Resizes : Operation → Prop
  | .add | .clear | .loadTitle _ _ | .loadPlaylist _ _ => True
  | _ => False

/-- The operation may change a disk that is in a drive, or put in one that has been changed. -/
def Operation.Alters : Operation → Prop
  | .write _ _ _ | .restore _ => True
  | _ => False

def Operation.presents (c : Catalog σ) : Operation → DriveId → Bool
  | .setInserted drive inserted, id => inserted && id == drive && !(c.drive id).isInserted
  | .reinsertAll, id => id == .a || c.policy.driveBEnabled
  | .loadTitle _ _, _ | .loadPlaylist _ _, _ => true
  | _, _ => false

/-- What loading a file may leave in a slot. -/
inductive Loaded [Zip.Library] (codec : Codec) : DiskImage → Prop
  | empty (name : String) : Loaded codec (.empty name)
  | decoded (path : Option String) (file : Bytes) (name : String) (isSaved : Bool)
      (image : DiskImage) (h : DiskImage.ofFile path file codec = .ok image) :
      Loaded codec { image with name := name, isSaved := isSaved }

def stateOf (s : Snapshot) : DriveId → DriveState
  | .a => s.driveA
  | .b => s.driveB

/-- One elementary change in the course of an operation. -/
inductive Change [Zip.Library] (op : Operation) : Catalog σ → Catalog σ → Prop
  | eject (c : Catalog σ) (id : DriveId) (keep : Bool) (hk : keep = false → op.Restores) :
      Change op c (c.eject id keep)
  | add (c : Catalog σ) (hl : c.slots.length < maxSlots) :
      Change op c { c with slots := c.slots ++ [{}] }
  | fill (c : Catalog σ) (slot : Nat) (image : DiskImage) (ho : op.Fills slot)
      (hi : Loaded c.codec image) (hl : slot < c.slots.length)
      (hf : ∀ id, (c.drive id).presents slot = false) :
      Change op c { c with slots := c.slots.set slot image }
  | point (c : Catalog σ) (id : DriveId) (slot : Option Nat)
      (he : (c.drive id).inserted = none) (hl : ∀ s, slot = some s → s < c.slots.length) :
      Change op c (c.setDrive id { c.drive id with slot := slot })
  | insert (c : Catalog σ) (id : DriveId) (slot : Nat) (image : DiskImage) (disk : Disk)
      (he : (c.drive id).inserted = none) (hs : (c.drive id).slot = some slot)
      (hf : (c.drive id.other).presents slot = false) (hi : c.slots[slot]? = some image)
      (hd : image.disk = some disk) (hp : disk.isPopulated = true) :
      Change op c (c.setDrive id
        ((c.drive id).insert slot (.ofDisk image.name disk image.isSaved) c.tick))
  | write (c : Catalog σ) (id : DriveId) (address : Address) (data : Bytes) (d : Drive)
      (ho : op = .write id address data) (hd : (c.drive id).write address data false = .ok d) :
      Change op c (c.setDrive id d)
  | adjust (c : Catalog σ) (id : DriveId) (timer : SwapTimer) (on : Bool) :
      Change op c (c.setDrive id { c.drive id with timer := timer, isWriteProtected := on })
  | host (c : Catalog σ) (policy : Policy) (codec : Codec) (tick : UInt64) :
      Change op c { c with policy := policy, codec := codec, tick := tick }
  | discard (c : Catalog σ) (ho : op.Clears) (he : ∀ id, (c.drive id).inserted = none)
      (hs : ∀ id, (c.drive id).slot = none) : Change op c { c with slots := [] }
  | restore (c : Catalog σ) (id : DriveId) (file : Bytes) (s : Snapshot) (taken slot : Option Nat)
      (ho : op = .restore file) (hs : Snapshot.ofBytes file = .ok s)
      (he : (c.drive id).inserted = none)
      (hm : slot = c.matchSlot? (stateOf s id) taken)
      (hf : ∀ t, slot = some t → (c.drive id.other).presents t = false) :
      Change op c (c.restoreDrive id (stateOf s id) slot)

abbrev Changes [Zip.Library] (op : Operation) : Catalog σ → Catalog σ → Prop :=
  Relation.ReflTransGen (Change op)

/-- An elementary change that gives disks to no drives but those in `into`. -/
structure Move [Zip.Library] (into : DriveId → Bool) (op : Operation) (c c' : Catalog σ) :
    Prop where
  change : Change op c c'
  slots : op.Resizes ∨ c'.slots.length = c.slots.length
  policy : (∃ policy, op = .setPolicy policy) ∨ c'.policy = c.policy
  drives : op.Alters ∨ ∀ id i, (c'.drive id).inserted = some i →
    (c.drive id).inserted = some i ∨ into id = true ∧ i.IsFresh

abbrev Moves [Zip.Library] (into : DriveId → Bool) (op : Operation) :
    Catalog σ → Catalog σ → Prop :=
  Relation.ReflTransGen (Move into op)

variable {op : Operation} {into : DriveId → Bool}

omit [SaveStore σ] in
theorem keeps_of_path {r : Catalog σ → Catalog σ → Prop} {I : Catalog σ → Prop}
    (hI : ∀ c c', r c c' → I c → I c') {c c' : Catalog σ} (h : Relation.ReflTransGen r c c')
    (hc : I c) : I c' := by
  induction h with
  | refl => exact hc
  | tail _ hs ih => exact hI _ _ hs ih

theorem Changes.keeps [Zip.Library] {I : Catalog σ → Prop}
    (hI : ∀ c c', Change op c c' → I c → I c') {c c' : Catalog σ} (h : Changes op c c') (hc : I c) :
    I c' :=
  keeps_of_path hI h hc

namespace Moves

variable {c c' : Catalog σ}

theorem keeps [Zip.Library] {I : Catalog σ → Prop} (hI : ∀ c c', Move into op c c' → I c → I c')
    (h : Moves into op c c') (hc : I c) : I c' :=
  keeps_of_path hI h hc

theorem changes [Zip.Library] (h : Moves into op c c') : Changes op c c' :=
  Relation.ReflTransGen.mono (fun _ _ => Move.change) _ _ h

theorem policy_eq [Zip.Library] (hp : ∀ policy, op ≠ .setPolicy policy) (h : Moves into op c c') :
    c'.policy = c.policy := by
  apply h.keeps (I := fun d => d.policy = c.policy)
  · intro d d' hm hd
    rcases hm.policy with ⟨policy, e⟩ | e
    · exact absurd e (hp policy)
    · exact e.trans hd
  · rfl

theorem drives [Zip.Library] (ha : ¬op.Alters) (h : Moves into op c c') :
    ∀ id i, (c'.drive id).inserted = some i →
      (c.drive id).inserted = some i ∨ into id = true ∧ i.IsFresh := by
  apply h.keeps (I := fun d => ∀ id i, (d.drive id).inserted = some i →
    (c.drive id).inserted = some i ∨ into id = true ∧ i.IsFresh)
  · intro d d' hm hd id i hi
    rcases hm.drives.resolve_left ha id i hi with hi | hf
    · exact hd id i hi
    · exact .inr hf
  · exact fun id i hi => .inl hi

theorem single [Zip.Library] (h : Move into op c c') : Moves into op c c' :=
  Relation.ReflTransGen.single h

end Moves

namespace Move

variable {c c' : Catalog σ}

theorem of_slots [Zip.Library] (h : Change op c c')
    (hs : op.Resizes ∨ c'.slots.length = c.slots.length) (hp : c'.policy = c.policy)
    (hd : ∀ id, c'.drive id = c.drive id) : Move into op c c' where
  change := h
  slots := hs
  policy := .inr hp
  drives := .inr fun id i hi => .inl (by rwa [hd id] at hi)

theorem of_drive [Zip.Library] {id : DriveId} {d : Drive} (h : Change op c (c.setDrive id d))
    (hd : d.inserted = (c.drive id).inserted) : Move into op c (c.setDrive id d) where
  change := h
  slots := .inr (by simp)
  policy := .inr (by simp)
  drives := by
    right
    intro j i hi
    rw [drive_setDrive] at hi
    split at hi
    · rename_i e
      rw [hd] at hi
      exact .inl (e ▸ hi)
    · exact .inl hi

theorem eject [Zip.Library] (c : Catalog σ) (id : DriveId) (keep : Bool)
    (hk : keep = false → op.Restores) :
    Move into op c (c.eject id keep) where
  change := .eject c id keep hk
  slots := .inr (by simp)
  policy := .inr (by simp)
  drives := .inr fun _ _ hi => .inl (inserted_of_eject hi).2

theorem insert [Zip.Library] {id : DriveId} (slot : Nat) (image : DiskImage) (disk : Disk)
    (he : (c.drive id).inserted = none) (hs : (c.drive id).slot = some slot)
    (hf : (c.drive id.other).presents slot = false) (hi : c.slots[slot]? = some image)
    (hd : image.disk = some disk) (hp : disk.isPopulated = true) (ht : into id = true) :
    Move into op c (c.setDrive id
      ((c.drive id).insert slot (.ofDisk image.name disk image.isSaved) c.tick)) where
  change := .insert c id slot image disk he hs hf hi hd hp
  slots := .inr (by simp)
  policy := .inr (by simp)
  drives := by
    right
    intro j i hj
    rw [drive_setDrive] at hj
    split at hj
    · rename_i e
      cases hj
      exact .inr ⟨e ▸ ht, rfl, rfl⟩
    · exact .inl hj

end Move

theorem presents_eq_false_of_empty {d : Drive} (h : d.inserted = none) (s : Nat) :
    d.presents s = false := by
  simp [Drive.presents, Drive.isInserted, h]

theorem presents_eq_true_iff (d : Drive) (s : Nat) :
    d.presents s = true ↔ d.isInserted = true ∧ d.slot = some s := by
  simp [Drive.presents]

/-! ## Ejecting, pointing and inserting -/

theorem moves_eject [Zip.Library] (c : Catalog σ) (id : DriveId) :
    Moves into op c (c.eject id true) :=
  .single (.eject c id true fun h => absurd h (by decide))

theorem moves_ejectFrom [Zip.Library] (c : Catalog σ) (slot : Nat) (id : DriveId) :
    Moves into op c (c.ejectFrom slot id) := by
  unfold ejectFrom
  split
  · exact moves_eject c id
  · exact .refl

theorem presents_ejectFrom (c : Catalog σ) (slot : Nat) (id : DriveId) :
    ((c.ejectFrom slot id).drive id).presents slot = false := by
  unfold ejectFrom
  split
  · exact presents_eq_false_of_empty (by simp) slot
  · rename_i h
    exact Bool.eq_false_iff.mpr h

theorem presents_ejectFrom_of (c : Catalog σ) (slot : Nat) (id j : DriveId)
    (h : (c.drive j).presents slot = false) :
    ((c.ejectFrom slot id).drive j).presents slot = false := by
  unfold ejectFrom
  split
  · rw [drive_eject]
    split
    · exact presents_eq_false_of_empty rfl slot
    · exact h
  · exact h

@[simp]
theorem length_slots_ejectFrom (c : Catalog σ) (slot : Nat) (id : DriveId) :
    (c.ejectFrom slot id).slots.length = c.slots.length := by
  unfold ejectFrom
  split <;> simp

theorem moves_point [Zip.Library] (c : Catalog σ) (id : DriveId) (slot : Option Nat)
    (hl : ∀ s, slot = some s → s < c.slots.length) :
    Moves into op c ((c.eject id true).setDrive id
      { (c.eject id true).drive id with slot := slot }) :=
  (moves_eject c id).tail (.of_drive (.point _ id slot (by simp) (by simpa using hl)) rfl)

theorem moves_select [Zip.Library] (c : Catalog σ) (id : DriveId) (slot : Nat) :
    Moves into op c (c.select id slot).1 := by
  unfold select
  by_cases hl : c.slots.length ≤ slot
  · simp only [if_pos hl]
    exact .refl
  · simp only [if_neg hl]
    split
    · exact .refl
    · apply moves_point c id (some slot)
      intro s hs
      cases hs
      exact Nat.lt_of_not_le hl

theorem other_ne (id : DriveId) : id ≠ id.other := by
  cases id <;> decide

theorem drive_ejectFrom_other (c : Catalog σ) (slot : Nat) (id : DriveId) :
    (c.ejectFrom slot id.other).drive id = c.drive id := by
  unfold ejectFrom
  split
  · rw [drive_eject, if_neg (fun h => other_ne id h.1)]
  · rfl

theorem moves_insert [Zip.Library] (c : Catalog σ) (id : DriveId)
    (ht : (c.drive id).inserted = none → into id = true) : Moves into op c (c.insert id).1 := by
  unfold insert
  split
  · exact .refl
  · rename_i he
    have he : (c.drive id).inserted = none := by simpa [Drive.isInserted] using he
    split
    · exact .refl
    · rename_i slot hs
      dsimp only
      have hc : Moves into op c (c.ejectFrom slot id.other) := moves_ejectFrom c slot id.other
      have hd := drive_ejectFrom_other c slot id
      split
      · exact hc
      · rename_i image hi
        split
        · exact hc
        · rename_i disk hp
          obtain ⟨hp, hd'⟩ := Option.filter_eq_some_iff.mp hp
          apply hc.tail
          exact .insert slot image disk (by rw [hd]; exact he) (by rw [hd]; exact hs)
            (presents_ejectFrom c slot id.other) hi hp hd' (ht he)

theorem moves_setInserted [Zip.Library] (c : Catalog σ) (id : DriveId) (inserted : Bool)
    (ht : inserted = true → (c.drive id).inserted = none → into id = true) :
    Moves into op c (c.setInserted id inserted).1 := by
  unfold setInserted
  split
  · rename_i h
    exact moves_insert c id (ht h)
  · exact moves_eject c id

theorem moves_reinsert [Zip.Library] (c : Catalog σ) (id : DriveId) (ht : into id = true) :
    Moves into op c (c.reinsert id).1 := by
  unfold reinsert
  split
  · exact (moves_eject c id).trans (moves_insert _ id fun _ => ht)
  · exact .refl

theorem policy_reinsert [Zip.Library] (c : Catalog σ) (id : DriveId) :
    (c.reinsert id).1.policy = c.policy := by
  have h : Moves (fun _ => true) .reinsertAll c (c.reinsert id).1 := moves_reinsert c id rfl
  exact h.policy_eq (by simp)

theorem reinsertAll_fst [Zip.Library] (c : Catalog σ) :
    c.reinsertAll.1 = if c.policy.driveBEnabled then ((c.reinsert .a).1.reinsert .b).1
      else (c.reinsert .a).1 := by
  unfold reinsertAll
  dsimp only
  rw [policy_reinsert]
  split
  · split <;> rfl
  · rfl

theorem moves_reinsertAll [Zip.Library] (c : Catalog σ) (ha : into .a = true)
    (hb : c.policy.driveBEnabled = true → into .b = true) : Moves into op c c.reinsertAll.1 := by
  have hfirst : Moves into op c (c.reinsert .a).1 := moves_reinsert c .a ha
  rw [reinsertAll_fst]
  split
  · rename_i h
    exact hfirst.trans (moves_reinsert _ .b (hb h))
  · exact hfirst

/-! ## Filling slots -/

@[simp]
theorem codec_ejectFrom (c : Catalog σ) (slot : Nat) (id : DriveId) :
    (c.ejectFrom slot id).codec = c.codec := by
  unfold ejectFrom
  split <;> simp

theorem presents_ejectFrom_both (c : Catalog σ) (slot : Nat) (id : DriveId) :
    (((c.ejectFrom slot .a).ejectFrom slot .b).drive id).presents slot = false := by
  cases id with
  | a => exact presents_ejectFrom_of _ slot .b .a (presents_ejectFrom c slot .a)
  | b => exact presents_ejectFrom _ slot .b

theorem moves_replace [Zip.Library] (c : Catalog σ) (slot : Nat) (name : Option String)
    (file : Bytes) (ho : op.Fills slot) : Moves into op c (c.replace slot name file).1 := by
  unfold replace
  split
  · exact .refl
  · rename_i hl
    dsimp only
    have hc : Moves into op c ((c.ejectFrom slot .a).ejectFrom slot .b) :=
      (moves_ejectFrom c slot .a).trans (moves_ejectFrom _ slot .b)
    have hl : slot < ((c.ejectFrom slot .a).ejectFrom slot .b).slots.length := by
      simpa using hl
    split
    · rename_i image hi
      exact hc.tail (.of_slots (.fill _ slot _ ho (.decoded _ _ _ _ image hi) hl
        (presents_ejectFrom_both c slot)) (.inr (by simp)) rfl (fun _ => rfl))
    · exact hc.tail (.of_slots (.fill _ slot _ ho (.empty _) hl (presents_ejectFrom_both c slot))
        (.inr (by simp)) rfl (fun _ => rfl))

theorem moves_add [Zip.Library] (c : Catalog σ) (ho : op.Resizes) : Moves into op c c.add.1 := by
  unfold add
  by_cases h : maxSlots ≤ c.slots.length
  · simp only [if_pos h]
    exact .refl
  · simp only [if_neg h]
    exact .single (.of_slots (.add c (Nat.lt_of_not_le h)) (.inl ho) rfl (fun _ => rfl))

/-! ## Settings and sectors -/

theorem moves_timer [Zip.Library] (c : Catalog σ) (id : DriveId) (timer : SwapTimer) :
    Moves into op c (c.setDrive id { c.drive id with timer := timer }) :=
  .single (.of_drive (.adjust c id timer (c.drive id).isWriteProtected) rfl)

theorem moves_lineOverride [Zip.Library] (c : Catalog σ) (id : DriveId) :
    Moves into op c (c.lineOverride id).1 :=
  moves_timer c id _

theorem moves_lineSignal [Zip.Library] (c : Catalog σ) (id : DriveId) :
    Moves into op c (c.lineSignal id).1 := by
  have h : Moves into op c (c.lineOverride id).1 := moves_lineOverride c id
  unfold lineSignal
  dsimp only
  split <;> exact h

theorem moves_setPolicy [Zip.Library] (c : Catalog σ) (policy : Policy)
    (ho : op = .setPolicy policy) :
    Moves into op c (c.setPolicy policy) := by
  apply ((moves_timer c .a (c.driveA.timer.setDelay policy.delay)).trans
    (moves_timer _ .b (c.driveB.timer.setDelay policy.delay))).tail
  exact ⟨.host _ policy c.codec c.tick, .inr rfl, .inl ⟨policy, ho⟩, .inr fun _ _ hi => .inl hi⟩

theorem moves_host [Zip.Library] (c : Catalog σ) (codec : Codec) (tick : UInt64) :
    Moves into op c { c with codec := codec, tick := tick } :=
  .single (.of_slots (.host c c.policy codec tick) (.inr rfl) rfl (fun _ => rfl))

theorem moves_resetTimers [Zip.Library] (c : Catalog σ) : Moves into op c c.resetTimers :=
  (moves_timer c .a c.driveA.timer.reset).trans (moves_timer _ .b c.driveB.timer.reset)

/-- Writes to a drive are refused: by the host, by the drive, or by a disk that is on its way out.
A disk on its way in permits nothing that the host or the drive refuses. -/
def Protected (c : Catalog σ) (id : DriveId) : Prop :=
  c.policy.writeProtection = true ∨ (c.drive id).isWriteProtected = true ∨
    (c.drive id).timer.lineOverride c.tick = .forceProtected

omit [SaveStore σ] in
theorem write_eq (c : Catalog σ) (id : DriveId) (address : Address) (data : Bytes) :
    ∃ d timer p, d = { c.drive id with timer := timer } ∧
      (c.drive id).timer.Retires timer c.tick ∧ (p = true ↔ c.Protected id) ∧
      c.write id address data =
        match d.write address data p with
        | .ok e => (c.setDrive id e, .ok ())
        | .error fault => (c.setDrive id d, .error fault) := by
  unfold write
  by_cases hp : c.isSetProtected id = true
  · have hset : c.policy.writeProtection = true ∨ (c.drive id).isWriteProtected = true := by
      simpa [isSetProtected] using hp
    refine ⟨c.drive id, (c.drive id).timer, true, rfl, .refl _ _, ?_, ?_⟩
    · simp only [Protected, ← or_assoc, hset, true_or]
    · cases hw : (c.drive id).write address data true with
      | ok e => simp only [if_pos hp, hw]
      | error fault => simp only [if_pos hp, hw, setDrive_drive]
  · have hset : ¬(c.policy.writeProtection = true ∨ (c.drive id).isWriteProtected = true) := by
      simpa [isSetProtected] using hp
    refine ⟨(c.drive id).updateTimer c.tick, (c.drive id).timer.update c.tick,
      (c.drive id).timer.lineOverride c.tick == .forceProtected, rfl,
      SwapTimer.retires_update _ _, ?_, ?_⟩
    · simp only [Protected, ← or_assoc, hset, false_or, beq_iff_eq]
    · rw [if_neg hp]
      dsimp only [lineOverride]
      rw [drive_setDrive_self]
      cases ((c.drive id).updateTimer c.tick).write address data
          ((c.drive id).timer.lineOverride c.tick == .forceProtected) with
      | ok e => simp only [setDrive_setDrive]
      | error fault => rfl

theorem moves_write [Zip.Library] (c : Catalog σ) (id : DriveId) (address : Address) (data : Bytes)
    (ho : op = .write id address data) : Moves into op c (c.write id address data).1 := by
  obtain ⟨d, timer, p, rfl, -, -, h⟩ := write_eq c id address data
  have ht : Moves into op c (c.setDrive id { c.drive id with timer := timer }) :=
    moves_timer c id timer
  rw [h]
  split
  · rename_i e he
    obtain ⟨rfl, -⟩ := Drive.write_eq_ok he
    have hw := Change.write (c.setDrive id { c.drive id with timer := timer }) id address data e ho
      (by rw [drive_setDrive_self]; exact he)
    rw [setDrive_setDrive] at hw
    exact ht.tail ⟨hw, .inr (by simp), .inr (by simp), .inl (by rw [ho]; trivial)⟩
  · exact ht

/-! ## Titles -/

theorem moves_andThen [Zip.Library] {α β : Type} {c : Catalog σ} {o : Outcome σ α}
    {next : Catalog σ → α → Outcome σ β} (ho : Moves into op c o.1)
    (hn : ∀ x, o.2 = .ok x → Moves into op o.1 (next o.1 x).1) :
    Moves into op c (o.andThen next).1 := by
  obtain ⟨c', r⟩ := o
  cases r with
  | ok x => exact ho.trans (hn x rfl)
  | error fault => exact ho

theorem moves_unload [Zip.Library] (c : Catalog σ) (id : DriveId) : Moves into op c (c.unload id) :=
  moves_point c id none (by simp)

theorem drive_unload (c : Catalog σ) (id : DriveId) :
    ((c.unload id).drive id).inserted = none ∧ ((c.unload id).drive id).slot = none := by
  simp [unload]

theorem drive_unload_both (c : Catalog σ) (id : DriveId) :
    (((c.unload .a).unload .b).drive id).inserted = none ∧
      (((c.unload .a).unload .b).drive id).slot = none := by
  cases id with
  | a =>
    have h := drive_unload c .a
    have hd : ((c.unload .a).unload .b).drive .a = (c.unload .a).drive .a := by
      rw [unload, drive_setDrive, if_neg (by decide), drive_eject, if_neg (by simp)]
    rwa [hd]
  | b => exact drive_unload _ .b

theorem Operation.Clears.resizes (h : op.Clears) : op.Resizes := by
  cases op <;> trivial

theorem moves_clear [Zip.Library] (c : Catalog σ) (ho : op.Clears) : Moves into op c c.clear := by
  have he := drive_unload_both c
  apply ((moves_unload c .a).trans (moves_unload _ .b)).tail
  exact .of_slots (.discard _ ho (fun id => (he id).1) (fun id => (he id).2)) (.inl ho.resizes) rfl
    (fun _ => rfl)

theorem moves_presentTitle [Zip.Library] (o : Outcome σ Unit) (slot : Nat) (ht : into .a = true) :
    Moves into op o.1 (o.andThen fun c _ =>
      Outcome.andThen (c.select .a slot) fun c _ => c.setInserted .a true).1 := by
  apply moves_andThen .refl
  intro _ _
  apply moves_andThen (moves_select _ .a slot)
  intro _ _
  exact moves_setInserted _ .a true fun _ _ => ht

theorem moves_loadTitle [Zip.Library] (c : Catalog σ) (name : Option String) (file : Bytes)
    (ho : op.Resizes) (hf : ∀ s, op.Fills s) (ht : ∀ id, into id = true) :
    Moves into op c.clear (c.loadTitle name file).1 := by
  unfold loadTitle
  apply moves_andThen (moves_add c.clear ho)
  intro slot _
  exact (moves_replace _ slot name file (hf slot)).trans (moves_presentTitle _ slot (ht .a))

theorem moves_addAll [Zip.Library] (files : List (Option String × Bytes)) (c : Catalog σ)
    (ho : op.Resizes) (hf : ∀ s, op.Fills s) : Moves into op c (c.addAll files).1 := by
  induction files generalizing c with
  | nil => exact .refl
  | cons file files ih =>
    obtain ⟨name, content⟩ := file
    rw [addAll]
    apply moves_andThen (moves_add c ho)
    intro slot _
    exact (moves_replace _ slot name content (hf slot)).trans (ih _)

theorem moves_insertSecond [Zip.Library] (c : Catalog σ) (first : Nat) (ht : into .b = true) :
    Moves into op c (c.insertSecond first).1 := by
  unfold insertSecond
  split
  · apply moves_andThen (moves_select c .b _)
    intro _ _
    exact moves_setInserted _ .b true fun _ _ => ht
  · exact .refl

theorem moves_presentPlaylist [Zip.Library] (c : Catalog σ) (start : Nat)
    (files : List (Option String × Bytes)) (ht : ∀ id, into id = true) :
    Moves into op (c.clear.addAll files).1 (c.loadPlaylist start files).1 := by
  unfold loadPlaylist
  apply moves_andThen .refl
  intro _ _
  split
  · exact .refl
  · apply moves_andThen (moves_select _ .a _)
    intro _ _
    apply moves_andThen (moves_setInserted _ .a true fun _ _ => ht .a)
    intro _ _
    exact moves_insertSecond _ _ (ht .b)

theorem moves_loadPlaylist [Zip.Library] (c : Catalog σ) (start : Nat)
    (files : List (Option String × Bytes)) (ho : op.Resizes) (hf : ∀ s, op.Fills s)
    (ht : ∀ id, into id = true) :
    Moves into op c.clear (c.loadPlaylist start files).1 :=
  (moves_addAll files c.clear ho hf).trans (moves_presentPlaylist c start files ht)

/-! ## Restoring -/

omit [SaveStore σ] in
theorem slotOf?_ne_taken {c : Catalog σ} {name : String} {taken : Option Nat} {s : Nat}
    (h : c.slotOf? name taken = some s) : taken ≠ some s := by
  obtain ⟨⟨image, i⟩, hf, rfl⟩ := Option.map_eq_some_iff.mp h
  have := List.find?_some hf
  simp only [Bool.and_eq_true, bne_iff_ne] at this
  exact this.2

omit [SaveStore σ] in
theorem name_of_slotOf? {c : Catalog σ} {name : String} {taken : Option Nat} {s : Nat}
    (h : c.slotOf? name taken = some s) :
    ∃ image, c.slots[s]? = some image ∧ image.name = name := by
  obtain ⟨⟨image, i⟩, hf, rfl⟩ := Option.map_eq_some_iff.mp h
  have hn := List.find?_some hf
  have hm := List.mem_of_find?_eq_some hf
  simp only [Bool.and_eq_true, beq_iff_eq] at hn
  exact ⟨image, (List.mem_zipIdx_iff_getElem?).mp hm, hn.1⟩

theorem slot_restoreDrive {c : Catalog σ} {id : DriveId} {s : DriveState} {slot : Option Nat}
    (h : ((c.restoreDrive id s slot).drive id).isInserted = true) :
    ((c.restoreDrive id s slot).drive id).slot = slot ∧ s.inserted ≠ none := by
  unfold restoreDrive at h ⊢
  dsimp only at h ⊢
  split at h
  · simp [Drive.isInserted] at h
  · simp_all

theorem restoreDrive_eq (c : Catalog σ) (id : DriveId) (s : DriveState) (slot : Option Nat) :
    ∃ d, c.restoreDrive id s slot = c.setDrive id d := by
  unfold restoreDrive
  dsimp only
  split <;> exact ⟨_, rfl⟩

theorem drive_restoreDrive_other (c : Catalog σ) (id : DriveId) (s : DriveState)
    (slot : Option Nat) : (c.restoreDrive id s slot).drive id.other = c.drive id.other := by
  obtain ⟨d, h⟩ := restoreDrive_eq c id s slot
  rw [h, drive_setDrive_other]

@[simp]
theorem slots_restoreDrive (c : Catalog σ) (id : DriveId) (s : DriveState) (slot : Option Nat) :
    (c.restoreDrive id s slot).slots = c.slots := by
  obtain ⟨d, h⟩ := restoreDrive_eq c id s slot
  rw [h, slots_setDrive]

@[simp]
theorem policy_restoreDrive (c : Catalog σ) (id : DriveId) (s : DriveState) (slot : Option Nat) :
    (c.restoreDrive id s slot).policy = c.policy := by
  obtain ⟨d, h⟩ := restoreDrive_eq c id s slot
  rw [h, policy_setDrive]

@[simp]
theorem store_restoreDrive (c : Catalog σ) (id : DriveId) (s : DriveState) (slot : Option Nat) :
    (c.restoreDrive id s slot).store = c.store := by
  obtain ⟨d, h⟩ := restoreDrive_eq c id s slot
  rw [h, store_setDrive]

omit [SaveStore σ] in
theorem matchSlot?_congr {c c' : Catalog σ} (h : c'.slots = c.slots) (s : DriveState)
    (taken : Option Nat) : c'.matchSlot? s taken = c.matchSlot? s taken := by
  simp [matchSlot?, slotOf?, h]

theorem hasSave_congr {c d : Catalog σ} (hs : d.slots = c.slots) (hst : d.store = c.store)
    (i : InsertedDisk) (slot : Option Nat) : d.hasSave i slot = c.hasSave i slot := by
  unfold hasSave
  rw [hs, hst]

theorem presents_restoreDrive_of_slotOf? {c : Catalog σ} {s : DriveState} {name : String}
    {taken : Option Nat} {t : Nat} (h : c.slotOf? name taken = some t) (id : DriveId) :
    ((c.restoreDrive id s taken).drive id).presents t = false := by
  apply Bool.eq_false_iff.mpr
  intro hp
  obtain ⟨hi, hslot⟩ := (presents_eq_true_iff _ t).mp hp
  exact slotOf?_ne_taken h ((slot_restoreDrive hi).1.symm.trans hslot)

theorem moves_ejectBoth [Zip.Library] (into : DriveId → Bool) (c : Catalog σ) (keep : Bool)
    (tick : UInt64) (hr : op.Restores) :
    Moves into op c { (c.eject .a keep).eject .b keep with tick := tick } ∧
      ∀ id, (({ (c.eject .a keep).eject .b keep with
        tick := tick } : Catalog σ).drive id).inserted = none := by
  have ha : Moves into op c (c.eject .a keep) := .single (.eject c .a keep fun _ => hr)
  have hb : Moves into op c ((c.eject .a keep).eject .b keep) :=
    ha.tail (.eject _ .b keep fun _ => hr)
  constructor
  · exact hb.trans (moves_host _ _ tick)
  · intro id
    change (((c.eject .a keep).eject .b keep).drive id).inserted = none
    cases id <;> simp

theorem Move.restoreDrive [Zip.Library] (c : Catalog σ) (id : DriveId) (file : Bytes) (s : Snapshot)
    (taken : Option Nat) (ho : op = .restore file) (hs : Snapshot.ofBytes file = .ok s)
    (he : (c.drive id).inserted = none)
    (hf : ∀ t, c.matchSlot? (stateOf s id) taken = some t →
      (c.drive id.other).presents t = false) :
    Move into op c (c.restoreDrive id (stateOf s id) (c.matchSlot? (stateOf s id) taken)) where
  change := .restore c id file s taken _ ho hs he rfl hf
  slots := .inr (by simp)
  policy := .inr (by simp)
  drives := .inl (by rw [ho]; trivial)

theorem moves_restoreState [Zip.Library] (c : Catalog σ) (file : Bytes) (s : Snapshot)
    (ho : op = .restore file) (hs : Snapshot.ofBytes file = .ok s) :
    Moves into op c (c.restoreState s) := by
  have hr : op.Restores := by rw [ho]; trivial
  obtain ⟨h₁, hempty⟩ := moves_ejectBoth into c c.policy.persistOnRestore s.tick hr
  unfold restoreState
  dsimp only
  generalize ({ (c.eject .a c.policy.persistOnRestore).eject .b c.policy.persistOnRestore with
    tick := s.tick } : Catalog σ) = c₁ at h₁ hempty ⊢
  have h₂ := h₁.tail (.restoreDrive c₁ .a file s none ho hs (hempty .a)
    fun t _ => presents_eq_false_of_empty (hempty .b) t)
  have hother := drive_restoreDrive_other c₁ .a s.driveA (c₁.matchSlot? s.driveA none)
  apply h₂.tail
  have hslot := matchSlot?_congr (slots_restoreDrive c₁ .a s.driveA (c₁.matchSlot? s.driveA none))
    s.driveB (c₁.matchSlot? s.driveA none)
  rw [← hslot]
  apply Move.restoreDrive _ .b file s _ ho hs
  · exact (congrArg Drive.inserted hother).trans (hempty .b)
  · intro t ht
    obtain ⟨disk, -, hd⟩ := Option.bind_eq_some_iff.mp (hslot.symm.trans ht)
    exact presents_restoreDrive_of_slotOf? hd .a

theorem moves_restore [Zip.Library] (c : Catalog σ) (file : Bytes) (ho : op = .restore file) :
    Moves into op c (c.restore file).1 := by
  unfold restore
  split
  · rename_i s hs
    exact moves_restoreState c file s ho hs
  · exact .refl

/-! ## Every operation -/

theorem moves_step [Zip.Library] (c : Catalog σ) (op : Operation) :
    Moves (op.presents c) op c (c.step op).1 := by
  cases op with
  | add => exact moves_add c trivial
  | replace slot name file => exact moves_replace c slot name file rfl
  | select id slot => exact moves_select c id slot
  | setInserted id inserted =>
    apply moves_setInserted c id inserted
    intro hi he
    simp [Operation.presents, Drive.isInserted, hi, he]
  | read id address count => exact .refl
  | write id address data => exact moves_write c id address data rfl
  | lineOverride id => exact moves_lineOverride c id
  | lineSignal id => exact moves_lineSignal c id
  | setWriteProtected id on => exact .single (.of_drive (.adjust c id (c.drive id).timer on) rfl)
  | setTick tick => exact moves_host c c.codec tick
  | advance => exact moves_host c c.codec _
  | setPolicy policy => exact moves_setPolicy c policy rfl
  | setCodec codec => exact moves_host c codec c.tick
  | loadTitle name file =>
    have hc : (Operation.loadTitle name file).Clears := trivial
    exact (moves_clear c hc).trans
      (moves_loadTitle c name file trivial (fun _ => trivial) (fun _ => rfl))
  | loadPlaylist start files =>
    have hc : (Operation.loadPlaylist start files).Clears := trivial
    exact (moves_clear c hc).trans
      (moves_loadPlaylist c start files trivial (fun _ => trivial) (fun _ => rfl))
  | clear => exact moves_clear c trivial
  | reinsertAll =>
    apply moves_reinsertAll c rfl
    intro hb
    simp [Operation.presents, hb]
  | resetTimers => exact moves_resetTimers c
  | save => exact .refl
  | restore file => exact moves_restore c file rfl

theorem changes_step [Zip.Library] (c : Catalog σ) (op : Operation) : Changes op c (c.step op).1 :=
  (moves_step c op).changes

theorem exists_moves_reinsert [Zip.Library] (op : Operation) (c : Catalog σ) (id : DriveId) :
    ∃ d, (d.drive id).inserted = none ∧ Moves (fun _ => true) op d (c.reinsert id).1 := by
  unfold reinsert
  split
  · exact ⟨c.eject id true, by simp, moves_insert _ id fun _ => rfl⟩
  · rename_i h
    exact ⟨c, by simpa [Drive.isInserted] using h, .refl⟩

theorem exists_moves_of_presents [Zip.Library] {c : Catalog σ} {id : DriveId}
    (h : op.presents c id = true) :
    ∃ d, (d.drive id).inserted = none ∧ Moves (fun _ => true) op d (c.step op).1 := by
  cases op with
  | setInserted drive inserted =>
    simp only [Operation.presents, Bool.and_eq_true, beq_iff_eq, Bool.not_eq_true'] at h
    obtain ⟨-, he⟩ := h
    exact ⟨c, by simpa [Drive.isInserted] using he, moves_setInserted c drive inserted
      fun _ _ => rfl⟩
  | loadTitle name file =>
    exact ⟨c.clear, (drive_unload_both c id).1,
      moves_loadTitle c name file trivial (fun _ => trivial) (fun _ => rfl)⟩
  | loadPlaylist start files =>
    exact ⟨c.clear, (drive_unload_both c id).1,
      moves_loadPlaylist c start files trivial (fun _ => trivial) (fun _ => rfl)⟩
  | reinsertAll =>
    change ∃ d, (d.drive id).inserted = none ∧ Moves (fun _ => true) .reinsertAll d c.reinsertAll.1
    rw [reinsertAll_fst]
    cases id with
    | a =>
      obtain ⟨d, hd, hm⟩ := exists_moves_reinsert .reinsertAll c .a
      refine ⟨d, hd, ?_⟩
      split
      · exact hm.trans (moves_reinsert _ .b rfl)
      · exact hm
    | b =>
      have hb : c.policy.driveBEnabled = true := by simpa [Operation.presents] using h
      rw [if_pos hb]
      exact exists_moves_reinsert .reinsertAll _ .b
  | _ => cases h

/-- The save store changes only when a disk leaves a drive. -/
theorem Change.store_eq [Zip.Library] {c c' : Catalog σ} (h : Change op c c') :
    c'.store = c.store ∨ ∃ id keep, c' = c.eject id keep := by
  cases h with
  | eject id keep hk => exact .inr ⟨id, keep, rfl⟩
  | add hl => exact .inl rfl
  | fill slot image ho hi hl hf => exact .inl rfl
  | point id slot he hl => exact .inl (store_setDrive c id _)
  | insert id slot image disk he hs hf hi hd hp => exact .inl (store_setDrive c id _)
  | write id address data d ho hd => exact .inl (store_setDrive c id d)
  | adjust id timer on => exact .inl (store_setDrive c id _)
  | host policy codec tick => exact .inl rfl
  | discard ho he hs => exact .inl rfl
  | restore id file s taken slot ho hs he hm hf => exact .inl (store_restoreDrive c id _ slot)

/-- What every elementary change of every operation keeps holds after every run. -/
theorem run_keeps_of_change [Zip.Library] {I : Catalog σ → Prop}
    (hI : ∀ op c c', Change op c c' → I c → I c') (c : Catalog σ) (ops : List Operation)
    (h : I c) : I (c.run ops) :=
  run_keeps I (fun c op => Changes.keeps (hI op) (changes_step c op)) c ops h

end Catalog

end Diskette
