import Diskette.Proofs.Catalog.Delay
import Diskette.Proofs.Catalog.Independence
import Diskette.Proofs.Catalog.InStep
import Diskette.Zip.Reader

/-!
# Reinserting all disks

A reset of the machine takes the disks out of the drives and puts them back within one tick. It is
done to one drive after the other, but neither notices the other. Unless something was restored,
each disk finds its slot filled, and the line plays the whole swap from there on.
-/

set_option autoImplicit false

namespace Diskette

/-- The data that a drive shows when its disk has been out and is in again: that of the slot if the
disk has been changed and its changes cannot be kept. -/
def InsertedDisk.reinsertedData (i : InsertedDisk) (image : DiskImage) : Bytes :=
  if i.isModified = false ∨ i.okToPersist = true ∧ (i.disk.encode i.disk.format).isOk = true then
    i.disk.data
  else image.data

namespace SwapTimer

theorem toNat_later (tick : UInt64) (delay : UInt32) :
    (later tick delay).toNat = min (tick.toNat + delay.toNat) (UInt64.size - 1) := by
  rw [later, UInt64.toNat_ofNat_of_lt']
  exact Nat.lt_of_le_of_lt (Nat.min_le_right _ _) (by decide)

theorem schedule_swap {t : SwapTimer} {start : UInt64} (hi : (t.update start).isIdle = true)
    (hl : start < later start t.delay) :
    (t.schedule .eject start).schedule .insert start =
      Swap.timer t.delay (some ⟨.eject, start, .insert⟩) := by
  have hfirst : (t.update start).first = none := by
    simp only [isIdle, Bool.and_eq_true, Option.isNone_iff_eq_none] at hi
    exact hi.1
  have heject : t.schedule .eject start = Swap.timer t.delay (some ⟨.eject, start, .eject⟩) := by
    rw [schedule_of_first_eq_none hfirst]
    simp [Swap.timer]
  have hturn : ¬Swap.turn ⟨.eject, start, .eject⟩ t.delay ≤ start := UInt64.not_le.mpr hl
  rw [heject, schedule_timer, Swap.next, if_neg hturn]

theorem lineOverride_swap {t : SwapTimer} {start : UInt64} (hi : (t.update start).isIdle = true)
    (hd : 0 < t.delay.toNat) (hs : start.toNat + 2 * t.delay.toNat < UInt64.size) (now : UInt64) :
    ((t.schedule .eject start).schedule .insert start).lineOverride now =
      if now.toNat < start.toNat + t.delay.toNat then .forceProtected
      else if now.toNat < start.toNat + 2 * t.delay.toNat then .forceUnprotected
      else .none := by
  have hturn : (later start t.delay).toNat = start.toNat + t.delay.toNat := by
    rw [toNat_later]
    omega
  have hfinish : (later (later start t.delay) t.delay).toNat =
      start.toNat + 2 * t.delay.toNat := by
    rw [toNat_later, hturn]
    omega
  have hl : start < later start t.delay := by
    rw [UInt64.lt_iff_toNat_lt, hturn]
    omega
  rw [schedule_swap hi hl, lineOverride_timer]
  simp only [Swap.lineOverride, Swap.turn, Swap.finish, UInt64.lt_iff_toNat_lt, hturn, hfinish]
  simp [SwapEvent.lineOverride]

end SwapTimer

namespace Catalog

variable {σ : Type} [SaveStore σ]

omit [SaveStore σ] in
theorem Mapped.reserved {c : Catalog σ} (h : c.Mapped) {id : DriveId}
    (hi : (c.drive id).isInserted = true) : c.Reserved id := by
  intro s hs
  exact h.apart id s ((presents_eq_true_iff _ s).mpr ⟨hi, hs⟩)

omit [SaveStore σ] in
theorem Mapped.apart_of_inserted {c : Catalog σ} (h : c.Mapped)
    (hi : ∀ id, (c.drive id).isInserted = true) : c.Apart := by
  intro id s hs ht
  have hother := h.apart id s ((presents_eq_true_iff _ s).mpr ⟨hi id, hs⟩)
  exact Bool.eq_false_iff.mp hother ((presents_eq_true_iff _ s).mpr ⟨hi id.other, ht⟩)

theorem reinsert_of_empty {c : Catalog σ} {id : DriveId} (h : (c.drive id).isInserted = false) :
    c.reinsert id = (c, .ok ()) := by
  simp [reinsert, h]

theorem reinsert_of_inserted [Zip.Library] {c : Catalog σ} {id : DriveId}
    (h : (c.drive id).isInserted = true) :
    c.reinsert id = (c.step (.setInserted id false)).1.setInserted id true := by
  rw [reinsert, if_pos h]
  rfl

theorem reinsert_drive_other [Zip.Library] {c : Catalog σ} (h : c.Mapped) (id : DriveId) :
    (c.reinsert id).1.drive id.other = c.drive id.other := by
  cases hi : (c.drive id).isInserted with
  | false => rw [reinsert_of_empty hi]
  | true =>
    have heject := step_drive_other (.setInserted id false) (h.reserved hi)
    have hinsert := step_drive_other (.setInserted id true) heject.2
    rw [reinsert_of_inserted hi]
    exact hinsert.1.trans heject.1

theorem reinsert_view_other [Zip.Library] {c : Catalog σ} (h : c.Mapped) {id : DriveId}
    (ho : (c.drive id.other).isInserted = true) :
    (c.reinsert id).1.view id.other = c.view id.other := by
  cases hi : (c.drive id).isInserted with
  | false => rw [reinsert_of_empty hi]
  | true =>
    have hboth : ∀ j, (c.drive j).isInserted = true := by
      intro j
      rcases eq_or_eq_other id j with rfl | rfl
      · exact hi
      · exact ho
    have heject := step_view_other (.setInserted id false) (h.apart_of_inserted hboth)
    have hinsert := step_view_other (.setInserted id true) heject.2
    rw [reinsert_of_inserted hi]
    exact hinsert.1.trans heject.1

theorem reinsert_congr [Zip.Library] {c d : Catalog σ} (hc : c.Mapped) (hd : d.Mapped)
    {id : DriveId} (hv : d.view id = c.view id) :
    (d.reinsert id).2 = (c.reinsert id).2 ∧
      (d.reinsert id).1.drive id = (c.reinsert id).1.drive id := by
  have hdrive : d.drive id = c.drive id := congrArg View.drive hv
  cases hi : (c.drive id).isInserted with
  | false =>
    rw [reinsert_of_empty hi, reinsert_of_empty (hdrive ▸ hi)]
    exact ⟨rfl, hdrive⟩
  | true =>
    have hi' : (d.drive id).isInserted = true := hdrive ▸ hi
    have hreserved := (step_drive_other (.setInserted id false) (hc.reserved hi)).2
    have hreserved' := (step_drive_other (.setInserted id false) (hd.reserved hi')).2
    have heject := step_congr (.setInserted id false) hv (hc.reserved hi) (hd.reserved hi')
    have hinsert := step_congr (.setInserted id true) heject.2 hreserved hreserved'
    rw [reinsert_of_inserted hi, reinsert_of_inserted hi']
    exact ⟨Reply.done.inj hinsert.1, congrArg View.drive hinsert.2⟩

theorem Mapped.reinsert [Zip.Library] {c : Catalog σ} (h : c.Mapped) (id : DriveId) :
    (c.reinsert id).1.Mapped :=
  have hmoves : Moves (fun _ => true) .reinsertAll c (c.reinsert id).1 := moves_reinsert c id rfl
  hmoves.changes.keeps (fun _ _ => Mapped.change) h

theorem reinsert_second [Zip.Library] {c : Catalog σ} (h : c.Mapped) :
    ((c.reinsert .a).1.reinsert .b).2 = (c.reinsert .b).2 ∧
      ((c.reinsert .a).1.reinsert .b).1.drive .b = (c.reinsert .b).1.drive .b := by
  cases hb : (c.drive .b).isInserted with
  | true => exact reinsert_congr h (h.reinsert .a) (reinsert_view_other h hb)
  | false =>
    have hdrive : (c.reinsert .a).1.drive .b = c.drive .b := reinsert_drive_other h .a
    rw [reinsert_of_empty hb, reinsert_of_empty (hdrive ▸ hb)]
    exact ⟨rfl, hdrive⟩

theorem reinsertAll_snd [Zip.Library] {c : Catalog σ} (h : c.Mapped) :
    c.reinsertAll.2 = (c.reinsert .a).2.bind fun _ =>
      if c.policy.driveBEnabled then (c.reinsert .b).2 else .ok () := by
  rw [← (reinsert_second h).1]
  unfold reinsertAll
  dsimp only
  rw [policy_reinsert]
  cases (c.reinsert .a).2 <;> cases c.policy.driveBEnabled <;> rfl

theorem reinsertAll_drive [Zip.Library] {c : Catalog σ} (h : c.Mapped) {id : DriveId}
    (hb : id = .b → c.policy.driveBEnabled = true) :
    c.reinsertAll.1.drive id = (c.reinsert id).1.drive id := by
  rw [reinsertAll_fst]
  cases id with
  | a =>
    split
    · exact reinsert_drive_other (h.reinsert .a) .b
    · rfl
  | b =>
    rw [if_pos (hb rfl)]
    exact (reinsert_second h).2

theorem reinsertAll_drive_disabled [Zip.Library] {c : Catalog σ} (h : c.Mapped)
    (hb : c.policy.driveBEnabled = false) : c.reinsertAll.1.drive .b = c.drive .b := by
  rw [reinsertAll_fst, hb]
  exact reinsert_drive_other h .a

theorem Supplied.exists_slot_eject {c : Catalog σ} (h : c.Supplied) (hs : c.InStep) {id : DriveId}
    {i : InsertedDisk} (hi : (c.drive id).inserted = some i) :
    ∃ s image image', (c.drive id).slot = some s ∧ c.slots[s]? = some image ∧
      (c.eject id true).slots[s]? = some image' ∧ image'.isPopulated = true ∧
      image'.data = i.reinsertedData image := by
  obtain ⟨s, image, hslot, himage, hdata⟩ := hs id i hi
  cases hk : i.isKept with
  | true =>
    have hslots : (c.eject id true).slots =
        c.slots.set s { i.toImage with isSaved := true } := by
      rw [h.mapped.slots_eject]
      simp [slotsAfterEject, hslot, hi, hk]
    simp only [InsertedDisk.isKept, Bool.and_eq_true] at hk
    refine ⟨s, image, { i.toImage with isSaved := true }, hslot, himage, ?_, ?_, ?_⟩
    · rw [hslots]
      exact List.getElem?_set_self (h.mapped.inRange id s hslot)
    · exact Disk.isPopulated_of_encode hk.2
    · rw [InsertedDisk.reinsertedData, if_pos (.inr ⟨hk.1.2, hk.2⟩)]
      rfl
  | false =>
    obtain ⟨image', himage', hp⟩ := h.stocked id s (presents_eq_true_of hslot hi)
    cases himage.symm.trans himage'
    refine ⟨s, image, image, hslot, himage, ?_, hp, ?_⟩
    · rw [eject_of_not_isKept hi hk, slots_setDrive, himage]
    · rw [InsertedDisk.reinsertedData]
      split
      · rename_i hsame
        apply hdata
        cases hm : i.isModified with
        | false => rfl
        | true => simp_all [InsertedDisk.isKept]
      · rfl

theorem Supplied.reinsert [Zip.Library] {c : Catalog σ} (h : c.Supplied) (hs : c.InStep)
    {id : DriveId} {i : InsertedDisk} (hi : (c.drive id).inserted = some i) :
    ∃ s image j, (c.drive id).slot = some s ∧ c.slots[s]? = some image ∧
      j.disk.data = i.reinsertedData image ∧ (c.reinsert id).2 = .ok () ∧
      (c.reinsert id).1.drive id = ((c.drive id).eject c.tick).insert s j c.tick := by
  obtain ⟨s, image, image', hslot, himage, himage', hp, hdata⟩ := h.exists_slot_eject hs hi
  obtain ⟨j, hj⟩ := Option.isSome_iff_exists.mp (image'.isSome_working?.trans hp)
  have hinserted : (c.drive id).isInserted = true := by simp [Drive.isInserted, hi]
  have hreserved : (c.eject id true).Reserved id :=
    (step_drive_other (.setInserted id false) (h.mapped.reserved hinserted)).2
  have hempty : ((c.eject id true).drive id).isInserted = false := by simp [Drive.isInserted]
  have hdrive : (c.eject id true).drive id = (c.drive id).eject c.tick := by
    rw [drive_eject, if_pos ⟨rfl, hinserted⟩]
  have hinsert := insert_of_reserved hreserved hempty ((slot_eject c id id true).trans hslot)
  rw [working?, himage', Option.bind_some, hj, hdrive, tick_eject] at hinsert
  refine ⟨s, image, j, hslot, himage, (DiskImage.data_of_working? hj).trans hdata, ?_, ?_⟩
  · rw [Catalog.reinsert, if_pos hinserted, hinsert]
  · rw [Catalog.reinsert, if_pos hinserted, hinsert, drive_setDrive_self]

theorem Supplied.reinsert_snd [Zip.Library] {c : Catalog σ} (h : c.Supplied) (hs : c.InStep)
    (id : DriveId) :
    (c.reinsert id).2 = .ok () := by
  cases hi : (c.drive id).inserted with
  | none => rw [reinsert_of_empty (by simp [Drive.isInserted, hi])]
  | some i =>
    obtain ⟨-, -, -, -, -, -, hok, -⟩ := h.reinsert hs hi
    exact hok

/-- The disk of a drive has been out and is in again. -/
structure Reinserted (c c' : Catalog σ) (id : DriveId) (i : InsertedDisk) : Prop where
  data : ∃ s image j, (c.drive id).slot = some s ∧ c.slots[s]? = some image ∧
    (c'.drive id).inserted = some j ∧ j.disk.data = i.reinsertedData image
  line : ((c.drive id).timer.update c.tick).isIdle = true → 0 < c.policy.delay.toNat →
    c.tick.toNat + 2 * c.policy.delay.toNat < UInt64.size → ∀ now,
    ((c'.setTick now).lineOverride id).2 =
      if now.toNat < c.tick.toNat + c.policy.delay.toNat then .forceProtected
      else if now.toNat < c.tick.toNat + 2 * c.policy.delay.toNat then .forceUnprotected
      else .none

theorem Supplied.reinserted [Zip.Library] {c c' : Catalog σ} (h : c.Supplied) (hs : c.InStep)
    (ht : c.Timed) {id : DriveId} {i : InsertedDisk} (hi : (c.drive id).inserted = some i)
    (hd : c'.drive id = (c.reinsert id).1.drive id) :
    c.Reinserted c' id i ∧ (c'.drive id).slot = (c.drive id).slot := by
  obtain ⟨s, image, j, hslot, himage, hdata, -, hdrive⟩ := h.reinsert hs hi
  rw [hdrive] at hd
  refine ⟨⟨⟨s, image, j, hslot, himage, ?_, hdata⟩, ?_⟩, ?_⟩
  · rw [hd]
    rfl
  · intro hidle hpos hsize now
    have hdelay : (c.drive id).timer.delay = c.policy.delay := ht id
    change (c'.drive id).timer.lineOverride now = _
    rw [← hdelay] at hpos hsize ⊢
    rw [hd]
    exact SwapTimer.lineOverride_swap hidle hpos hsize now
  · rw [hd, hslot]
    rfl

/-- Reinserting all disks. After a run without a restore it succeeds, both drives and all slots are
as they were but for the data that could not be kept, and the line plays the swap. After any run
drive B is reinserted as if drive A did not exist, and the first fault is reported. -/
theorem reinsertAll_preserves [Zip.Library] (policy : Policy) (store : σ) (ops : List Operation)
    (c c' : Catalog σ) (result : Except Fault Unit) (hc : c = (Catalog.new policy store).run ops)
    (h : c.reinsertAll = (c', result)) :
    ((∀ op ∈ ops, ¬op.Restores) →
      result = .ok () ∧ c'.names = c.names ∧
      (∀ id, (c'.drive id).isInserted = (c.drive id).isInserted ∧
        (c'.drive id).slot = (c.drive id).slot) ∧
      ∀ id i, (c.drive id).inserted = some i → (id = .b → c.policy.driveBEnabled = true) →
        c.Reinserted c' id i) ∧
    (c.policy.driveBEnabled = false → c'.driveB = c.driveB) ∧
    (c.policy.driveBEnabled = true → c'.driveB = (c.reinsert .b).1.driveB) ∧
    result = (c.reinsert .a).2.bind fun _ =>
      if c.policy.driveBEnabled then (c.reinsert .b).2 else .ok () := by
  obtain rfl : c.reinsertAll.1 = c' := congrArg Prod.fst h
  obtain rfl : c.reinsertAll.2 = result := congrArg Prod.snd h
  have hm : c.Mapped := hc ▸ (Mapped.new policy store).run ops
  have hresult := reinsertAll_snd hm
  have hsecond : c.policy.driveBEnabled = true →
      c.reinsertAll.1.drive .b = (c.reinsert .b).1.drive .b :=
    fun hb => reinsertAll_drive hm fun _ => hb
  refine ⟨?_, reinsertAll_drive_disabled hm, hsecond, hresult⟩
  intro ho
  have hsupplied : c.Supplied := hc ▸ (Supplied.new policy store).run ops ho
  have hinStep : c.InStep := hc ▸ (InStep.new policy store).run (Mapped.new policy store) ops ho
  have htimed : c.Timed := hc ▸ (Timed.new policy store).run ops
  have hreinserted : ∀ id i, (c.drive id).inserted = some i →
      (id = .b → c.policy.driveBEnabled = true) →
      c.Reinserted c.reinsertAll.1 id i ∧ (c.reinsertAll.1.drive id).slot = (c.drive id).slot :=
    fun id i hi hb => hsupplied.reinserted hinStep htimed hi (reinsertAll_drive hm hb)
  have hkeeps : (Operation.reinsertAll).KeepsTitle := trivial
  refine ⟨?_, (Aged.step hm hkeeps).names, ?_, ?_⟩
  · rw [hresult, hsupplied.reinsert_snd hinStep, hsupplied.reinsert_snd hinStep]
    cases c.policy.driveBEnabled <;> rfl
  · intro id
    by_cases hb : id = .b → c.policy.driveBEnabled = true
    · cases hi : (c.drive id).inserted with
      | none =>
        have hempty : (c.drive id).isInserted = false := by simp [Drive.isInserted, hi]
        rw [reinsertAll_drive hm hb, reinsert_of_empty hempty]
        exact ⟨rfl, rfl⟩
      | some i =>
        obtain ⟨⟨s, image, j, -, -, hj, -⟩, -⟩ := (hreinserted id i hi hb).1
        exact ⟨by simp [Drive.isInserted, hi, hj], (hreinserted id i hi hb).2⟩
    · obtain ⟨rfl, hdisabled⟩ := Classical.not_imp.mp hb
      rw [reinsertAll_drive_disabled hm (Bool.eq_false_iff.mpr hdisabled)]
      exact ⟨rfl, rfl⟩
  · exact fun id i hi hb => (hreinserted id i hi hb).1

open scoped Zip.Reader in
/-- The disk in drive A has been written to, the one in drive B has not. Both drives are idle. -/
theorem reinsertAll_preserves_both :
    let ops : List Operation := [.add, .replace 0 (some "a.st") Disk.twoSectors, .add,
      .replace 1 (some "b.st") Disk.twoSectors, .select .a 0, .setInserted .a true, .select .b 1,
      .setInserted .b true, .write .a ⟨0, 0, 2⟩ [1, 2, 3], .setTick 100]
    let c := (new {} ({} : MemoryStore)).run ops
    (c.drive .a).isModified = true ∧ (c.drive .b).isModified = false ∧
      c.reinsertAll.2 = .ok () ∧ ∀ id, ∃ i, (c.drive id).inserted = some i ∧
        c.Reinserted c.reinsertAll.1 id i ∧
        ((c.reinsertAll.1.setTick 117).lineOverride id).2 = .forceProtected ∧
        ((c.reinsertAll.1.setTick 118).lineOverride id).2 = .forceUnprotected ∧
        ((c.reinsertAll.1.setTick 136).lineOverride id).2 = .none := by
  intro ops c
  have hmodified : (c.drive .a).isModified = true ∧ (c.drive .b).isModified = false := by
    decide +kernel
  have hin : ∀ id, (c.drive id).isInserted = true := by
    intro id
    cases id <;> decide +kernel
  have hidle : ∀ id, ((c.drive id).timer.update c.tick).isIdle = true := by
    intro id
    cases id <;> decide +kernel
  have hpolicy : c.policy = {} := by decide +kernel
  have htick : c.tick = 100 := by decide +kernel
  have hkeep : ∀ op ∈ ops, ¬op.Restores := by simp [ops, Operation.Restores]
  obtain ⟨hok, -, -, hdrives⟩ :=
    (reinsertAll_preserves {} ({} : MemoryStore) ops c c.reinsertAll.1 _ rfl Prod.mk.eta.symm).1
      hkeep
  refine ⟨hmodified.1, hmodified.2, hok, ?_⟩
  intro id
  obtain ⟨i, hi⟩ := Option.isSome_iff_exists.mp (hin id)
  have hreinserted := hdrives id i hi fun _ => by rw [hpolicy]
  have hline := hreinserted.line (hidle id)
  rw [hpolicy, htick] at hline
  have hline := hline (by decide) (by decide)
  refine ⟨i, hi, hreinserted, ?_, ?_, ?_⟩
  · exact (hline 117).trans (by decide)
  · exact (hline 118).trans (by decide)
  · exact (hline 136).trans (by decide)

end Catalog

end Diskette
