import Diskette.Proofs.Disk.Decoding
import Diskette.Snapshot

/-!
# Records of drives

The record that is written for a drive is read back as it was, whatever follows it, and the disk in
it is the disk that the drive held. Only two things of the disk are not in the record: whether it is
a saved copy, and the layout it declares, for which the presented one stands.
-/

set_option autoImplicit false

namespace Diskette

/-! ## Readers -/

namespace Snapshot

theorem bind_of_ok {α β : Type} {x : Reader α} {f : α → Reader β} {b rest : Bytes} {a : α}
    (h : x b = .ok (a, rest)) : (x >>= f) b = f a rest := by
  change (x b >>= fun p => f p.1 p.2) = f a rest
  rw [h]
  rfl

theorem chunk_append (a rest : Bytes) : chunk a.length (a ++ rest) = .ok (a, rest) := by
  simp only [chunk, Bytes.next, Bytes.split?_append]

theorem number_append {width n : Nat} (h : n < Bytes.limit width) (rest : Bytes) :
    number width (Bytes.toBE width n ++ rest) = .ok (n, rest) := by
  have hc := chunk_append (Bytes.toBE width n) rest
  rw [Bytes.length_toBE] at hc
  rw [number, bind_of_ok hc, Bytes.beNat_toBE width n h]
  rfl

theorem byte_cons (b : UInt8) (rest : Bytes) : byte (b :: rest) = .ok (b, rest) := by
  have hb : Bytes.toBE 1 b.toNat = [b] := by simp [Bytes.toBE, Bytes.toLE]
  have hn : number 1 (Bytes.toBE 1 b.toNat ++ rest) = .ok (b.toNat, rest) :=
    number_append b.toNat_lt rest
  rw [hb] at hn
  rw [byte, ← List.singleton_append, bind_of_ok hn, UInt8.ofNat_toNat]
  rfl

theorem word_append (n : UInt16) (rest : Bytes) :
    word (Bytes.toBE 2 n.toNat ++ rest) = .ok (n, rest) := by
  rw [word, bind_of_ok (number_append n.toNat_lt rest), UInt16.ofNat_toNat]
  rfl

theorem long_append (n : UInt64) (rest : Bytes) :
    long (Bytes.toBE 8 n.toNat ++ rest) = .ok (n, rest) := by
  rw [long, bind_of_ok (number_append n.toNat_lt rest), UInt64.ofNat_toNat]
  rfl

end Snapshot

namespace DriveRecord

open Snapshot

/-- The record can be written, and what is left out for an empty drive is empty. -/
structure Fits (r : DriveRecord) : Prop where
  image : r.image.length ≤ maxImageSize
  name : r.name.length < Bytes.limit 2
  header : r.header.length < Bytes.limit 2
  empty : r.inserted = 0 → r.image = [] ∧ r.header = []

variable {r : DriveRecord}

theorem Fits.image_lt (h : r.Fits) : r.image.length < Bytes.limit 4 :=
  Nat.lt_of_le_of_lt h.image (by decide)

theorem Fits.oversize?_eq_none (h : r.Fits) : r.oversize? = none := by
  rw [oversize?, if_neg, if_neg, if_neg]
  · exact Nat.not_le_of_lt h.header
  · exact Nat.not_le_of_lt h.name
  · exact Nat.not_le_of_lt h.image_lt

theorem chunk_unless_empty {b : Bytes} (h : r.inserted = 0 → b = []) (rest : Bytes) :
    chunk (if r.inserted = 0 then 0 else b.length) (b ++ rest) = .ok (b, rest) := by
  have hl : (if r.inserted = 0 then 0 else b.length) = b.length := by
    split
    · rename_i h0
      rw [h h0]
      rfl
    · rfl
  rw [hl]
  exact chunk_append b rest

theorem read_append (h : r.Fits) (position : Nat) (rest : Bytes) :
    read position (r.bytes ++ rest) = .ok (r, rest) := by
  have himage : ¬maxImageSize < r.image.length := Nat.not_lt_of_le h.image
  have hchunk := fun b => chunk_unless_empty (r := r) (b := b)
  unfold read bytes
  simp only [List.append_assoc, List.cons_append, List.nil_append]
  rw [bind_of_ok (byte_cons ..), bind_of_ok (byte_cons ..), bind_of_ok (byte_cons ..)]
  rw [bind_of_ok (number_append h.image_lt _)]
  rw [if_neg himage]
  rw [bind_of_ok (hchunk _ (fun h0 => (h.empty h0).1) _)]
  rw [bind_of_ok (number_append h.name _), bind_of_ok (chunk_append ..)]
  rw [bind_of_ok (byte_cons ..), bind_of_ok (byte_cons ..)]
  rw [bind_of_ok (word_append ..), bind_of_ok (word_append ..), bind_of_ok (byte_cons ..)]
  rw [bind_of_ok (number_append h.header _)]
  rw [bind_of_ok (hchunk _ (fun h0 => (h.empty h0).2) _)]
  rw [bind_of_ok (byte_cons ..), bind_of_ok (long_append ..)]
  rw [bind_of_ok (byte_cons ..), bind_of_ok (long_append ..)]
  rfl

def modifiedAt (r : DriveRecord) : Nat := 9 + r.image.length + r.name.length

theorem exists_bytes_eq (r : DriveRecord) : ∃ front back : Bytes, front.length = r.modifiedAt ∧
    ∀ m, ({ r with isModified := m } : DriveRecord).bytes = front ++ m :: back := by
  let front : Bytes := [r.kind, r.format, r.inserted] ++ Bytes.toBE 4 r.image.length ++ r.image ++
    Bytes.toBE 2 r.name.length ++ r.name
  let back : Bytes := r.okToPersist :: (Bytes.toBE 2 r.sides.toNat ++
    Bytes.toBE 2 r.sectorsPerTrack.toNat ++ r.isArchived :: (Bytes.toBE 2 r.header.length ++
    r.header ++ r.firstEvent :: (Bytes.toBE 8 r.firstStart.toNat ++
    r.secondEvent :: Bytes.toBE 8 r.secondStart.toNat)))
  have hl : front.length = r.modifiedAt := by
    simp only [front, modifiedAt, List.length_append, List.length_cons, List.length_nil,
      Bytes.length_toBE]
    omega
  have hb : ∀ m, ({ r with isModified := m } : DriveRecord).bytes = front ++ m :: back := by
    intro m
    simp only [front, back, bytes, List.append_assoc, List.cons_append, List.nil_append]
  exact ⟨front, back, hl, hb⟩

theorem bytes_withModified (r : DriveRecord) (m : UInt8) :
    ({ r with isModified := m } : DriveRecord).bytes = r.bytes.set r.modifiedAt m := by
  obtain ⟨front, back, hl, h⟩ := r.exists_bytes_eq
  rw [h, ← hl, h r.isModified, List.set_append_right _ _ (Nat.le_refl _), Nat.sub_self]
  rfl

theorem getElem?_modifiedAt (r : DriveRecord) : r.bytes[r.modifiedAt]? = some r.isModified := by
  obtain ⟨front, back, hl, h⟩ := r.exists_bytes_eq
  rw [← hl, h r.isModified, List.getElem?_append_right (Nat.le_refl _), Nat.sub_self]
  rfl

end DriveRecord

/-! ## What a record keeps of a disk -/

/-- A disk that a record can describe. -/
structure InsertedDisk.Sound (i : InsertedDisk) : Prop where
  kind : i.disk.kind ≠ .none
  format : i.disk.kind = i.disk.format.kind
  data : i.disk.data ≠ []
  /-- No header is never written as an empty one. -/
  header : i.disk.header ≠ some []
  geometry : i.geometry = .ofLength i.disk.data.length i.geometry.layout

structure InsertedDisk.Small (i : InsertedDisk) : Prop where
  data : i.disk.data.length ≤ maxImageSize
  name : i.name.toUTF8.size ≤ 65535
  header : (i.disk.header.getD []).length ≤ 65535

/-- The disk as its record gives it back. -/
def InsertedDisk.recorded (i : InsertedDisk) : InsertedDisk :=
  { i with
    disk := { i.disk with recorded := i.geometry.layout.usable? }
    isSaved := false }

def DriveState.recorded (s : DriveState) : DriveState :=
  { s with inserted := s.inserted.map InsertedDisk.recorded }

namespace DriveRecord

open Snapshot

theorem phaseOf_eventTag (p : Option Phase) :
    phaseOf (eventTag (p.map (·.event))) ((p.map (·.start)).getD 0) = .ok p := by
  rcases p with _ | ⟨_ | _, start⟩ <;> rfl

theorem flag_ne_zero (b : Bool) : (flag b != 0) = b := by
  cases b <;> rfl

theorem toList_loop (b : ByteArray) (i : Nat) (front : Bytes) :
    ByteArray.toList.loop b i front = front.reverse ++ b.data.toList.drop i := by
  fun_induction ByteArray.toList.loop b i front with
  | case1 i front h ih =>
    have hl : i < b.data.toList.length := by simpa using h
    have hg : b.get! i = b.data.toList[i] := by
      rw [Array.getElem_toList]
      exact getElem!_pos b.data i h
    rw [ih, List.drop_eq_getElem_cons hl, hg, List.reverse_cons, List.append_assoc]
    rfl
  | case2 i front h =>
    have hl : b.data.toList.length ≤ i := by simpa using h
    rw [List.drop_eq_nil_of_le hl, List.append_nil]

theorem toList_eq (b : ByteArray) : b.toList = b.data.toList := by
  rw [ByteArray.toList, toList_loop]
  rfl

theorem fromUTF8?_toUTF8 (name : String) :
    String.fromUTF8? ⟨name.toUTF8.toList.toArray⟩ = some name := by
  have hb : (⟨name.toUTF8.toList.toArray⟩ : ByteArray) = name.toByteArray := by
    rw [toList_eq]
    rfl
  rw [hb, String.fromUTF8?, dif_pos name.isValidUTF8]
  rfl

theorem disk_ofState {s : DriveState} {i : InsertedDisk} (hi : s.inserted = some i)
    (h : i.Sound) : (ofState s).disk = .ok i.recorded := by
  have hk : Kind.ofTag? i.disk.kind.tag = some i.disk.kind := Kind.ofTag?_tag _
  have hf : (Format.ofTag? i.disk.format.tag).filter (fun f => f.kind == i.disk.kind) =
      some i.disk.format := by
    have hb : (i.disk.format.kind == i.disk.kind) = true := beq_iff_eq.mpr h.format.symm
    rw [Format.ofTag?_tag, Option.filter_some, if_pos hb]
  have hd : i.disk.data.isEmpty = false := List.isEmpty_eq_false_iff.mpr h.data
  have hh : (if (i.disk.header.getD []).isEmpty then none else some (i.disk.header.getD [])) =
      i.disk.header := by
    have hne := h.header
    cases hh : i.disk.header with
    | none => rfl
    | some b =>
      rw [Option.getD_some, if_neg]
      intro hb
      rw [hh, List.isEmpty_iff.mp hb] at hne
      exact hne rfl
  have hg : Geometry.ofLength i.disk.data.length ⟨i.geometry.sides, i.geometry.sectorsPerTrack⟩ =
      i.geometry := h.geometry.symm
  rw [ofState, hi]
  cases hkind : i.disk.kind with
  | none => exact absurd hkind h.kind
  | plainSector | protectedIpf | protectedStx =>
    rw [hkind] at hk hf
    simp only [disk, hkind, hk, hf, hd, hh, hg, fromUTF8?_toUTF8, flag_ne_zero]
    rw [if_neg Bool.false_ne_true, ← hkind]
    rfl

theorem state_ofState {s : DriveState} (h : ∀ i, s.inserted = some i → i.Sound) :
    (ofState s).state = .ok s.recorded := by
  have hphases : (ofState s).firstEvent = eventTag (s.first.map (·.event)) ∧
      (ofState s).firstStart = (s.first.map (·.start)).getD 0 ∧
      (ofState s).secondEvent = eventTag (s.second.map (·.event)) ∧
      (ofState s).secondStart = (s.second.map (·.start)).getD 0 := by
    unfold ofState
    split <;> exact ⟨rfl, rfl, rfl, rfl⟩
  obtain ⟨h1, h2, h3, h4⟩ := hphases
  rw [state, h1, h2, h3, h4, phaseOf_eventTag, phaseOf_eventTag]
  cases hi : s.inserted with
  | none =>
    rw [DriveState.recorded, hi, ofState, hi]
    rfl
  | some i =>
    have hd := disk_ofState hi (h i hi)
    have h0 : (ofState s).inserted = 1 := by rw [ofState, hi]
    rw [DriveState.recorded, hi, h0, hd]
    rfl

theorem fits_ofState {s : DriveState} (h : ∀ i, s.inserted = some i → i.Small) :
    (ofState s).Fits := by
  cases hi : s.inserted with
  | none =>
    have h0 : 0 < Bytes.limit 2 := by decide
    rw [ofState, hi]
    exact ⟨Nat.zero_le _, h0, h0, fun _ => ⟨rfl, rfl⟩⟩
  | some i =>
    have hs := h i hi
    have hn : i.name.toUTF8.toList.length ≤ 65535 := by
      rw [toList_eq]
      exact hs.name
    rw [ofState, hi]
    constructor
    · exact hs.data
    · exact Nat.lt_succ_of_le hn
    · exact Nat.lt_succ_of_le hs.header
    · intro h0
      exact absurd (show (1 : UInt8) = 0 from h0) (by decide)

theorem write_eq_ok {s : DriveState} (h : ∀ i, s.inserted = some i → i.Small) :
    write s = .ok (ofState s).bytes := by
  rw [write, (fits_ofState h).oversize?_eq_none]

end DriveRecord

/-! ## Two records behind a tick -/

namespace Snapshot

def HasDisk (s : Snapshot) (i : InsertedDisk) : Prop :=
  s.driveA.inserted = some i ∨ s.driveB.inserted = some i

def prologue (tick : UInt64) : Bytes := magic ++ Bytes.toBE 4 version ++ Bytes.toBE 8 tick.toNat

theorem bytes_eq_ok {s : Snapshot} (h : ∀ i, s.HasDisk i → i.Small) :
    s.bytes = .ok (prologue s.tick ++
      (DriveRecord.ofState s.driveA).bytes ++ (DriveRecord.ofState s.driveB).bytes) := by
  have ha := DriveRecord.write_eq_ok (s := s.driveA) fun i hi => h i (.inl hi)
  have hb := DriveRecord.write_eq_ok (s := s.driveB) fun i hi => h i (.inr hi)
  rw [bytes, ha, hb]
  rfl

theorem readTick_append (tick : UInt64) (rest : Bytes) :
    readTick (Bytes.toBE 4 version ++ (Bytes.toBE 8 tick.toNat ++ rest)) = .ok (tick, rest) := by
  have hv : version < Bytes.limit 4 := by decide
  rw [readTick, bind_of_ok (number_append hv _), bind_of_ok (long_append ..), if_neg (by simp)]
  rfl

theorem bind_lift_of_ok {α β : Type} {x : Except SnapshotFault α} {f : α → Reader β} {a : α}
    (h : x = .ok a) (b : Bytes) : ((liftM x : Reader α) >>= f) b = f a b := by
  subst h
  rfl

theorem ofBytes_eq_ok {s : Snapshot} (hs : ∀ i, s.HasDisk i → i.Small)
    (hd : ∀ i, s.HasDisk i → i.Sound) :
    ofBytes (prologue s.tick ++
      (DriveRecord.ofState s.driveA).bytes ++ (DriveRecord.ofState s.driveB).bytes) =
      .ok ⟨s.tick, s.driveA.recorded, s.driveB.recorded⟩ := by
  have ha := DriveRecord.fits_ofState (s := s.driveA) fun i hi => hs i (.inl hi)
  have hb := DriveRecord.fits_ofState (s := s.driveB) fun i hi => hs i (.inr hi)
  have hsa := DriveRecord.state_ofState (s := s.driveA) fun i hi => hd i (.inl hi)
  have hsb := DriveRecord.state_ofState (s := s.driveB) fun i hi => hd i (.inr hi)
  have hbody : ∀ size, readBody size (Bytes.toBE 4 version ++ (Bytes.toBE 8 s.tick.toNat ++
      ((DriveRecord.ofState s.driveA).bytes ++ ((DriveRecord.ofState s.driveB).bytes ++ [])))) =
      .ok (⟨s.tick, s.driveA.recorded, s.driveB.recorded⟩, []) := by
    intro size
    rw [readBody, bind_of_ok (readTick_append ..)]
    rw [bind_of_ok (DriveRecord.read_append ha ..), bind_lift_of_ok hsa]
    rw [bind_of_ok (show (get : Reader Bytes) _ = .ok (_, _) from rfl)]
    rw [bind_of_ok (DriveRecord.read_append hb ..), bind_lift_of_ok hsb]
    rfl
  rw [List.append_nil] at hbody
  have hsplit := fun rest => Bytes.split?_append magic rest
  simp only [ofBytes, parse, prologue, List.append_assoc, hsplit]
  rw [if_neg (by simp), StateT.run', hbody]
  rfl

end Snapshot

/-! ## What is read -/

namespace DriveRecord

theorem sound_of_disk_eq_ok {r : DriveRecord} {i : InsertedDisk} (h : r.disk = .ok i) :
    i.Sound := by
  unfold disk at h
  split at h
  · cases h
  · cases h
  · rename_i kind hk _
    split at h
    · cases h
    · rename_i format hf
      have hkind : format.kind = kind := by
        obtain ⟨-, hf⟩ := Option.filter_eq_some_iff.mp hf
        exact beq_iff_eq.mp hf
      split at h
      · cases h
      · rename_i himage
        split at h
        · cases h
        · cases h
          constructor
          · exact hk
          · exact hkind.symm
          · exact fun h0 => himage (List.isEmpty_iff.mpr h0)
          · dsimp only
            split
            · simp
            · rename_i hh
              intro h0
              exact hh (List.isEmpty_iff.mpr (Option.some.inj h0))
          · rfl

theorem sound_of_state_eq_ok {r : DriveRecord} {s : DriveState} (h : r.state = .ok s) :
    ∀ i, s.inserted = some i → i.Sound := by
  obtain ⟨first, -, h⟩ := bind_eq_ok h
  obtain ⟨second, -, h⟩ := bind_eq_ok h
  split at h
  · cases h
    simp
  · obtain ⟨j, hj, h⟩ := bind_eq_ok h
    cases h
    intro i hi
    cases hi
    exact sound_of_disk_eq_ok hj

end DriveRecord

namespace Snapshot

theorem exists_of_bind_eq_ok {α β : Type} {x : Reader α} {f : α → Reader β} {b : Bytes}
    {r : β × Bytes} (h : (x >>= f) b = .ok r) :
    ∃ a rest, x b = .ok (a, rest) ∧ f a rest = .ok r := by
  obtain ⟨⟨a, rest⟩, ha, h⟩ := bind_eq_ok (show (x b >>= fun p => f p.1 p.2) = .ok r from h)
  exact ⟨a, rest, ha, h⟩

theorem eq_ok_of_lift {α : Type} {x : Except SnapshotFault α} {a : α} {b rest : Bytes}
    (h : (liftM x : Reader α) b = .ok (a, rest)) : x = .ok a := by
  cases x with
  | error e => cases h
  | ok a => cases h; rfl

theorem sound_of_readBody {size : Nat} {b rest : Bytes} {s : Snapshot}
    (h : readBody size b = .ok (s, rest)) : ∀ i, s.HasDisk i → i.Sound := by
  obtain ⟨tick, _, -, h⟩ := exists_of_bind_eq_ok h
  obtain ⟨recordA, _, -, h⟩ := exists_of_bind_eq_ok h
  obtain ⟨driveA, _, ha, h⟩ := exists_of_bind_eq_ok h
  obtain ⟨_, _, -, h⟩ := exists_of_bind_eq_ok h
  obtain ⟨recordB, _, -, h⟩ := exists_of_bind_eq_ok h
  obtain ⟨driveB, _, hb, h⟩ := exists_of_bind_eq_ok h
  cases h
  rintro i (hi | hi)
  · exact DriveRecord.sound_of_state_eq_ok (eq_ok_of_lift ha) i hi
  · exact DriveRecord.sound_of_state_eq_ok (eq_ok_of_lift hb) i hi

theorem readBody_of_ofBytes {file : Bytes} {s : Snapshot} (h : ofBytes file = .ok s) :
    ∃ body rest, Bytes.split? magic.length file = some (magic, body) ∧
      readBody file.length body = .ok (s, rest) := by
  unfold ofBytes at h
  split at h
  · rename_i s' hp
    cases h
    unfold parse at hp
    split at hp
    · cases hp
    · rename_i found body hsplit
      by_cases hm : found = magic
      · rw [if_neg (Decidable.not_not.mpr hm)] at hp
        obtain ⟨⟨s', rest⟩, hr, hp⟩ := bind_eq_ok hp
        cases hp
        exact ⟨body, rest, hm ▸ hsplit, hr⟩
      · rw [if_pos hm] at hp
        cases hp
  · cases h

theorem sound_of_ofBytes {file : Bytes} {s : Snapshot} (h : ofBytes file = .ok s) :
    ∀ i, s.HasDisk i → i.Sound := by
  obtain ⟨_, _, -, hr⟩ := readBody_of_ofBytes h
  exact sound_of_readBody hr

end Snapshot

/-! ## What is read back -/

namespace DriveRecord

open Snapshot

theorem lt_of_oversize? {r : DriveRecord} (h : r.oversize? = none) :
    r.image.length < Bytes.limit 4 ∧ r.name.length < Bytes.limit 2 ∧
      r.header.length < Bytes.limit 2 := by
  unfold oversize? at h
  split at h
  · cases h
  · split at h
    · cases h
    · split at h
      · cases h
      · omega

theorem image_le_of_read {r : DriveRecord} (h : r.oversize? = none) {position : Nat}
    {rest : Bytes} {x : DriveRecord × Bytes} (hr : read position (r.bytes ++ rest) = .ok x) :
    r.image.length ≤ maxImageSize := by
  apply Nat.le_of_not_lt
  intro hl
  unfold read bytes at hr
  simp only [List.append_assoc, List.cons_append, List.nil_append] at hr
  rw [bind_of_ok (byte_cons ..), bind_of_ok (byte_cons ..), bind_of_ok (byte_cons ..)] at hr
  rw [bind_of_ok (number_append (lt_of_oversize? h).1 _)] at hr
  rw [if_pos hl] at hr
  cases hr

theorem eq_of_write {s : DriveState} {b : Bytes} (h : write s = .ok b) :
    b = (ofState s).bytes ∧ (ofState s).oversize? = none := by
  unfold write at h
  dsimp only at h
  split at h
  · cases h
  · rename_i hn
    cases h
    exact ⟨rfl, hn⟩

theorem small_of_read {s : DriveState} {b : Bytes} (h : write s = .ok b) {position : Nat}
    {rest : Bytes} {x : DriveRecord × Bytes} (hr : read position (b ++ rest) = .ok x) :
    ∀ i, s.inserted = some i → i.Small := by
  obtain ⟨rfl, hw⟩ := eq_of_write h
  have himage := image_le_of_read hw hr
  obtain ⟨-, hname, hheader⟩ := lt_of_oversize? hw
  intro i hi
  rw [ofState, hi] at himage hname hheader
  dsimp only at himage hname hheader
  constructor
  · exact himage
  · rw [toList_eq] at hname
    exact Nat.le_of_lt_succ hname
  · exact Nat.le_of_lt_succ hheader

end DriveRecord

namespace Snapshot

theorem small_of_readBody {s : Snapshot} {a b : Bytes} (ha : DriveRecord.write s.driveA = .ok a)
    (hb : DriveRecord.write s.driveB = .ok b) (hd : ∀ i, s.HasDisk i → i.Sound) {size : Nat}
    {x : Snapshot × Bytes}
    (hr : readBody size (Bytes.toBE 4 version ++ (Bytes.toBE 8 s.tick.toNat ++ (a ++ b))) = .ok x) :
    ∀ i, s.HasDisk i → i.Small := by
  rw [readBody, bind_of_ok (readTick_append ..)] at hr
  have hsa : ∀ i, s.driveA.inserted = some i → i.Small := by
    obtain ⟨record, _, hread, -⟩ := exists_of_bind_eq_ok hr
    exact DriveRecord.small_of_read ha hread
  -- Now that the first record is known to fit, the reader is known to get to the second one.
  have hstate := DriveRecord.state_ofState (s := s.driveA) fun i hi => hd i (.inl hi)
  have hread := DriveRecord.read_append (DriveRecord.fits_ofState hsa) prologueSize b
  rw [← (DriveRecord.eq_of_write ha).1] at hread
  rw [bind_of_ok hread, bind_lift_of_ok hstate,
    bind_of_ok (show (get : Reader Bytes) _ = .ok (_, _) from rfl)] at hr
  obtain ⟨record, _, hread, -⟩ := exists_of_bind_eq_ok hr
  rw [← List.append_nil b] at hread
  rintro i (hi | hi)
  · exact hsa i hi
  · exact DriveRecord.small_of_read hb hread i hi

/-- A snapshot that is written and then accepted is read as it was, however large its disks are. -/
theorem eq_of_ofBytes {s t : Snapshot} {b : Bytes} (hd : ∀ i, s.HasDisk i → i.Sound)
    (hb : s.bytes = .ok b) (h : ofBytes b = .ok t) :
    t = ⟨s.tick, s.driveA.recorded, s.driveB.recorded⟩ := by
  obtain ⟨recordA, ha, hrest⟩ := bind_eq_ok hb
  obtain ⟨recordB, hb', hrest⟩ := bind_eq_ok hrest
  obtain ⟨body, rest, hsplit, hr⟩ := readBody_of_ofBytes h
  rw [← Except.ok.inj hrest] at hsplit hr
  simp only [List.append_assoc, Bytes.split?_append] at hsplit
  cases hsplit
  have hs := small_of_readBody ha hb' hd hr
  have hread := ofBytes_eq_ok hs hd
  rw [← Except.ok.inj ((bytes_eq_ok hs).symm.trans hb)] at h
  exact Except.ok.inj (h.symm.trans hread)

end Snapshot

end Diskette
