import Diskette.Proofs.Snapshot.Record

/-!
# How far a snapshot is read

A reader takes a front off a byte string and does not look behind it; if the string ends within that
front, the reader fails. Every field of a snapshot is read so, and a sequence of fields as well,
although a length that is read decides how far the next field goes. A snapshot that is accepted is
therefore decided by some front of it, and no less than that is accepted.
-/

set_option autoImplicit false

namespace Diskette.Snapshot

variable {α β : Type} {x y : Reader α} {f g : α → Reader β}

/-- The reader takes `front` off every string that starts with it, and fails on any part of it. -/
structure Takes (x : Reader α) (front : Bytes) (a : α) : Prop where
  full : ∀ rest, x (front ++ rest) = .ok (a, rest)
  short : ∀ cut, cut <+: front → cut ≠ front → ∀ r, x cut ≠ .ok r

namespace Takes

variable {front front' : Bytes} {a : α} {b : β}

theorem of_nil (h : ∀ rest, x rest = .ok (a, rest)) : Takes x [] a where
  full := h
  short _ hc hne := absurd (List.prefix_nil.mp hc) hne

theorem eq_nil_of_append {rest : Bytes} {a' : α} (h : Takes x front a)
    (hx : x front = .ok (a', rest)) : a' = a ∧ rest = [] := by
  have hfull := h.full []
  rw [List.append_nil, hx] at hfull
  cases hfull
  exact ⟨rfl, rfl⟩

theorem bind (hx : Takes x front a) (hf : Takes (f a) front' b) :
    Takes (x >>= f) (front ++ front') b := by
  constructor
  · intro rest
    rw [List.append_assoc, bind_of_ok (hx.full _), hf.full]
  · rintro cut ⟨missing, hcut⟩ hne ⟨c, rest⟩ h
    obtain ⟨a', rest', ha, hb⟩ := exists_of_bind_eq_ok h
    -- The string ends within what the first reader takes, or else behind that.
    rcases List.append_eq_append_iff.mp hcut with ⟨t, rfl, -⟩ | ⟨t, rfl, hfront'⟩
    · by_cases ht : t = []
      · subst ht
        rw [List.append_nil] at hx hne
        obtain ⟨rfl, rfl⟩ := hx.eq_nil_of_append ha
        refine hf.short [] List.nil_prefix ?_ _ hb
        rintro rfl
        exact hne (List.append_nil cut).symm
      · refine hx.short cut (List.prefix_append cut t) ?_ _ ha
        exact fun he => ht (List.self_eq_append_right.mp he)
    · rw [hx.full] at ha
      cases ha
      refine hf.short rest' ⟨missing, hfront'.symm⟩ ?_ _ hb
      rintro rfl
      exact hne rfl

end Takes

/-- Of whatever the reader accepts it takes a front, and does not look behind that. -/
def Forward (x : Reader α) : Prop :=
  ∀ b a rest, x b = .ok (a, rest) → ∃ front, b = front ++ rest ∧ Takes x front a

theorem chunk_eq_ok_iff {n : Nat} {b a rest : Bytes} :
    chunk n b = .ok (a, rest) ↔ b = a ++ rest ∧ a.length = n := by
  rw [← Bytes.split?_eq_some_iff]
  unfold chunk Bytes.next
  cases Bytes.split? n b with
  | none => simp
  | some r => simp

namespace Forward

theorem pure (a : α) : Forward (Pure.pure a : Reader α) := by
  intro b a' rest h
  cases h
  exact ⟨[], rfl, .of_nil fun _ => rfl⟩

theorem throw (fault : SnapshotFault) (f : α → Reader β) :
    Forward (MonadExcept.throw fault >>= f) := by
  intro b a rest h
  cases h

theorem lift (r : Except SnapshotFault α) : Forward (liftM r : Reader α) := by
  intro b a rest h
  cases r with
  | error fault => cases h
  | ok a' =>
    cases h
    exact ⟨[], rfl, .of_nil fun _ => rfl⟩

theorem bind (hx : Forward x) (hf : ∀ a, Forward (f a)) : Forward (x >>= f) := by
  intro b c rest h
  obtain ⟨a, rest', ha, hc⟩ := exists_of_bind_eq_ok h
  obtain ⟨front, rfl, hfront⟩ := hx b a rest' ha
  obtain ⟨front', rfl, hfront'⟩ := hf a rest' c rest hc
  exact ⟨front ++ front', (List.append_assoc ..).symm, hfront.bind hfront'⟩

theorem chunk (n : Nat) : Forward (chunk n) := by
  intro b a rest h
  obtain ⟨rfl, hl⟩ := chunk_eq_ok_iff.mp h
  refine ⟨a, rfl, fun _ => chunk_eq_ok_iff.mpr ⟨rfl, hl⟩, ?_⟩
  rintro cut hc hne ⟨a', rest'⟩ hcut
  obtain ⟨rfl, hl'⟩ := chunk_eq_ok_iff.mp hcut
  apply hne
  apply hc.eq_of_length_le
  rw [List.length_append, hl, hl']
  exact Nat.le_add_right n _

theorem number (width : Nat) : Forward (number width) :=
  (chunk width).bind fun _ => pure _

theorem byte : Forward byte :=
  (number 1).bind fun _ => pure _

theorem word : Forward word :=
  (number 2).bind fun _ => pure _

theorem long : Forward long :=
  (number 8).bind fun _ => pure _

end Forward

/-- The readers accept the same and read it the same. Their faults may differ. -/
def Agree (x y : Reader α) : Prop := ∀ b r, x b = .ok r ↔ y b = .ok r

namespace Agree

theorem refl (x : Reader α) : Agree x x := fun _ _ => Iff.rfl

theorem bind (hx : Agree x y) (hf : ∀ a, Agree (f a) (g a)) : Agree (x >>= f) (y >>= g) := by
  intro b r
  constructor
  · intro h
    obtain ⟨a, rest, ha, hr⟩ := exists_of_bind_eq_ok h
    rw [bind_of_ok ((hx _ _).mp ha)]
    exact (hf a _ _).mp hr
  · intro h
    obtain ⟨a, rest, ha, hr⟩ := exists_of_bind_eq_ok h
    rw [bind_of_ok ((hx _ _).mpr ha)]
    exact (hf a _ _).mpr hr

end Agree

theorem agree_read (position position' : Nat) :
    Agree (DriveRecord.read position) (DriveRecord.read position') := by
  unfold DriveRecord.read
  refine .bind (.refl _) fun _ => .bind (.refl _) fun _ => .bind (.refl _) fun _ => ?_
  refine .bind (.refl _) fun length => ?_
  by_cases hl : maxImageSize < length
  · rw [if_pos hl, if_pos hl]
    intro b r
    exact ⟨fun h => (by cases h), fun h => (by cases h)⟩
  · rw [if_neg hl, if_neg hl]
    exact .refl _

theorem forward_read (position : Nat) : Forward (DriveRecord.read position) := by
  unfold DriveRecord.read
  refine Forward.byte.bind fun _ => Forward.byte.bind fun _ => Forward.byte.bind fun _ => ?_
  refine (Forward.number 4).bind fun length => ?_
  by_cases hl : maxImageSize < length
  · rw [if_pos hl]
    exact .throw _ _
  · rw [if_neg hl]
    refine (Forward.chunk _).bind fun _ => ?_
    refine (Forward.number 2).bind fun _ => (Forward.chunk _).bind fun _ => ?_
    refine Forward.byte.bind fun _ => Forward.byte.bind fun _ => ?_
    refine Forward.word.bind fun _ => Forward.word.bind fun _ => Forward.byte.bind fun _ => ?_
    refine (Forward.number 2).bind fun _ => (Forward.chunk _).bind fun _ => ?_
    refine Forward.byte.bind fun _ => Forward.long.bind fun _ => ?_
    exact Forward.byte.bind fun _ => Forward.long.bind fun _ => .pure _

theorem forward_readTick : Forward readTick := by
  unfold readTick
  refine (Forward.number 4).bind fun found => Forward.long.bind fun tick => ?_
  by_cases hv : found ≠ version
  · rw [if_pos hv]
    exact .throw _ _
  · rw [if_neg hv]
    exact .pure _

def fields : Reader Snapshot := do
  let tick ← readTick
  let recordA ← DriveRecord.read prologueSize
  let driveA ← recordA.state
  let recordB ← DriveRecord.read prologueSize
  let driveB ← recordB.state
  pure ⟨tick, driveA, driveB⟩

theorem forward_fields : Forward fields := by
  unfold fields
  refine forward_readTick.bind fun _ => ?_
  refine (forward_read _).bind fun _ => (Forward.lift _).bind fun _ => ?_
  exact (forward_read _).bind fun _ => (Forward.lift _).bind fun _ => .pure _

theorem agree_readBody (size : Nat) : Agree (readBody size) fields := by
  unfold readBody fields
  refine .bind (.refl _) fun _ => .bind (.refl _) fun _ => .bind (.refl _) fun _ => ?_
  -- The place of the second record is told from what is left to read.
  intro b r
  rw [bind_of_ok (show (get : Reader Bytes) b = .ok (b, b) from rfl)]
  exact Agree.bind (agree_read _ _) (fun _ => .refl _) b r

theorem ofBytes_eq_ok_iff {file : Bytes} {s : Snapshot} :
    ofBytes file = .ok s ↔ ∃ body rest, file = magic ++ body ∧ fields body = .ok (s, rest) := by
  constructor
  · intro h
    obtain ⟨body, rest, hsplit, hr⟩ := readBody_of_ofBytes h
    exact ⟨body, rest, (Bytes.split?_eq_some_iff.mp hsplit).1, (agree_readBody _ _ _).mp hr⟩
  · rintro ⟨body, rest, rfl, hr⟩
    have hsplit := Bytes.split?_append magic body
    have hbody := (agree_readBody (magic ++ body).length _ _).mpr hr
    rw [ofBytes, parse, hsplit]
    dsimp only
    rw [if_neg (Decidable.not_not.mpr rfl), StateT.run', hbody]
    rfl

/-- The bytes that decide on a snapshot: all files that start with them are read the same way, and
nothing that ends before is read. -/
structure Extent (file : Bytes) (s : Snapshot) (n : Nat) : Prop where
  le_length : n ≤ file.length
  same : ∀ file', file'.take n = file.take n → ofBytes file' = .ok s
  cut : ∀ m < n, ∀ t, ofBytes (file.take m) ≠ .ok t

theorem extent_of_takes {front : Bytes} {s : Snapshot} (h : Takes fields front s) (rest : Bytes) :
    Extent (magic ++ front ++ rest) s (magic ++ front).length := by
  constructor
  · exact (List.prefix_append (magic ++ front) rest).length_le
  · intro file' hf
    rw [List.take_left] at hf
    have hfile := List.take_append_drop (magic ++ front).length file'
    rw [hf, List.append_assoc] at hfile
    exact ofBytes_eq_ok_iff.mpr ⟨_, _, hfile.symm, h.full _⟩
  · intro m hm t ht
    rw [List.take_append_of_le_length (Nat.le_of_lt hm)] at ht
    obtain ⟨body, rest', hbody, hr⟩ := ofBytes_eq_ok_iff.mp ht
    have hprefix : magic ++ body <+: magic ++ front := hbody ▸ List.take_prefix m _
    refine h.short body ((List.prefix_append_right_inj magic).mp hprefix) ?_ _ hr
    rintro rfl
    have hl := congrArg List.length hbody
    rw [List.length_take, Nat.min_eq_left (Nat.le_of_lt hm)] at hl
    exact Nat.ne_of_lt hm hl

theorem exists_extent {file : Bytes} {s : Snapshot} (h : ofBytes file = .ok s) :
    ∃ n, Extent file s n := by
  obtain ⟨body, rest, rfl, hr⟩ := ofBytes_eq_ok_iff.mp h
  obtain ⟨front, rfl, hfront⟩ := forward_fields _ _ _ hr
  rw [← List.append_assoc]
  exact ⟨_, extent_of_takes hfront rest⟩

theorem Extent.eq {file : Bytes} {s t : Snapshot} {m n : Nat} (hm : Extent file s m)
    (hn : Extent file t n) : m = n := by
  have htake : ∀ k, (file.take k).take k = file.take k := fun k => by
    rw [List.take_take, Nat.min_self]
  rcases Nat.lt_trichotomy m n with hlt | heq | hlt
  · exact absurd (hm.same _ (htake m)) (hn.cut m hlt s)
  · exact heq
  · exact absurd (hn.same _ (htake n)) (hm.cut n hlt t)

theorem eq_of_read_write {d : DriveState} {b : Bytes} (h : DriveRecord.write d = .ok b)
    {position : Nat} {rest : Bytes} {x : DriveRecord × Bytes}
    (hr : DriveRecord.read position (b ++ rest) = .ok x) : x = (DriveRecord.ofState d, rest) := by
  have hsmall := DriveRecord.small_of_read h hr
  obtain ⟨rfl, -⟩ := DriveRecord.eq_of_write h
  have hread := DriveRecord.read_append (DriveRecord.fits_ofState hsmall) position rest
  exact Except.ok.inj (hr.symm.trans hread)

theorem rest_of_lift {r : Except SnapshotFault α} {a : α} {b rest : Bytes}
    (h : (liftM r : Reader α) b = .ok (a, rest)) : rest = b := by
  cases r with
  | error fault => cases h
  | ok a' =>
    cases h
    rfl

theorem rest_of_fields {s t : Snapshot} {a b rest : Bytes} (ha : DriveRecord.write s.driveA = .ok a)
    (hb : DriveRecord.write s.driveB = .ok b)
    (h : fields (Bytes.toBE 4 version ++ (Bytes.toBE 8 s.tick.toNat ++ (a ++ b))) =
      .ok (t, rest)) : rest = [] := by
  rw [fields, bind_of_ok (readTick_append ..)] at h
  obtain ⟨recordA, restA, hreadA, h⟩ := exists_of_bind_eq_ok h
  cases eq_of_read_write ha hreadA
  obtain ⟨driveA, rest', hstateA, h⟩ := exists_of_bind_eq_ok h
  cases rest_of_lift hstateA
  obtain ⟨recordB, restB, hreadB, h⟩ := exists_of_bind_eq_ok h
  rw [← List.append_nil b] at hreadB
  cases eq_of_read_write hb hreadB
  obtain ⟨driveB, rest', hstateB, h⟩ := exists_of_bind_eq_ok h
  cases rest_of_lift hstateB
  cases h
  rfl

theorem extent_of_bytes {s t : Snapshot} {b : Bytes} (hb : s.bytes = .ok b)
    (h : ofBytes b = .ok t) : Extent b t b.length := by
  obtain ⟨recordA, ha, hrest⟩ := bind_eq_ok hb
  obtain ⟨recordB, hb', hrest⟩ := bind_eq_ok hrest
  cases hrest
  obtain ⟨body, rest, hbody, hr⟩ := ofBytes_eq_ok_iff.mp h
  simp only [List.append_assoc, List.append_cancel_left_eq] at hbody
  subst hbody
  cases rest_of_fields ha hb' hr
  obtain ⟨front, hfront, htakes⟩ := forward_fields _ _ _ hr
  rw [List.append_nil] at hfront
  have hextent := extent_of_takes htakes []
  rw [List.append_nil, ← hfront] at hextent
  simpa only [List.append_assoc] using hextent

end Diskette.Snapshot
