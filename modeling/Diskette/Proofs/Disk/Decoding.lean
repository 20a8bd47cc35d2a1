import Diskette.DiskImage
import Diskette.Proofs.Dim.Header

/-!
# What decoding makes sure of

A plain file that is read is small enough to be read again, and a header that is kept is one that a
file of its format can start with. A track of an MSA file comes out in its full size.
-/

set_option autoImplicit false

namespace Diskette

theorem bind_eq_ok {ε α β : Type} {x : Except ε α} {f : α → Except ε β} {b : β}
    (h : (x >>= f) = .ok b) : ∃ a, x = .ok a ∧ f a = .ok b := by
  cases x with
  | error e => cases h
  | ok a => exact ⟨a, rfl, h⟩

theorem bind_eq_error {ε α β : Type} {x : Except ε α} {f : α → Except ε β} {e : ε}
    (h : (x >>= f) = .error e) : x = .error e ∨ ∃ a, x = .ok a ∧ f a = .error e := by
  cases x with
  | error e' =>
    cases h
    exact .inl rfl
  | ok a => exact .inr ⟨a, rfl, h⟩

theorem eq_ok_of_toOption {ε α : Type} {r : Except ε α} {a : α} (h : r.toOption = some a) :
    r = .ok a := by
  cases r with
  | ok _ => cases h; rfl
  | error _ => cases h

theorem St.load_eq_ok {file : Bytes} {i : SectorImage} (h : St.load file = .ok i) :
    sectorSize ≤ file.length ∧ file.length % sectorSize = 0 ∧ file.length ≤ maxImageSize ∧
      i = { data := file } := by
  unfold load at h
  dsimp only at h
  split at h
  · cases h
  · rename_i hs
    split at h
    · cases h
    · rename_i hr
      split at h
      · cases h
      · rename_i hm
        cases h
        exact ⟨Nat.le_of_not_lt hs, by simpa using hr, Nat.le_of_not_lt hm, rfl⟩

theorem Dim.load_eq_ok {file : Bytes} {i : SectorImage} (h : Dim.load file = .ok i) :
    ∃ header data, file = header ++ data ∧ header.length = headerSize ∧
      isSupported header = true ∧ (data ≠ [] ∧ data.length % sectorSize = 0) ∧
      file.length ≤ maxImageSize ∧
      i = { data := data, layout := headerLayout header, header := some header } := by
  unfold load at h
  split at h
  · cases h
  · rename_i hm
    split at h
    · cases h
    · rename_i header data hs
      obtain ⟨rfl, hl⟩ := Bytes.split?_eq_some_iff.mp hs
      split at h
      · cases h
      · rename_i hp
        split at h
        · cases h
        · rename_i hd
          cases h
          have hne : data ≠ [] := fun h0 => hd (.inl (by rw [h0]; rfl))
          have hmod : data.length % sectorSize = 0 := Decidable.byContradiction fun h0 => hd (.inr h0)
          exact ⟨header, data, rfl, hl, by simpa using hp, ⟨hne, hmod⟩, Nat.le_of_not_lt hm, rfl⟩

namespace Msa

theorem length_unpackOnto {size : Nat} {packed track result : Bytes} {filled : Nat}
    (hf : track.length = filled) (h : unpackOnto size packed filled track = .ok result) :
    result.length = size := by
  fun_induction unpackOnto size packed filled track with
  | case1 track =>
    cases h
    rw [List.length_reverse, hf]
  | case2 | case3 | case5 | case6 => cases h
  | case4 filled track value high low rest count hc ih =>
    apply ih _ h
    rw [List.length_append, List.length_replicate, hf, Nat.add_comm]
  | case7 filled track b rest hb hs ih =>
    apply ih _ h
    rw [List.length_cons, hf]

theorem length_unpack {size : Nat} {packed result : Bytes}
    (h : unpack size packed = .ok result) : result.length = size := by
  unfold unpack at h
  exact length_unpackOnto List.length_nil h

theorem loadTracks_cons (size : Nat) (place : Nat × Nat) (more : List (Nat × Nat)) (file : Bytes) :
    loadTracks size (place :: more) file =
      match Bytes.split? 2 file with
      | none => .error (.decode (.msaCutShort place.1 place.2))
      | some (field, behind) =>
        if size < Bytes.beNat field then
          .error (.decode (.msaOverlong place.1 place.2 (Bytes.beNat field)))
        else
          match Bytes.split? (Bytes.beNat field) behind with
          | none => .error (.decode (.msaCutShort place.1 place.2))
          | some (content, rest) =>
            (if Bytes.beNat field = size then .ok content else unpack size content) >>= fun first =>
              loadTracks size more rest >>= fun others => .ok (first :: others) := by
  rw [loadTracks]
  cases Bytes.split? 2 file with
  | none => rfl
  | some r =>
    obtain ⟨field, behind⟩ := r
    dsimp only
    by_cases hle : size < Bytes.beNat field
    · rw [if_pos hle, if_pos hle]
    · rw [if_neg hle, if_neg hle]
      cases Bytes.split? (Bytes.beNat field) behind with
      | none => rfl
      | some r =>
        obtain ⟨content, rest⟩ := r
        dsimp only
        split <;> rfl

theorem loadTracks_eq_ok {size : Nat} {places : List (Nat × Nat)} {file : Bytes}
    {tracks : List Bytes} (h : loadTracks size places file = .ok tracks) :
    tracks.length = places.length ∧ ∀ t ∈ tracks, t.length = size := by
  induction places generalizing file tracks with
  | nil =>
    cases h
    exact ⟨rfl, by simp⟩
  | cons place more ih =>
    rw [loadTracks_cons] at h
    split at h
    · cases h
    · split at h
      · cases h
      · split at h
        · cases h
        · rename_i field _ _ _ _ content rest hcontent
          have hl : content.length = Bytes.beNat field := (Bytes.split?_eq_some_iff.mp hcontent).2
          obtain ⟨first, hfirst, h⟩ := bind_eq_ok h
          obtain ⟨others, hothers, h⟩ := bind_eq_ok h
          cases h
          have hsize : first.length = size := by
            split at hfirst
            · rename_i hs
              cases hfirst
              exact hl.trans hs
            · exact length_unpack hfirst
          obtain ⟨hn, ht⟩ := ih hothers
          constructor
          · rw [List.length_cons, List.length_cons, hn]
          · intro t hm
            rcases List.mem_cons.mp hm with rfl | hm
            · exact hsize
            · exact ht t hm

theorem length_flatten {size : Nat} {tracks : List Bytes} (h : ∀ t ∈ tracks, t.length = size) :
    tracks.flatten.length = tracks.length * size := by
  induction tracks with
  | nil => simp
  | cons t rest ih =>
    have ht := h t (by simp)
    have hr := ih fun u hu => h u (by simp [hu])
    rw [List.flatten_cons, List.length_append, List.length_cons, ht, hr, Nat.succ_mul, Nat.add_comm]

theorem length_stored (h : Header) :
    h.stored.length = (h.endTrack.toNat + 1 - h.startTrack.toNat) * h.layout.sides.toNat := by
  simp [Header.stored, List.length_flatMap, List.map_const']

structure Header.Valid (h : Header) : Prop where
  signature : h.signature = 0x0E0F
  sectors_pos : 1 ≤ h.sectorsPerTrack.toNat
  sectors_le : h.sectorsPerTrack.toNat ≤ 64
  lastSide_le : h.lastSide.toNat ≤ 1
  startTrack_le : h.startTrack.toNat ≤ h.endTrack.toNat
  endTrack_le : h.endTrack.toNat ≤ 85

theorem Header.isValid_iff (h : Header) : h.isValid = true ↔ h.Valid := by
  simp only [isValid, Bool.and_eq_true, decide_eq_true_eq, beq_iff_eq, UInt16.le_iff_toNat_le]
  constructor
  · rintro ⟨⟨⟨⟨hs, hpos, hle⟩, hside⟩, hstart⟩, hend⟩
    exact ⟨hs, hpos, hle, hside, hstart, hend⟩
  · rintro ⟨hs, hpos, hle, hside, hstart, hend⟩
    exact ⟨⟨⟨⟨hs, hpos, hle⟩, hside⟩, hstart⟩, hend⟩

namespace Header.Valid

variable {h : Header}

theorem toNat_sides (hv : h.Valid) : h.layout.sides.toNat = h.lastSide.toNat + 1 := by
  have h1 : (1 : UInt16).toNat = 1 := rfl
  have hside := hv.lastSide_le
  rw [layout, UInt16.toNat_add, h1]
  omega

theorem sides_le (hv : h.Valid) : h.layout.sides.toNat ≤ 2 := by
  rw [hv.toNat_sides]
  exact Nat.succ_le_succ hv.lastSide_le

theorem trackSize_le (hv : h.Valid) : h.trackSize ≤ 64 * 512 :=
  Nat.mul_le_mul_right 512 hv.sectors_le

theorem trackSize_lt (hv : h.Valid) : h.trackSize < 65536 :=
  Nat.lt_of_le_of_lt hv.trackSize_le (by decide)

theorem length_le (hv : h.Valid) :
    (h.endTrack.toNat + 1) * h.layout.sides.toNat * h.trackSize ≤ maxImageSize := by
  have htracks : h.endTrack.toNat + 1 ≤ 86 := Nat.succ_le_succ hv.endTrack_le
  calc
    _ ≤ 86 * 2 * (64 * 512) :=
      Nat.mul_le_mul (Nat.mul_le_mul htracks hv.sides_le) hv.trackSize_le
    _ ≤ maxImageSize := by decide

end Header.Valid

/-- An image that is read has a valid header's layout and all tracks up to its last one. -/
theorem load_eq_ok {file : Bytes} {i : SectorImage} (h : load file = .ok i) :
    ∃ header : Header, header.Valid ∧ i.header = none ∧ i.layout = header.layout ∧
      i.data.length =
        (header.endTrack.toNat + 1) * header.layout.sides.toNat * header.trackSize := by
  unfold load at h
  split at h
  · cases h
  · split at h
    · cases h
    · rename_i front rest _
      dsimp only at h
      generalize hh : Header.ofBytes front = header at h
      split at h
      · cases h
      · rename_i hv
        obtain ⟨tracks, ht, h⟩ := bind_eq_ok h
        cases h
        obtain ⟨hn, hs⟩ := loadTracks_eq_ok ht
        have hv : header.Valid := (Header.isValid_iff header).mp (by simpa using hv)
        have hle := hv.startTrack_le
        have hcount : header.startTrack.toNat + (header.endTrack.toNat + 1 - header.startTrack.toNat)
            = header.endTrack.toNat + 1 := by omega
        refine ⟨header, hv, rfl, rfl, ?_⟩
        rw [List.length_append, List.length_replicate, length_flatten hs, hn, length_stored,
          ← Nat.add_mul, ← Nat.add_mul, hcount]

end Msa

theorem Format.load_eq_ok {f : Format} {file : Bytes} {i : SectorImage}
    (h : f.load file = .ok i) : i.data.length ≤ maxImageSize ∧
      ∀ b, i.header = some b → Dim.Supported b := by
  cases f with
  | st =>
    obtain ⟨-, -, hm, rfl⟩ := St.load_eq_ok h
    exact ⟨hm, fun b hb => by cases hb⟩
  | msa =>
    obtain ⟨header, hv, hh, -, hl⟩ := Msa.load_eq_ok h
    exact ⟨hl ▸ hv.length_le, fun b hb => by rw [hh] at hb; cases hb⟩
  | dim =>
    obtain ⟨header, data, rfl, hl, hs, -, hm, rfl⟩ := Dim.load_eq_ok h
    constructor
    · rw [List.length_append] at hm
      exact Nat.le_trans (Nat.le_add_left _ _) hm
    · intro b hb
      cases hb
      exact ⟨hl, hs⟩
  | ipf | stx | zip => cases h

namespace Disk

theorem ofFormat_cases {f : Format} {file : Bytes} {codec : Codec} {d : Disk}
    (h : ofFormat f file codec = .ok d) :
    (f.isPlain = true ∧ ∃ i, f.load file = .ok i ∧
      d = { format := f, kind := .plainSector, data := i.data, recorded := i.recorded?,
            header := i.header }) ∨
    (f.isProtected = true ∧ ∃ decoded, codec.decode f file = .ok decoded ∧
      d = { format := f, kind := f.kind, data := decoded.data,
            recorded := decoded.layout.usable? }) := by
  unfold ofFormat at h
  cases hk : f.kind with
  | none =>
    rw [hk] at h
    cases h
  | plainSector =>
    rw [hk] at h
    obtain ⟨i, hi, h⟩ := bind_eq_ok h
    exact .inl ⟨by simp [Format.isPlain, hk], i, hi, (Except.ok.inj h).symm⟩
  | protectedIpf | protectedStx =>
    rw [hk] at h
    obtain ⟨decoded, hd, h⟩ := bind_eq_ok h
    exact .inr ⟨by simp [Format.isProtected, hk], decoded, hd, (Except.ok.inj h).symm⟩

theorem format_of_ofFormat {f : Format} {file : Bytes} {codec : Codec} {d : Disk}
    (h : ofFormat f file codec = .ok d) : d.format = f := by
  rcases ofFormat_cases h with ⟨-, i, -, rfl⟩ | ⟨-, decoded, -, rfl⟩
  · rfl
  · rfl

theorem kind_of_ofFormat {f : Format} {file : Bytes} {codec : Codec} {d : Disk}
    (h : ofFormat f file codec = .ok d) : d.kind = d.format.kind := by
  rcases ofFormat_cases h with ⟨hp, i, -, rfl⟩ | ⟨-, decoded, -, rfl⟩
  · exact (beq_iff_eq.mp hp).symm
  · rfl

theorem ofFormat_eq_ok {f : Format} {file : Bytes} {codec : Codec} {d : Disk}
    (h : ofFormat f file codec = .ok d) :
    (d.kind = .plainSector → d.data.length ≤ maxImageSize) ∧
      ∀ b, d.header = some b → Dim.Supported b := by
  rcases ofFormat_cases h with ⟨-, i, hi, rfl⟩ | ⟨hp, decoded, -, rfl⟩
  · obtain ⟨hm, hh⟩ := Format.load_eq_ok hi
    exact ⟨fun _ => hm, hh⟩
  · constructor
    · intro hk
      have hk : f.kind = .plainSector := hk
      simp [Format.isProtected, hk] at hp
    · intro b hb
      cases hb

theorem ofFile_eq_ok [Zip.Library] {name : Option String} {content : Bytes} {codec : Codec}
    {d : Disk} (h : ofFile name content codec = .ok d) :
    (d.kind = .plainSector → d.data.length ≤ maxImageSize) ∧
      ∀ b, d.header = some b → Dim.Supported b := by
  obtain ⟨source, -, h⟩ := bind_eq_ok h
  obtain ⟨file, -, h⟩ := bind_eq_ok h
  obtain ⟨e, he, h⟩ := bind_eq_ok h
  cases h
  have hd := ofFormat_eq_ok he
  exact hd

theorem kind_of_ofFile [Zip.Library] {name : Option String} {content : Bytes} {codec : Codec}
    {d : Disk} (h : ofFile name content codec = .ok d) : d.kind = d.format.kind := by
  obtain ⟨source, -, h⟩ := bind_eq_ok h
  obtain ⟨file, -, h⟩ := bind_eq_ok h
  obtain ⟨e, he, h⟩ := bind_eq_ok h
  cases h
  have hd := kind_of_ofFormat he
  exact hd

end Disk

theorem DiskImage.ofFile_eq_ok [Zip.Library] {name : Option String} {content : Bytes}
    {codec : Codec} {i : DiskImage} (h : ofFile name content codec = .ok i) :
    ∃ d, i.disk = some d ∧ Disk.ofFile name content codec = .ok d := by
  obtain ⟨d, hd, h⟩ := bind_eq_ok h
  cases h
  exact ⟨d, rfl, hd⟩

end Diskette
