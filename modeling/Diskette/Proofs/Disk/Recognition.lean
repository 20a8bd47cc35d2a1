import Diskette.Proofs.Disk.Formatting
import Diskette.Proofs.Disk.SameFile
import Diskette.Zip.Reader

/-!
# Saves that are recognised by content

A file without an extension of an image is taken for what it starts with. The headers of MSA and DIM
files are written anew, so such a save is always recognised. Bare sectors start with the boot sector,
which a program on the machine may overwrite: the save is recognised just if its sectors still pass
for a disk and do not start like a file of another format.
-/

set_option autoImplicit false

namespace Diskette

namespace Bytes

variable {b b' : Bytes}

theorem take_of_take {m n : Nat} (h : b'.take m = b.take m) (hn : n ≤ m) : b'.take n = b.take n := by
  have hb := congrArg (List.take n) h
  rwa [List.take_take, List.take_take, Nat.min_eq_left hn] at hb

theorem fst_split?_of_take {n : Nat} (h : b'.take n = b.take n) :
    (split? n b').map (·.1) = (split? n b).map (·.1) := by
  unfold split?
  dsimp only
  rw [h]
  split <;> rfl

end Bytes

namespace Format

variable {b b' : Bytes}

def signed : List Format := [.zip, .msa, .dim, .ipf, .stx]

theorem mem_signed_iff (f : Format) : f ∈ signed ↔ f ≠ .st := by
  cases f <;> decide

theorem ofContent?_eq_st_iff :
    ofContent? b = some .st ↔
      Format.st.fits b = true ∧ ∀ f : Format, f ≠ .st → f.fits b = false := by
  have hsplit : bySurety = signed ++ [.st] := rfl
  constructor
  · intro h
    have hst := List.find?_some (show bySurety.find? (fun f => f.fits b) = some .st from h)
    refine ⟨hst, fun f hf => ?_⟩
    rw [ofContent?, hsplit, List.find?_append] at h
    cases hs : signed.find? (fun f => f.fits b) with
    | none => simpa using List.find?_eq_none.mp hs f ((mem_signed_iff f).mpr hf)
    | some g =>
      rw [hs, Option.some_or] at h
      exact absurd (Option.some.inj h) ((mem_signed_iff g).mp (List.mem_of_find?_eq_some hs))
  · rintro ⟨hst, hothers⟩
    have hs : signed.find? (fun f => f.fits b) = none := by
      refine List.find?_eq_none.mpr fun f hf => ?_
      rw [hothers f ((mem_signed_iff f).mp hf)]
      exact Bool.false_ne_true
    rw [ofContent?, hsplit, List.find?_append, hs, Option.none_or, List.find?_cons, hst]

theorem isMsa_eq (b : Bytes) :
    Msa.isMsa b = ((Bytes.split? Msa.headerSize b).map (·.1)).any fun front =>
      (Msa.Header.ofBytes front).isValid := by
  unfold Msa.isMsa
  split <;> simp [*]

theorem isDim_eq (b : Bytes) :
    Dim.isDim b = ((Bytes.split? Dim.headerSize b).map (·.1)).any fun header =>
      header.take 2 == Dim.magic := by
  unfold Dim.isDim
  split <;> simp [*]

theorem fits_congr (f : Format) (hl : b'.length = b.length)
    (h : b'.take sectorSize = b.take sectorSize) : f.fits b' = f.fits b := by
  have hsigned : ∀ s : Bytes, s.length ≤ sectorSize → s.isPrefixOf b' = s.isPrefixOf b := by
    intro s hs
    rw [Bool.eq_iff_iff, List.isPrefixOf_iff_prefix, List.isPrefixOf_iff_prefix,
      List.prefix_iff_eq_take, List.prefix_iff_eq_take, Bytes.take_of_take h hs]
  cases f with
  | st =>
    change isBareSectors b' = isBareSectors b
    unfold isBareSectors
    rw [hl, BootSector.ofImage_congr h]
  | msa =>
    have hfront := Bytes.take_of_take h (show Msa.headerSize ≤ sectorSize by decide)
    change Msa.isMsa b' = Msa.isMsa b
    rw [isMsa_eq, isMsa_eq, Bytes.fst_split?_of_take hfront]
  | dim =>
    have hfront := Bytes.take_of_take h (show Dim.headerSize ≤ sectorSize by decide)
    change Dim.isDim b' = Dim.isDim b
    rw [isDim_eq, isDim_eq, Bytes.fst_split?_of_take hfront]
  | ipf | stx | zip => exact hsigned _ (by decide)

theorem ofContent?_congr (hl : b'.length = b.length)
    (h : b'.take sectorSize = b.take sectorSize) : ofContent? b' = ofContent? b := by
  have hf : (fun f : Format => f.fits b') = fun f => f.fits b :=
    funext fun f => fits_congr f hl h
  rw [ofContent?, hf, ofContent?]

end Format

theorem Msa.isMsa_of_dimMagic (rest : Bytes) : isMsa (0x42 :: 0x42 :: rest) = false := by
  unfold isMsa
  split
  · rename_i front behind hs
    obtain ⟨hb, hl⟩ := Bytes.split?_eq_some_iff.mp hs
    match front, hl with
    | x :: y :: more, _ =>
      cases hb
      rfl
  · rfl

theorem Dim.recognised_of_save {i : SectorImage} {b : Bytes} (h : save i = .ok b)
    (hh : ∀ x, i.header = some x → Supported x) : Format.ofContent? b = some .dim := by
  obtain ⟨tracks, header, -, hs, rfl, -⟩ := save_eq_ok h hh
  have hs := hs.setGeometry i.layout tracks
  generalize setGeometry header i.layout tracks = front at hs
  have hsplit := Bytes.split?_append front i.data
  rw [hs.length_eq] at hsplit
  have hmagic : front.take 2 = magic := by
    have hm := hs.isSupported
    simp only [isSupported, Bool.and_eq_true, beq_iff_eq] at hm
    exact hm.1.1
  have hdim : Format.dim.fits (front ++ i.data) = true := by
    change isDim (front ++ i.data) = true
    rw [isDim, hsplit]
    exact beq_iff_eq.mpr hmagic
  obtain ⟨rest, hrest⟩ : ∃ rest, front ++ i.data = 0x42 :: 0x42 :: rest := by
    refine ⟨front.drop 2 ++ i.data, ?_⟩
    have hfront := List.take_append_drop 2 front
    rw [hmagic] at hfront
    exact congrArg (· ++ i.data) hfront.symm
  have hzip : Format.zip.fits (front ++ i.data) = false := by
    rw [hrest]
    rfl
  have hmsa : Format.msa.fits (front ++ i.data) = false := by
    rw [hrest]
    exact Msa.isMsa_of_dimMagic rest
  simp only [Format.ofContent?, Format.bySurety, List.find?_cons, hzip, hmsa, hdim]

theorem Source.inArchive_eq_ok [Zip.Library] {archive : Bytes} {source : Source}
    (h : inArchive archive = .ok source) : ∃ f name, f ≠ .zip ∧ source = .entry f name := by
  obtain ⟨files, -, h⟩ := bind_eq_ok h
  dsimp only at h
  split at h
  · rename_i hnamed
    cases h
    obtain ⟨⟨name, size⟩, -, hs⟩ := List.exists_of_findSome?_eq_some hnamed
    dsimp only at hs
    split at hs
    · cases hs
    · cases hs
    · rename_i f hzip _
      cases hs
      exact ⟨f, name, hzip, rfl⟩
  · cases h
  · obtain ⟨content, -, h⟩ := bind_eq_ok h
    split at h
    · cases h
    · cases h
    · rename_i f hzip _
      cases h
      exact ⟨f, _, hzip, rfl⟩

theorem Source.ofFile_eq_ok [Zip.Library] {name : Option String} {content : Bytes} {source : Source}
    (h : ofFile name content = .ok source) :
    source.format ≠ .zip ∧ (name.bind Format.ofName? <|> Format.ofContent? content) =
      some (if source.isArchived then .zip else source.format) := by
  unfold ofFile at h
  split at h
  · cases h
  · rename_i hf
    obtain ⟨f, entry, hzip, rfl⟩ := inArchive_eq_ok h
    exact ⟨hzip, hf⟩
  · rename_i f hzip hf
    cases h
    exact ⟨hzip, hf⟩

theorem Source.eq_file [Zip.Library] {name : Option String} {content : Bytes} {source : Source}
    (h : ofFile name content = .ok source) (ha : source.isArchived = false) :
    ∃ f, (name.bind Format.ofName? <|> Format.ofContent? content) = some f ∧ source = .file f := by
  cases source with
  | file f => exact ⟨f, (ofFile_eq_ok h).2, rfl⟩
  | entry f entry => cases ha

namespace Disk

variable {path : Option String} {file : Bytes} {codec : Codec} {d : Disk}

theorem ofContent?_of_ofFile [Zip.Library] (h : ofFile path file codec = .ok d)
    (hn : path.bind Format.ofName? = none) (ha : d.isArchived = false) :
    Format.ofContent? file = some d.format := by
  obtain ⟨source, hs, h⟩ := bind_eq_ok h
  obtain ⟨content, -, h⟩ := bind_eq_ok h
  obtain ⟨e, he, h⟩ := bind_eq_ok h
  cases h
  obtain ⟨f, hf, rfl⟩ := Source.eq_file hs ha
  rw [hn] at hf
  exact hf.trans (congrArg some (format_of_ofFormat he).symm)

theorem data_of_st [Zip.Library] (h : ofFile path file codec = .ok d) (ha : d.isArchived = false)
    (hf : d.format = .st) : d.data = file := by
  obtain ⟨i, hi, hd⟩ := load_of_ofFile h ha (hf ▸ rfl)
  rw [hf] at hi
  obtain ⟨-, -, -, rfl⟩ := St.load_eq_ok hi
  rw [hd]
  rfl

theorem ofFile_of_ofContent? [Zip.Library] (hn : path.bind Format.ofName? = none) {f : Format}
    (hf : f.isPlain = true) (h : Format.ofContent? file = some f)
    (hd : ofFormat f file codec = .ok d) :
    ofFile path file codec = .ok { d with isArchived := false } := by
  have hs : Source.ofFile path file = .ok (.file f) := by
    rw [Source.ofFile, hn, h]
    cases f <;> first | rfl | cases hf
  rw [ofFile_of_file hs, hd]
  rfl

/-- What a save of the disk is taken for, by its content. -/
theorem ofContent?_of_encode (hd : ∀ x, d.header = some x → Dim.Supported x)
    (hm : d.data.length ≤ maxImageSize) {b : Bytes} (hb : d.encode d.format = .ok b) :
    Format.ofContent? b = some d.format ↔
      (d.format = .st → Format.st.fits d.data = true ∧
        ∀ f : Format, f ≠ .st → f.fits d.data = false) := by
  obtain ⟨-, -, hs⟩ := encode_eq_ok hb
  cases hf : d.format with
  | st =>
    rw [hf] at hs
    obtain ⟨-, rfl⟩ := St.load_save hm hs
    rw [Format.ofContent?_eq_st_iff]
    exact ⟨fun h _ => h, fun h => h rfl⟩
  | msa =>
    rw [hf] at hs
    exact iff_of_true (Msa.recognised_of_save hs).2 fun h => by cases h
  | dim =>
    rw [hf] at hs
    exact iff_of_true (Dim.recognised_of_save hs hd) fun h => by cases h
  | ipf | stx | zip =>
    rw [hf] at hs
    cases hs

end Disk

namespace InsertedDisk

/-- A file without a telling name goes into a drive as a plain disk, sectors of it are written, and
it is saved. Loaded under the same name the save is a disk of the same format with the written data,
unless the disk is bare sectors that do not pass for a disk any more or start like a file of another
format. As long as the first sector is what it was that does not happen. -/
theorem ofFile_encode_writeAll [Zip.Library] {path : Option String} {file : Bytes} {codec : Codec}
    {d : Disk} (h : Disk.ofFile path file codec = .ok d) (hn : path.bind Format.ofName? = none)
    (ha : d.isArchived = false) (hp : d.format.isPlain = true) (name : String) (saved : Bool)
    {ws : List (Address × Bytes)} {j : InsertedDisk}
    (hw : (InsertedDisk.ofDisk name d saved).writeAll ws = .ok j) {b : Bytes}
    (hb : j.disk.encode d.format = .ok b) (codec' : Codec) :
    ((∃ e, Disk.ofFile path b codec' = .ok e ∧ e.isArchived = false ∧ e.format = d.format ∧
        e.data = j.disk.data) ↔
      (d.format = .st → Format.st.fits j.disk.data = true ∧
        ∀ f : Format, f ≠ .st → f.fits j.disk.data = false)) ∧
    (j.disk.data.take sectorSize = d.data.take sectorSize →
      ∃ e, Disk.ofFile path b codec' = .ok e ∧ e.isArchived = false ∧ e.format = d.format ∧
        e.data = j.disk.data) := by
  obtain ⟨hm, hh⟩ := Disk.ofFile_eq_ok h
  obtain ⟨hd, hl⟩ := writeAll_eq_ok hw
  have hl : j.disk.data.length = d.data.length := hl
  have hformat : j.disk.format = d.format := by rw [hd]; rfl
  have hheader : j.disk.header = d.header := by rw [hd]; rfl
  have hsupported : ∀ x, j.disk.header = some x → Dim.Supported x := hheader ▸ hh
  have hkind : d.kind = .plainSector := (Disk.kind_of_ofFile h).trans (beq_iff_eq.mp hp)
  have hsmall : j.disk.data.length ≤ maxImageSize := hl ▸ hm hkind
  have hcontent := Disk.ofContent?_of_encode hsupported hsmall (hformat ▸ hb)
  obtain ⟨i, hload, hdata, -⟩ := Disk.ofFormat_encode hsmall hsupported hb codec'
  rw [hformat] at hcontent
  have hiff : (∃ e, Disk.ofFile path b codec' = .ok e ∧ e.isArchived = false ∧
      e.format = d.format ∧ e.data = j.disk.data) ↔ Format.ofContent? b = some d.format := by
    constructor
    · rintro ⟨e, he, harchived, hf, -⟩
      rw [← hf]
      exact Disk.ofContent?_of_ofFile he hn harchived
    · intro hc
      exact ⟨_, Disk.ofFile_of_ofContent? hn hp hc hload, rfl, rfl, hdata⟩
  refine ⟨hiff.trans hcontent, fun hfirst => hiff.mpr (hcontent.mpr fun hst => ?_)⟩
  -- Bare sectors are the file itself, which was taken for what it is when it was first loaded.
  have hfile := Disk.ofContent?_of_ofFile h hn ha
  rw [hst, ← Disk.data_of_st h ha hst, ← Format.ofContent?_congr hl hfirst] at hfile
  exact Format.ofContent?_eq_st_iff.mp hfile

open scoped Zip.Reader in
/-- Data in the second sector of bare sectors. -/
theorem ofFile_encode_writeAll_second_sector : ∃ j e,
    (InsertedDisk.ofDisk "GAME" ⟨.st, .plainSector, Disk.twoSectors, false, none, none⟩
        false).writeAll [(⟨0, 0, 2⟩, [1, 2, 3])] = .ok j ∧
      j.disk.encode .st = .ok j.disk.data ∧
      Disk.ofFile (some "GAME") j.disk.data .unavailable = .ok e ∧ e.format = .st ∧
      e.data = Bytes.overwrite Disk.twoSectors 512 [1, 2, 3] := by
  have hd : Disk.ofFile (some "GAME") Disk.twoSectors .unavailable =
      .ok ⟨.st, .plainSector, Disk.twoSectors, false, none, none⟩ :=
    eq_ok_of_toOption (by decide +kernel)
  let written : Disk :=
    ⟨.st, .plainSector, Bytes.overwrite Disk.twoSectors 512 [1, 2, 3], false, none, none⟩
  have hw : (InsertedDisk.ofDisk "GAME" ⟨.st, .plainSector, Disk.twoSectors, false, none, none⟩
      false).writeAll [(⟨0, 0, 2⟩, [1, 2, 3])] =
      .ok { name := "GAME", isModified := true, geometry := ⟨1, 1, 2⟩, okToPersist := true,
            disk := written } :=
    eq_ok_of_toOption (by decide +kernel)
  have hb : written.encode .st = .ok (Bytes.overwrite Disk.twoSectors 512 [1, 2, 3]) :=
    eq_ok_of_toOption (by decide +kernel)
  obtain ⟨-, hback⟩ := ofFile_encode_writeAll hd (by decide +kernel) rfl rfl "GAME" false hw hb
    .unavailable
  obtain ⟨e, he, -, hf, hdata⟩ := hback (by decide +kernel)
  exact ⟨_, e, hw, hb, he, hf, hdata⟩

open scoped Zip.Reader in
/-- The boot sector is overwritten with zeros. What is saved is not taken for a disk any more. -/
theorem ofFile_encode_writeAll_blank_boot_sector : ∃ d j b,
    Disk.ofFile (some "GAME") Disk.twoSectors .unavailable = .ok d ∧ d.format = .st ∧
      (InsertedDisk.ofDisk "GAME" d false).writeAll [(⟨0, 0, 1⟩, List.replicate 512 0)] = .ok j ∧
      j.disk.encode .st = .ok b ∧
      (Disk.ofFile (some "GAME") b .unavailable).toOption = none := by
  refine ⟨⟨.st, .plainSector, Disk.twoSectors, false, none, none⟩,
    { name := "GAME", isModified := true, geometry := ⟨1, 1, 2⟩, okToPersist := true,
      disk := ⟨.st, .plainSector, List.replicate 1024 0, false, none, none⟩ },
    List.replicate 1024 0, ?_⟩
  refine ⟨eq_ok_of_toOption (by decide +kernel), rfl, eq_ok_of_toOption (by decide +kernel),
    eq_ok_of_toOption (by decide +kernel), by decide +kernel⟩

end InsertedDisk

end Diskette
