import Diskette.Proofs.Disk.Recognition
import Diskette.Proofs.Msa.Images

/-!
# What a decoded disk is like

Files come in six formats, found by name or by content, and some of them in archives. Whichever way
a disk was decoded, it has whole sectors, and what was recorded outside of them can be used. A codec
of the host is not trusted to see to that.
-/

set_option autoImplicit false

namespace Diskette

/-- The codecs that a host can have: none, or one around a decoder of its own. -/
inductive Codec.IsHosted : Codec → Prop
  | unavailable : IsHosted .unavailable
  | external (name : String) (formats : List Format)
      (decoder : Format → Bytes → Except Fault Decoded) :
      IsHosted (.external name formats decoder)

/-- What a drive can present: one sector at least, and no part of one. -/
structure WholeSectors (data : Bytes) : Prop where
  ne_nil : data ≠ []
  length_mod : data.length % sectorSize = 0

theorem Codec.IsHosted.wholeSectors {codec : Codec} (h : codec.IsHosted) {f : Format}
    {file : Bytes} {decoded : Decoded} (hd : codec.decode f file = .ok decoded) :
    WholeSectors decoded.data := by
  cases h with
  | unavailable => cases hd
  | external name formats decoder =>
    unfold Codec.external at hd
    dsimp only at hd
    split at hd
    · cases hd
    · obtain ⟨d, -, hd⟩ := bind_eq_ok hd
      split at hd
      · cases hd
      · rename_i hl
        cases hd
        rw [not_or, not_not] at hl
        exact ⟨List.ne_nil_of_length_pos (Nat.pos_of_ne_zero hl.1), hl.2⟩

theorem Layout.ne_zero_of_usable? {l m : Layout} (h : l.usable? = some m) :
    m.sides ≠ 0 ∧ m.sectorsPerTrack ≠ 0 := by
  unfold usable? at h
  split at h
  · rename_i hu
    cases h
    simpa [isUsable] using hu
  · cases h

theorem Format.kind_ne_none {f : Format} (h : f ≠ .zip) : f.kind ≠ .none := by
  cases f with
  | st | msa | dim | ipf | stx => decide
  | zip => exact absurd rfl h

theorem Format.wholeSectors_of_load {f : Format} {file : Bytes} {i : SectorImage}
    (h : f.load file = .ok i) : WholeSectors i.data ∧ (i.header.isSome = true ↔ f = .dim) := by
  cases f with
  | st =>
    obtain ⟨hl, hmod, -, rfl⟩ := St.load_eq_ok h
    have hpos : 0 < file.length := Nat.lt_of_lt_of_le (by decide) hl
    exact ⟨⟨List.ne_nil_of_length_pos hpos, hmod⟩, by simp⟩
  | msa =>
    obtain ⟨-, -, hheader, -, -⟩ := Msa.load_eq_ok h
    obtain ⟨tracks, hw⟩ := Msa.whole_of_load h
    exact ⟨⟨List.ne_nil_of_length_pos hw.length_pos, hw.length_mod⟩, by simp [hheader]⟩
  | dim =>
    obtain ⟨header, data, -, -, -, ⟨hne, hmod⟩, -, rfl⟩ := Dim.load_eq_ok h
    exact ⟨⟨hne, hmod⟩, by simp⟩
  | ipf | stx | zip => cases h

namespace Disk

structure WellFormed (d : Disk) : Prop where
  format_ne_zip : d.format ≠ .zip
  kind_eq : d.kind = d.format.kind
  kind_ne_none : d.kind ≠ .none
  data : WholeSectors d.data
  length_le : d.format.isPlain = true → d.data.length ≤ maxImageSize
  isSome_header : d.header.isSome = true ↔ d.format = .dim
  length_header : ∀ header, d.header = some header → header.length = Dim.headerSize
  recorded_ne_zero : ∀ layout, d.recorded = some layout →
    layout.sides ≠ 0 ∧ layout.sectorsPerTrack ≠ 0

theorem WellFormed.isPopulated {d : Disk} (h : d.WellFormed) : d.isPopulated = true := by
  simp [Disk.isPopulated, h.kind_ne_none, h.data.ne_nil]

theorem wellFormed_of_load {f : Format} {file : Bytes} {i : SectorImage} (hf : f.isPlain = true)
    (h : f.load file = .ok i) :
    WellFormed { format := f, kind := .plainSector, data := i.data, recorded := i.recorded?,
                 header := i.header } := by
  obtain ⟨hdata, hsome⟩ := Format.wholeSectors_of_load h
  obtain ⟨hlength, hheader⟩ := Format.load_eq_ok h
  have hzip : f ≠ .zip := by
    rintro rfl
    cases h
  exact
    { format_ne_zip := hzip
      kind_eq := (beq_iff_eq.mp hf).symm
      kind_ne_none := Kind.noConfusion
      data := hdata
      length_le := fun _ => hlength
      isSome_header := hsome
      length_header := fun header hh => (hheader header hh).length_eq
      recorded_ne_zero := fun layout hl => Layout.ne_zero_of_usable? hl }

theorem wellFormed_of_decode {f : Format} {file : Bytes} {codec : Codec} {decoded : Decoded}
    (hc : codec.IsHosted) (hf : f.isProtected = true) (h : codec.decode f file = .ok decoded) :
    WellFormed { format := f, kind := f.kind, data := decoded.data,
                 recorded := decoded.layout.usable? } := by
  have hne : ∀ g : Format, g.isProtected = false → f ≠ g := by
    rintro g hg rfl
    rw [hg] at hf
    cases hf
  have hplain : f.isPlain ≠ true := by
    intro hp
    simp only [Format.isPlain, beq_iff_eq] at hp
    simp [Format.isProtected, hp] at hf
  exact
    { format_ne_zip := hne .zip rfl
      kind_eq := rfl
      kind_ne_none := Format.kind_ne_none (hne .zip rfl)
      data := hc.wholeSectors h
      length_le := fun hp => absurd hp hplain
      isSome_header := iff_of_false (by simp) (hne .dim rfl)
      length_header := fun header hh => by cases hh
      recorded_ne_zero := fun layout hl => Layout.ne_zero_of_usable? hl }

theorem wellFormed_of_ofFormat {f : Format} {file : Bytes} {codec : Codec} {d : Disk}
    (hc : codec.IsHosted) (h : ofFormat f file codec = .ok d) : d.WellFormed := by
  rcases ofFormat_cases h with ⟨hf, i, hi, rfl⟩ | ⟨hf, decoded, hd, rfl⟩
  · exact wellFormed_of_load hf hi
  · exact wellFormed_of_decode hc hf hd

theorem wellFormed_of_ofFile [Zip.Library] {name : Option String} {file : Bytes} {codec : Codec}
    {d : Disk} (hc : codec.IsHosted) (h : ofFile name file codec = .ok d) : d.WellFormed := by
  obtain ⟨source, -, h⟩ := bind_eq_ok h
  obtain ⟨content, -, h⟩ := bind_eq_ok h
  obtain ⟨e, he, h⟩ := bind_eq_ok h
  cases h
  have hw := wellFormed_of_ofFormat hc he
  exact { hw with }

theorem isArchived_of_ofFile [Zip.Library] {name : Option String} {file : Bytes} {codec : Codec}
    {d : Disk} (h : ofFile name file codec = .ok d) : d.isArchived = true ↔
      (name.bind Format.ofName? <|> Format.ofContent? file) = some .zip := by
  obtain ⟨source, hs, h⟩ := bind_eq_ok h
  obtain ⟨content, -, h⟩ := bind_eq_ok h
  obtain ⟨e, -, h⟩ := bind_eq_ok h
  cases h
  obtain ⟨hzip, hfound⟩ := Source.ofFile_eq_ok hs
  rw [hfound, Option.some.injEq]
  change source.isArchived = true ↔ _
  split
  · exact iff_of_true ‹_› rfl
  · exact iff_of_false ‹_› hzip

theorem WellFormed.canPersist_eq_false {d : Disk} (hw : d.WellFormed)
    (h : d.isArchived = true ∨ d.format.isProtected = true) : d.canPersist = false := by
  rw [canPersist, hw.kind_eq]
  rcases h with ha | hp
  · simp [ha]
  · cases hf : d.format <;> simp_all [Format.isProtected, Format.kind]

end Disk

end Diskette
