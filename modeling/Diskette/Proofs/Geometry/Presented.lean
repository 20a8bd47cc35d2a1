import Diskette.Proofs.Disk.FirstSector
import Mathlib.Order.Bounds.Defs
import Mathlib.Tactic.Ring

/-!
# The geometry that is presented

A boot sector, the header of a file and the table of common sizes may each tell another layout of
an image. If the boot sector counts the sectors right, its word or that of the header stands; if
not, the table goes before both. No two tabled layouts of as many sides hold the same number of
sectors, so it does not matter in which order the table is searched.
-/

set_option autoImplicit false

namespace Diskette

namespace Geometry

theorem toNat_tracks_ofLength (n : Nat) (l : Layout) :
    (ofLength n l).tracks.toNat =
      min (n / sectorSize / l.sectorsPerTrack.toNat / l.sides.toNat) 65535 :=
  UInt16.toNat_ofNat_of_lt' (by simp only [UInt16.size]; omega)

theorem totalSectors_ofLength_le (n : Nat) (l : Layout) :
    (ofLength n l).totalSectors ≤ n / sectorSize := by
  calc
    (ofLength n l).totalSectors
      ≤ n / sectorSize / l.sectorsPerTrack.toNat / l.sides.toNat * l.sides.toNat *
          l.sectorsPerTrack.toNat := by
        rw [totalSectors, toNat_tracks_ofLength]
        exact Nat.mul_le_mul_right _ (Nat.mul_le_mul_right _ (Nat.min_le_left _ _))
    _ ≤ n / sectorSize / l.sectorsPerTrack.toNat * l.sectorsPerTrack.toNat :=
        Nat.mul_le_mul_right _ (Nat.div_mul_le_self _ _)
    _ ≤ n / sectorSize := Nat.div_mul_le_self _ _

theorem totalSize_ofLength_le (n : Nat) (l : Layout) : (ofLength n l).totalSize ≤ n :=
  Nat.le_trans (Nat.mul_le_mul_right _ (totalSectors_ofLength_le n l)) (Nat.div_mul_le_self _ _)

theorem toNat_pos {n : UInt16} (h : n ≠ 0) : 0 < n.toNat :=
  Nat.pos_of_ne_zero fun h0 => h (UInt16.toNat.inj h0)

theorem sectors_lt_of_ofLength (n : Nat) (l : Layout) (hs : l.sides ≠ 0)
    (hn : l.sectorsPerTrack ≠ 0) (ht : (ofLength n l).tracks < 65535) :
    n / sectorSize <
      (ofLength n l).totalSectors + l.sides.toNat * l.sectorsPerTrack.toNat := by
  have ht : (ofLength n l).tracks.toNat < 65535 := ht
  have hq : (ofLength n l).tracks.toNat =
      n / sectorSize / (l.sectorsPerTrack.toNat * l.sides.toNat) := by
    rw [toNat_tracks_ofLength] at ht ⊢
    rw [← Nat.div_div_eq_div_mul]
    omega
  have hlt := Nat.lt_mul_div_succ (n / sectorSize) (Nat.mul_pos (toNat_pos hn) (toNat_pos hs))
  rw [← hq] at hlt
  calc
    n / sectorSize
      < l.sectorsPerTrack.toNat * l.sides.toNat * ((ofLength n l).tracks.toNat + 1) := hlt
    _ = (ofLength n l).totalSectors + l.sides.toNat * l.sectorsPerTrack.toNat := by
      simp only [totalSectors, ofLength]
      ring

theorem tracks_isGreatest (n : Nat) (l : Layout) (hs : l.sides ≠ 0) (hn : l.sectorsPerTrack ≠ 0) :
    IsGreatest {t | t ≤ 65535 ∧ t * l.sides.toNat * l.sectorsPerTrack.toNat ≤ n / sectorSize}
      (ofLength n l).tracks.toNat := by
  constructor
  · refine ⟨Nat.le_of_lt_succ (UInt16.toNat_lt _), ?_⟩
    have h := totalSectors_ofLength_le n l
    exact h
  · rintro t ⟨ht, hle⟩
    have hq : t ≤ n / sectorSize / l.sectorsPerTrack.toNat / l.sides.toNat := by
      rw [Nat.le_div_iff_mul_le (toNat_pos hs), Nat.le_div_iff_mul_le (toNat_pos hn)]
      exact hle
    rw [toNat_tracks_ofLength]
    omega

theorem tracks_of_not_usable (n : Nat) (l : Layout) (h : l.sides = 0 ∨ l.sectorsPerTrack = 0) :
    (ofLength n l).tracks = 0 := by
  apply UInt16.toNat.inj
  rw [toNat_tracks_ofLength]
  rcases h with h | h <;> simp [h]

theorem ofLength_eq_of_totalSectors {n : Nat} {g : Geometry} (hpos : 0 < g.totalSectors)
    (h : g.totalSectors = n / sectorSize) : ofLength n g.layout = g := by
  have hn : 0 < g.sectorsPerTrack.toNat := Nat.pos_of_mul_pos_left hpos
  have hts : 0 < g.tracks.toNat * g.sides.toNat := Nat.pos_of_mul_pos_right hpos
  have hs : 0 < g.sides.toNat := Nat.pos_of_mul_pos_left hts
  have ht : (ofLength n g.layout).tracks = g.tracks := by
    apply UInt16.toNat.inj
    have hlt := g.tracks.toNat_lt
    rw [toNat_tracks_ofLength, ← h, totalSectors]
    change min (_ / g.sectorsPerTrack.toNat / g.sides.toNat) 65535 = _
    rw [Nat.mul_div_cancel _ hn, Nat.mul_div_cancel _ hs]
    omega
  change (⟨(ofLength n g.layout).tracks, g.sides, g.sectorsPerTrack⟩ : Geometry) = g
  rw [ht]

/-- A common size that an image of this length fills. An image of less than 500 kB is taken to be
single sided. -/
structure Tabled (length : Nat) (g : Geometry) : Prop where
  sides : g.sides.toNat = if length < 512000 then 1 else 2
  sectors : 9 ≤ g.sectorsPerTrack.toNat ∧ g.sectorsPerTrack.toNat ≤ 12
  tracks : 80 ≤ g.tracks.toNat ∧ g.tracks.toNat ≤ 84
  total : g.totalSectors = length / sectorSize

/-- 84 tracks are fewer sectors than 80 tracks with one sector more, so the sectors on one side tell
both factors. -/
theorem factors_inj {s s' t t' : Nat} (hs : 9 ≤ s ∧ s ≤ 12) (hs' : 9 ≤ s' ∧ s' ≤ 12)
    (ht : 80 ≤ t ∧ t ≤ 84) (ht' : 80 ≤ t' ∧ t' ≤ 84) (h : t * s = t' * s') : s = s' ∧ t = t' := by
  have hle : ∀ {a b c d : Nat}, b ≤ 12 → 80 ≤ a → c ≤ 84 → a * b = c * d → b ≤ d := by
    intro a b c d hb ha hc h
    by_contra hlt
    have hmost : a * b ≤ 84 * d := h ▸ Nat.mul_le_mul_right d hc
    have hleast : 80 * b ≤ a * b := Nat.mul_le_mul_right b ha
    omega
  have hsector : s = s' :=
    Nat.le_antisymm (hle hs.2 ht.1 ht'.2 h) (hle hs'.2 ht'.1 ht.2 h.symm)
  subst hsector
  exact ⟨rfl, Nat.eq_of_mul_eq_mul_right (by omega) h⟩

theorem mem_tabled_iff {length : Nat} {g : Geometry} :
    g ∈ Layout.tabled (Layout.guessedSides length) ∧ g.totalSectors = length / sectorSize ↔
      Tabled length g := by
  have hguess : Layout.guessedSides length = if length < 512000 then 1 else 2 := rfl
  simp only [Layout.tabled, Layout.tabledSectors, Layout.tabledTracks, List.mem_flatMap,
    List.mem_map]
  constructor
  · rintro ⟨⟨s, hs, t, ht, rfl⟩, htotal⟩
    have hs : 9 ≤ s ∧ s ≤ 12 := by
      simp only [List.mem_cons, List.not_mem_nil, or_false] at hs
      omega
    have ht : 80 ≤ t ∧ t ≤ 84 := by
      simp only [List.mem_cons, List.not_mem_nil, or_false] at ht
      omega
    have hsides : Layout.guessedSides length ≤ 2 := by
      rw [hguess]
      split <;> omega
    have hsmall : ∀ k ≤ 84, (UInt16.ofNat k).toNat = k := fun k hk =>
      UInt16.toNat_ofNat_of_lt' (by simp only [UInt16.size]; omega)
    refine ⟨?_, ?_, ?_, htotal⟩
    · rw [hsmall _ (by omega), hguess]
    · rwa [hsmall s (by omega)]
    · rwa [hsmall t (by omega)]
  · rintro ⟨hs, hn, ht, htotal⟩
    refine ⟨⟨g.sectorsPerTrack.toNat, by simp; omega, g.tracks.toNat, by simp; omega, ?_⟩, htotal⟩
    rw [hguess, ← hs]
    simp

theorem Tabled.unique {length : Nat} {g h : Geometry} (hg : Tabled length g)
    (hh : Tabled length h) : g = h := by
  have hsides : g.sides = h.sides := UInt16.toNat.inj (hg.sides.trans hh.sides.symm)
  have hpos : 0 < h.sides.toNat := by
    rw [hh.sides]
    split <;> omega
  have htotal : g.totalSectors = h.totalSectors := hg.total.trans hh.total.symm
  have hside : g.tracks.toNat * g.sectorsPerTrack.toNat =
      h.tracks.toNat * h.sectorsPerTrack.toNat := by
    apply Nat.eq_of_mul_eq_mul_right hpos
    rw [totalSectors, totalSectors, hsides] at htotal
    rw [Nat.mul_right_comm, htotal, Nat.mul_right_comm]
  obtain ⟨hn, ht⟩ := factors_inj hg.sectors hh.sectors hg.tracks hh.tracks hside
  rcases g with ⟨tracks, sides, sectors⟩
  rcases h with ⟨tracks', sides', sectors'⟩
  rw [Geometry.mk.injEq]
  exact ⟨UInt16.toNat.inj ht, hsides, UInt16.toNat.inj hn⟩

theorem ofLength?_eq_some_iff {length : Nat} {g : Geometry} :
    Layout.ofLength? length = some g ↔ Tabled length g := by
  have hfound : ∀ h, Layout.ofLength? length = some h → Tabled length h := by
    intro h hf
    have ht := List.find?_some hf
    exact mem_tabled_iff.mp ⟨List.mem_of_find?_eq_some hf, by simpa using ht⟩
  constructor
  · exact hfound g
  · intro hg
    obtain ⟨hm, ht⟩ := mem_tabled_iff.mpr hg
    cases hf : Layout.ofLength? length with
    | none => exact absurd (beq_iff_eq.mpr ht) (List.find?_eq_none.mp hf g hm)
    | some h => rw [(hfound h hf).unique hg]

theorem Tabled.totalSectors_pos {length : Nat} {g : Geometry} (h : Tabled length g) :
    0 < g.totalSectors := by
  have hn := h.sectors
  have ht := h.tracks
  have hs : 0 < g.sides.toNat := by
    rw [h.sides]
    split <;> omega
  exact Nat.mul_pos (Nat.mul_pos (by omega) hs) (by omega)

end Geometry

/-- The boot sector counts all sectors of the image, and divides them into so many whole tracks. -/
structure ParameterBlock.Truthful (p : ParameterBlock) (sectors tracks : Nat) : Prop where
  usable : p.sides ≠ 0 ∧ p.sectorsPerTrack ≠ 0
  total : p.totalSectors.toNat = sectors
  whole : p.sides.toNat * p.sectorsPerTrack.toNat * tracks = sectors
  countable : tracks ≤ 65535

theorem Layout.isUsable_iff (l : Layout) :
    l.isUsable = true ↔ l.sides ≠ 0 ∧ l.sectorsPerTrack ≠ 0 := by
  simp [isUsable]

theorem BootSector.exists_ofImage {image : Bytes} (h : sectorSize ≤ image.length) :
    ∃ s, ofImage image = .ok s :=
  ⟨_, ofImage_of_length h⟩

namespace Geometry

theorem ofImage_of_bootSector {image : Bytes} {s : BootSector}
    (h : BootSector.ofImage image = .ok s) (recorded : Option Layout) :
    let p := s.parameters
    let declared := if p.layout.isUsable then p.layout else recorded.getD p.layout
    ofImage image recorded = ofLength image.length
      (if p.totalSectors.toNat = image.length / sectorSize then declared
        else Layout.infer image.length declared) := by
  have ht : declaredTotal image = s.parameters.totalSectors.toNat := by simp only [declaredTotal, h]
  have hd : declaredLayout image recorded =
      if s.parameters.layout.isUsable then s.parameters.layout
      else recorded.getD s.parameters.layout := by
    cases recorded <;> simp [declaredLayout, h]
  simp only [ofImage, ht, hd]
  split <;> rfl

theorem ofImage_of_truthful {image : Bytes} {s : BootSector} {t : Nat}
    (h : BootSector.ofImage image = .ok s) (recorded : Option Layout)
    (ht : s.parameters.Truthful (image.length / sectorSize) t) (hpos : sectorSize ≤ image.length) :
    ofImage image recorded =
      ⟨UInt16.ofNat t, s.parameters.sides, s.parameters.sectorsPerTrack⟩ ∧
    (ofImage image recorded).totalSectors = image.length / sectorSize := by
  have hu : s.parameters.layout.isUsable = true := (Layout.isUsable_iff _).mpr ht.usable
  have hcount : (UInt16.ofNat t).toNat = t :=
    UInt16.toNat_ofNat_of_lt' (Nat.lt_succ_of_le ht.countable)
  have htotal : (⟨UInt16.ofNat t, s.parameters.sides, s.parameters.sectorsPerTrack⟩ :
      Geometry).totalSectors = image.length / sectorSize := by
    rw [← ht.whole, totalSectors, hcount]
    ring
  have hn : 0 < image.length / sectorSize := Nat.div_pos hpos (by decide)
  have hg := ofLength_eq_of_totalSectors (htotal ▸ hn) htotal
  rw [ofImage_of_bootSector h, if_pos ht.total, if_pos hu]
  exact ⟨hg, (congrArg totalSectors hg).trans htotal⟩

theorem ofImage_of_tabled {image : Bytes} {s : BootSector} {g : Geometry}
    (h : BootSector.ofImage image = .ok s) (recorded : Option Layout)
    (hs : s.parameters.totalSectors.toNat ≠ image.length / sectorSize)
    (hg : Tabled image.length g) : ofImage image recorded = g := by
  rw [ofImage_of_bootSector h, if_neg hs, Layout.infer, ofLength?_eq_some_iff.mpr hg]
  exact ofLength_eq_of_totalSectors hg.totalSectors_pos hg.total

theorem ofImage_of_declared {image : Bytes} {s : BootSector} (h : BootSector.ofImage image = .ok s)
    (recorded : Option Layout)
    (hs : ¬(s.parameters.totalSectors.toNat ≠ image.length / sectorSize ∧
      ∃ g, Tabled image.length g)) :
    (ofImage image recorded).layout =
      if s.parameters.layout.isUsable then s.parameters.layout
      else recorded.getD s.parameters.layout := by
  rw [ofImage_of_bootSector h, layout_ofLength]
  split
  · rfl
  · rename_i hne
    have hnone : Layout.ofLength? image.length = none := by
      apply Option.eq_none_iff_forall_ne_some.mpr
      intro g hg
      exact hs ⟨hne, g, ofLength?_eq_some_iff.mp hg⟩
    rw [Layout.infer, hnone]

theorem ofImage_eq_ofLength (image : Bytes) (recorded : Option Layout) :
    ofImage image recorded = ofLength image.length (ofImage image recorded).layout := by
  unfold ofImage
  dsimp only
  split <;> rw [layout_ofLength]

/-- An image whose boot sector is truthful is presented as that says. If the boot sector counts
other sectors than there are, and a common size has as many as the image, the image is presented as
the one common size that has. In all other cases the sides and sectors are those of the boot
sector, or those that the file recorded if the boot sector leaves one of them out. There are always
as many tracks as fit. -/
theorem ofImage_cases (image : Bytes) (recorded : Option Layout)
    (hl : sectorSize ≤ image.length) :
    let n := image.length / sectorSize
    let g := ofImage image recorded
    ∃ s, BootSector.ofImage image = .ok s ∧
      (∀ t, s.parameters.Truthful n t →
        g = ⟨UInt16.ofNat t, s.parameters.sides, s.parameters.sectorsPerTrack⟩ ∧
          g.tracks.toNat = t ∧ g.totalSectors = n) ∧
      (s.parameters.totalSectors.toNat ≠ n → ∀ h, Tabled image.length h →
        g = h ∧ g.totalSectors = n ∧ ∀ h', Tabled image.length h' → h' = h) ∧
      (¬(s.parameters.totalSectors.toNat ≠ n ∧ ∃ h, Tabled image.length h) →
        (s.parameters.sides = 0 ∨ s.parameters.sectorsPerTrack = 0 → ∀ l, recorded = some l →
          g.layout = l) ∧
        (¬(s.parameters.sides = 0 ∨ s.parameters.sectorsPerTrack = 0) ∨ recorded = none →
          g.layout = s.parameters.layout)) ∧
      (g.sides = 0 ∨ g.sectorsPerTrack = 0 → g.tracks = 0) ∧
      (¬(g.sides = 0 ∨ g.sectorsPerTrack = 0) →
        IsGreatest {t | t ≤ 65535 ∧ t * g.sides.toNat * g.sectorsPerTrack.toNat ≤ n}
          g.tracks.toNat) := by
  intro n g
  obtain ⟨s, hs⟩ := BootSector.exists_ofImage hl
  have husable : s.parameters.layout.isUsable = true ↔
      ¬(s.parameters.sides = 0 ∨ s.parameters.sectorsPerTrack = 0) := by
    rw [Layout.isUsable_iff, not_or]
    rfl
  have hg : g = ofLength image.length g.layout := ofImage_eq_ofLength image recorded
  refine ⟨s, hs, ?_, ?_, ?_, ?_, ?_⟩
  · intro t ht
    obtain ⟨h, htotal⟩ := ofImage_of_truthful hs recorded ht hl
    refine ⟨h, ?_, htotal⟩
    rw [congrArg tracks h]
    exact UInt16.toNat_ofNat_of_lt' (Nat.lt_succ_of_le ht.countable)
  · intro hne h hh
    have h' := ofImage_of_tabled hs recorded hne hh
    exact ⟨h', (congrArg totalSectors h').trans hh.total, fun k hk => hk.unique hh⟩
  · intro hother
    have hlayout := ofImage_of_declared hs recorded hother
    constructor
    · rintro hzero l rfl
      rw [if_neg (fun h => husable.mp h hzero)] at hlayout
      exact hlayout
    · rintro (hok | rfl)
      · rw [if_pos (husable.mpr hok)] at hlayout
        exact hlayout
      · rw [Option.getD_none, ite_self] at hlayout
        exact hlayout
  · intro hzero
    rw [hg]
    exact tracks_of_not_usable _ g.layout hzero
  · intro hok
    obtain ⟨hs, hn⟩ := not_or.mp hok
    rw [hg]
    exact tracks_isGreatest image.length g.layout hs hn

/-- A blank disk of 720 sectors, out of a file that recorded two sides of 5 sectors. -/
theorem ofImage_cases_blank :
    let image : Bytes := List.replicate 368640 0
    sectorSize ≤ image.length ∧ ofImage image (some ⟨2, 5⟩) = ⟨80, 1, 9⟩ := by
  intro image
  have hlength : image.length = 368640 := List.length_replicate
  have hl : sectorSize ≤ image.length := by rw [hlength]; decide
  obtain ⟨s, hs, -, htabled, -⟩ := ofImage_cases image (some ⟨2, 5⟩) hl
  have hblank : BootSector.ofImage image = BootSector.ofImage (List.replicate 512 0) :=
    BootSector.ofImage_congr (by simp only [image, List.take_replicate]; rfl)
  have htotal : s.parameters.totalSectors = 0 := by
    have hzero : (BootSector.ofImage (List.replicate 512 0)).toOption.map
        (·.parameters.totalSectors) = some 0 := by decide +kernel
    rw [← hblank, hs] at hzero
    exact Option.some.inj hzero
  have hfit : Tabled image.length ⟨80, 1, 9⟩ := by
    rw [hlength]
    exact ⟨by decide, by decide, by decide, by decide⟩
  refine ⟨hl, (htabled ?_ _ hfit).1⟩
  rw [htotal, hlength]
  decide

end Geometry

end Diskette
