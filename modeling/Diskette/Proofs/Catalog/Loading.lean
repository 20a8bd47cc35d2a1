import Diskette.Proofs.Catalog.Playlist
import Diskette.Zip.Reader

/-!
# What was loaded can be inserted

A file that decodes gives a disk that a drive can take. Loading it takes its slot out of both
drives, so nothing is in the way of putting it into either of them.
-/

set_option autoImplicit false

namespace Diskette

namespace Catalog

variable {σ : Type} [SaveStore σ]

/-- A slot that was loaded has the disk that was decoded, from the file or from its save, and is in
no drive. -/
theorem slot_of_replace [Zip.Library] {c : Catalog σ} {slot : Nat} {name : Option String}
    {file : Bytes} (h : (c.replace slot name file).2 = .ok ()) :
    ∃ d, (c.released slot).decode name file = .ok d ∧
      (c.replace slot name file).1.slots[slot]? = some ((c.released slot).imageFor slot name file) ∧
      ∀ id, ((c.replace slot name file).1.drive id).presents slot = false := by
  have hl : slot < c.slots.length := by
    by_contra hge
    rw [replace, if_pos (Nat.le_of_not_lt hge)] at h
    cases h
  have hlength := length_slots_released c slot
  have heq := replace_eq hl name file
  rw [heq] at h ⊢
  cases hd : (c.released slot).decode name file with
  | error fault =>
    rw [hd] at h
    cases h
  | ok d =>
    refine ⟨d, rfl, List.getElem?_set_self (hl.trans_eq hlength.symm), ?_⟩
    exact presents_ejectFrom_both c slot

theorem insert_of_slot {c : Catalog σ} (hm : c.Mapped) {slot : Nat} {image : DiskImage}
    (hi : c.slots[slot]? = some image) (hp : image.isPopulated = true)
    (hf : ∀ id, (c.drive id).presents slot = false) (id : DriveId) :
    ∃ selected inserted, c.select id slot = (selected, .ok ()) ∧
      selected.setInserted id true = (inserted, .ok ()) ∧
      (inserted.drive id).Shows slot image.working? := by
  let ejected := c.eject id true
  have hslot : ejected.slots[slot]? = some image := by
    rcases hm.getElem?_slots_eject id true slot with hsame | ⟨i, hs, hinserted, -, -⟩
    · exact hsame.trans hi
    · have hpresents := hf id
      rw [presents_eq_true_of hs hinserted] at hpresents
      cases hpresents
  have hempty : (ejected.drive id).inserted = none := by simp [ejected]
  have hother : (ejected.drive id.other).presents slot = false := by
    have hdrive : ejected.drive id.other = c.drive id.other := by
      rw [drive_eject, if_neg fun h => other_ne id h.1.symm]
    rw [hdrive]
    exact hf id.other
  have hworking : ejected.working? slot = image.working? := by rw [working?, hslot, Option.bind_some]
  obtain ⟨d, hd, hinsert⟩ := setInserted_of_selected (c := ejected) id hempty hother
  rw [hworking, image.isSome_working?, hp, if_pos rfl] at hinsert
  rw [hworking] at hd
  have hl : slot < c.slots.length := (List.getElem?_eq_some_iff.mp hi).1
  refine ⟨_, _, select_of_not_presents hl (hf id), hinsert, ?_⟩
  rw [drive_setDrive_self]
  exact hd

/-- A file that decodes gives a disk of whole sectors and of a format that is no archive, with
nothing recorded outside of the sectors that could not be used. It is marked as archived just if the
file was taken for an archive, and then changes to it are never kept, as those to a disk of a
protected format. Whatever a file is taken for, there is a decoder for it. Once a file was loaded
into a slot, after any run with such a codec, the slot can be selected in either drive and its disk
be inserted there. -/
theorem decoded_insertable [Zip.Library] {codec : Codec} (hc : codec.IsHosted)
    (name : Option String) (file : Bytes) :
    (∀ image, DiskImage.ofFile name file codec = .ok image →
      image.isSaved = false ∧ ∃ d, image.disk = some d ∧ image.kind = d.format.kind ∧
        d.WellFormed ∧
        (d.isArchived = true ↔
          (name.bind Format.ofName? <|> Format.ofContent? file) = some .zip) ∧
        (d.isArchived = true ∨ d.format.isProtected = true → d.canPersist = false)) ∧
    (∀ source, Source.ofFile name file = .ok source → source.format.kind ≠ .none) ∧
    ∀ (policy : Policy) (store : σ) (ops : List Operation) (slot : Nat) (c : Catalog σ),
      ((new policy store).run ops).codec = codec →
      ((new policy store).run ops).replace slot name file = (c, .ok ()) →
      ∀ id, ∃ selected inserted i, c.select id slot = (selected, .ok ()) ∧
        selected.setInserted id true = (inserted, .ok ()) ∧
        (inserted.drive id).slot = some slot ∧ (inserted.drive id).inserted = some i ∧
        i.isModified = false ∧ i.disk.WellFormed := by
  refine ⟨fun image h => ?_, fun source h => ?_, ?_⟩
  · obtain ⟨d, hd, h⟩ := bind_eq_ok h
    cases h
    have hw : d.WellFormed := Disk.wellFormed_of_ofFile hc hd
    exact ⟨rfl, d, rfl, hw.kind_eq, hw, Disk.isArchived_of_ofFile hd, hw.canPersist_eq_false⟩
  · exact Format.kind_ne_none (Source.ofFile_eq_ok h).1
  · intro policy store ops slot c hcodec hreplace id
    have hm : ((new policy store).run ops).Mapped := (Mapped.new policy store).run ops
    generalize (new policy store).run ops = before at hcodec hreplace hm
    have hm : (before.replace slot name file).1.Mapped := hm.step (.replace slot name file)
    obtain ⟨d, hd, hslot, hf⟩ := slot_of_replace (congrArg Prod.snd hreplace)
    rw [hreplace] at hm hslot hf
    have hreleased : (before.released slot).codec = codec := by
      rw [released, codec_ejectFrom, codec_ejectFrom, hcodec]
    have hw : d.WellFormed := Disk.wellFormed_of_ofFile (hreleased ▸ hc) hd
    have himage : ((before.released slot).imageFor slot name file).disk = some d := by
      rw [imageFor, hd]
      rfl
    obtain ⟨selected, inserted, hselect, hinsert, hshows⟩ := insert_of_slot hm hslot
      (by simp [DiskImage.isPopulated, himage, hw.isPopulated]) hf id
    rw [DiskImage.working?_of_disk himage hw.isPopulated] at hshows
    exact ⟨selected, inserted, _, hselect, hinsert, hshows.slot rfl, hshows.inserted, rfl, hw⟩

open scoped Zip.Reader in
/-- A codec of the host may give any whole sectors. -/
theorem decoded_insertable_external :
    let codec := Codec.external "host" [.stx] fun _ _ => .ok { data := Disk.twoSectors }
    let before := (new {} ({} : MemoryStore)).run [.setCodec codec, .add]
    ∃ c, before.replace 0 (some "disk.stx") [] = (c, .ok ()) ∧
      ∀ id, ∃ selected inserted i, c.select id 0 = (selected, .ok ()) ∧
        selected.setInserted id true = (inserted, .ok ()) ∧
        (inserted.drive id).inserted = some i ∧ i.disk.WellFormed := by
  intro codec before
  have hc : codec.IsHosted := .external _ _ _
  have hok : (before.replace 0 (some "disk.stx") []).2 = .ok () := by decide +kernel
  obtain ⟨c, hreplace⟩ : ∃ c, before.replace 0 (some "disk.stx") [] = (c, .ok ()) := by
    generalize before.replace 0 (some "disk.stx") [] = outcome at hok
    exact ⟨outcome.1, Prod.ext rfl hok⟩
  obtain ⟨-, -, hinsert⟩ := decoded_insertable (σ := MemoryStore) hc (some "disk.stx") []
  refine ⟨c, hreplace, fun id => ?_⟩
  obtain ⟨selected, inserted, i, hselect, hset, -, hi, -, hw⟩ :=
    hinsert {} {} [.setCodec codec, .add] 0 c rfl hreplace id
  exact ⟨selected, inserted, i, hselect, hset, hi, hw⟩

end Catalog

end Diskette
