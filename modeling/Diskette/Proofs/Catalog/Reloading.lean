import Diskette.Proofs.Catalog.Origins
import Diskette.Proofs.Catalog.Persistence
import Diskette.Proofs.Disk.Formatting
import Diskette.Proofs.SaveStore.Map
import Diskette.Zip.Reader

/-!
# Saves are found again

The save store knows a disk by the name of its image alone, which is the base name of the path that
it was loaded from. The same name settles on the format when an image is loaded under it again, so
that a save is read in the format it was written in, whatever file is offered in its place.
-/

set_option autoImplicit false

namespace Diskette

theorem Format.ofName?_congr {path path' : String} (h : FileName.base path' = FileName.base path) :
    ofName? path' = ofName? path := by
  rw [ofName?, ofName?, FileName.extension?, FileName.extension?, h]

namespace Catalog

variable {σ : Type} [SaveStore σ] {writable : σ → Prop}

/-- The store has the file under the name, and no drive has a disk that could take its place. -/
structure Guards (writable : σ → Prop) (c : Catalog σ) (name : String) (file : Bytes) :
    Prop where
  isWritable : writable c.store
  saved : SaveStore.load c.store name = some file
  apart : ∀ id i, (c.drive id).inserted = some i → i.name ≠ name

namespace Guards

variable {c : Catalog σ} {name : String} {file : Bytes}

theorem eject (hstore : SaveStore.ActsAsMap writable) (h : Guards writable c name file)
    (id : DriveId) (keep : Bool) : Guards writable (c.eject id keep) name file := by
  cases hi : (c.drive id).inserted with
  | none => rwa [eject_of_empty hi]
  | some i =>
    have hapart : ∀ j k, ((c.eject id keep).drive j).inserted = some k → k.name ≠ name :=
      fun j k hk => h.apart j k (inserted_of_eject hk).2
    have hne : name ≠ i.name := (h.apart id i hi).symm
    rcases store_eject_cases hi keep with hs | ⟨hs, -⟩
    · exact ⟨hs ▸ h.isWritable, hs ▸ h.saved, hapart⟩
    · unfold InsertedDisk.saveTo at hs
      split at hs
      · refine ⟨hs ▸ hstore.writable_store _ _ _ h.isWritable, ?_, hapart⟩
        rw [hs, hstore.load_store _ _ _ _ h.isWritable, if_neg hne]
        exact h.saved
      · exact ⟨hs ▸ h.isWritable, hs ▸ h.saved, hapart⟩

theorem ejectFrom (hstore : SaveStore.ActsAsMap writable) (h : Guards writable c name file)
    (slot : Nat) (id : DriveId) : Guards writable (c.ejectFrom slot id) name file := by
  unfold Catalog.ejectFrom
  split
  · exact h.eject hstore id true
  · exact h

end Guards

@[simp]
theorem policy_ejectFrom (c : Catalog σ) (slot : Nat) (id : DriveId) :
    (c.ejectFrom slot id).policy = c.policy := by
  unfold ejectFrom
  split <;> simp

theorem Saves.guards (hstore : SaveStore.ActsAsMap writable) {c : Catalog σ} {id : DriveId}
    {i : InsertedDisk} (h : c.Saves i) (hi : (c.drive id).inserted = some i)
    (hother : ∀ k, (c.drive id.other).inserted = some k → k.name ≠ i.name)
    (hw : writable c.store) {file : Bytes} (hf : i.disk.encode i.disk.format = .ok file) :
    Guards writable (c.eject id true) i.name file := by
  have hs := h.store_eject hi
  rw [InsertedDisk.saveTo, hf] at hs
  constructor
  · exact hs ▸ hstore.writable_store _ _ _ hw
  · rw [hs, hstore.load_store _ _ _ _ hw, if_pos rfl]
  · intro j k hk
    obtain ⟨hj, hk⟩ := inserted_of_eject hk
    rcases eq_or_eq_other id j with rfl | rfl
    · exact absurd rfl hj
    · exact hother k hk

theorem replace_of_saved [Zip.Library] {c e : Catalog σ} {slot : Nat} {path : String} {file : Bytes}
    {d : Disk} (he : e = (c.ejectFrom slot .a).ejectFrom slot .b) (hl : slot < c.slots.length)
    (hp : c.policy.saveEnabled = true)
    (hs : SaveStore.load e.store (FileName.base path) = some file)
    (hd : Disk.ofFile (some path) file e.codec = .ok d) (bytes : Bytes) :
    c.replace slot (some path) bytes =
      ({ e with slots := e.slots.set slot ⟨FileName.base path, some d, true⟩ }, .ok ()) := by
  have hpolicy : e.policy.saveEnabled = true := by rw [he]; simpa using hp
  have himage : DiskImage.ofFile (some path) file e.codec =
      .ok { name := FileName.base path, disk := some d } := by
    rw [DiskImage.ofFile, hd]
    rfl
  rw [replace, if_neg (Nat.not_le_of_lt hl), ← he]
  simp only [Option.isSome_some, hpolicy, Bool.and_self, if_true, Option.map_some,
    Option.getD_some, hs, himage]

/-- A changed disk that was loaded under a name of a plain format is ejected, while saving is
enabled and the store takes what it is given. Then any file that is loaded under that name into any
slot gives way to the save: the slot has the data that the guest left, in the format they had. -/
theorem replace_after_eject [Zip.Library] (hstore : SaveStore.ActsAsMap writable) (policy : Policy)
    (store : σ) (ops : List Operation) {c : Catalog σ} (hc : c = (new policy store).run ops)
    (ho : ∀ op ∈ ops, ¬op.Restores) {id : DriveId} {s : Nat} {i : InsertedDisk} {path : String}
    {f : Format} (hs : (c.drive id).slot = some s) (hi : (c.drive id).inserted = some i)
    (hp : (pathsOf ops)[s]? = some (some path)) (hn : Format.ofName? path = some f)
    (hf : f.isPlain = true) (hsaves : c.Saves i)
    (hother : ∀ k, (c.drive id.other).inserted = some k → k.name ≠ FileName.base path)
    (hw : writable c.store) (slot : Nat) (hl : slot < c.slots.length) (path' : String)
    (hbase : FileName.base path' = FileName.base path) (bytes : Bytes) :
    ∃ c' d, (c.setInserted id false).1.replace slot (some path') bytes = (c', .ok ()) ∧
      c'.slots[slot]? = some ⟨FileName.base path, some d, true⟩ ∧
      d.data = i.disk.data ∧ d.format = i.disk.format := by
  have hsourced : c.Sourced (pathsOf ops) := hc ▸ (Sourced.new policy store).run ops ho
  have hname : i.name = FileName.base path := hsourced.name_eq hs hi hp
  have hcame : i.disk.CameFrom (some path) :=
    hsourced.drives id s i _ (shown_eq_some_iff.mpr ⟨hs, hi⟩) hp
  have hformat : i.disk.format = f := hcame.format_eq hn hf
  have hkind : i.disk.kind = .plainSector := by
    rw [hcame.kind_eq, hformat]
    exact beq_iff_eq.mp hf
  obtain ⟨hmax, hheader⟩ := hcame.readable hkind
  obtain ⟨file, hfile⟩ := exists_of_isOk hsaves.isOk
  let e := ((c.eject id true).ejectFrom slot .a).ejectFrom slot .b
  have hguards : Guards writable e i.name file := by
    have h := hsaves.guards hstore hi (hname ▸ hother) hw hfile
    exact (h.ejectFrom hstore slot .a).ejectFrom hstore slot .b
  -- The save is in the format of the old path, and the new path is one of that format.
  have hn' : Format.ofName? path' = some f := (Format.ofName?_congr hbase).trans hn
  obtain ⟨image, hload, hdata, -⟩ :=
    Disk.ofFormat_encode hmax hheader (hformat ▸ hfile) e.codec
  have hread : Disk.ofFile (some path') file e.codec = .ok (.ofSectorImage f image) := by
    rw [Disk.ofFile_of_ofName? hn' hf, hload]
    rfl
  have hsaved : SaveStore.load e.store (FileName.base path') = some file := by
    rw [hbase, ← hname]
    exact hguards.saved
  have hreplace := replace_of_saved (c := c.eject id true) rfl (by simpa using hl)
    (by simpa using hsaves.saveEnabled) hsaved hread bytes
  refine ⟨_, .ofSectorImage f image, hreplace, ?_, hdata, hformat.symm⟩
  rw [hbase]
  exact List.getElem?_set_self (by simpa [e] using hl)

open scoped Zip.Reader in
/-- An MSA file that is written to and ejected, and then offered three bytes under its name. -/
theorem replace_after_eject_packed :
    let ops : List Operation :=
      [.add, .replace 0 (some "games/a.msa") InsertedDisk.packedSectors, .select .a 0,
        .setInserted .a true, .write .a ⟨0, 0, 2⟩ [1, 2, 3], .add]
    let c := (new {} ({} : MemoryStore)).run ops
    ∃ c' d, (c.setInserted .a false).1.replace 1 (some "a.msa") [1, 2, 3] = (c', .ok ()) ∧
      c'.slots[1]? = some ⟨"a.msa", some d, true⟩ ∧
      d.data = Bytes.overwrite Disk.twoSectors 512 [1, 2, 3] ∧ d.format = .msa := by
  intro ops c
  have ho : ∀ op ∈ ops, ¬op.Restores := by simp [ops, Operation.Restores]
  have hs : (c.drive .a).slot = some 0 := by decide +kernel
  have hi : (c.drive .a).inserted = some
      { name := "a.msa", geometry := ⟨1, 1, 2⟩, okToPersist := true, isModified := true
        disk := ⟨.msa, .plainSector, Bytes.overwrite Disk.twoSectors 512 [1, 2, 3], false,
          some ⟨1, 2⟩, none⟩ } := by decide +kernel
  have hp : (pathsOf ops)[0]? = some (some "games/a.msa") := rfl
  have hn : Format.ofName? "games/a.msa" = some .msa := by decide +kernel
  have hbase : FileName.base "games/a.msa" = "a.msa" := by decide +kernel
  have hother : ∀ k, (c.drive .b).inserted = some k → k.name ≠ FileName.base "games/a.msa" := by
    have hb : (c.drive .b).inserted = none := by decide +kernel
    simp [hb]
  have hreplace := replace_after_eject MemoryStore.actsAsMap {} {} ops rfl ho hs hi hp hn rfl
    ⟨by decide +kernel, rfl, rfl, by decide +kernel⟩ hother (by decide +kernel) 1
    (by decide +kernel) "a.msa" (by decide +kernel) [1, 2, 3]
  rw [hbase] at hreplace
  exact hreplace

end Catalog

end Diskette
