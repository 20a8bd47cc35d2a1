import Diskette.Proofs.Catalog.InStep
import Diskette.Proofs.Disk.WriteBack

/-!
# Where the disks come from

A catalog does not keep the paths that its slots were filled from. They are told here from the
operations. As long as nothing is restored, the disk of a slot was decoded from a file of the last
path, and so was the disk in the drive that presents the slot; it may have been written to since,
and no more than that.
-/

set_option autoImplicit false

namespace Diskette

/-- The disk was decoded from a file of the path, and may have been written to since. -/
def Disk.CameFrom [Zip.Library] (path : Option String) (d : Disk) : Prop :=
  ∃ file codec e, ofFile path file codec = .ok e ∧ d.format = e.format ∧ d.kind = e.kind ∧
    d.header = e.header ∧ d.data.length = e.data.length

namespace Disk

theorem format_of_ofFile [Zip.Library] {path : String} {f : Format} {file : Bytes} {codec : Codec}
    {d : Disk} (h : ofFile (some path) file codec = .ok d) (hn : Format.ofName? path = some f)
    (hf : f.isPlain = true) : d.format = f := by
  rw [ofFile_of_ofName? hn hf] at h
  obtain ⟨e, he, h⟩ := bind_eq_ok h
  cases h
  have hformat : e.format = f := format_of_ofFormat he
  exact hformat

namespace CameFrom

variable {path : Option String} {d : Disk}

theorem of_ofFile [Zip.Library] {file : Bytes} {codec : Codec}
    (h : ofFile path file codec = .ok d) :
    d.CameFrom path :=
  ⟨file, codec, d, h, rfl, rfl, rfl, rfl⟩

theorem withData [Zip.Library] (h : d.CameFrom path) {b : Bytes} (hl : b.length = d.data.length) :
    ({ d with data := b } : Disk).CameFrom path := by
  obtain ⟨file, codec, e, he, hformat, hkind, hheader, hlength⟩ := h
  exact ⟨file, codec, e, he, hformat, hkind, hheader, hl.trans hlength⟩

theorem format_eq [Zip.Library] {p : String} {f : Format} (h : d.CameFrom (some p))
    (hn : Format.ofName? p = some f) (hf : f.isPlain = true) : d.format = f := by
  obtain ⟨file, codec, e, he, hformat, -⟩ := h
  exact hformat.trans (format_of_ofFile he hn hf)

theorem kind_eq [Zip.Library] (h : d.CameFrom path) : d.kind = d.format.kind := by
  obtain ⟨file, codec, e, he, hformat, hkind, -⟩ := h
  rw [hformat, hkind, kind_of_ofFile he]

theorem readable [Zip.Library] (h : d.CameFrom path) (hk : d.kind = .plainSector) :
    d.data.length ≤ maxImageSize ∧ ∀ b, d.header = some b → Dim.Supported b := by
  obtain ⟨file, codec, e, he, -, hkind, hheader, hlength⟩ := h
  obtain ⟨hm, hh⟩ := ofFile_eq_ok he
  rw [hkind] at hk
  rw [hheader, hlength]
  exact ⟨hm hk, hh⟩

end CameFrom

end Disk

structure DiskImage.IsFrom [Zip.Library] (image : DiskImage) (path : Option String) : Prop where
  name : ∀ p, path = some p → image.name = FileName.base p
  disk : ∀ d, image.disk = some d → d.CameFrom path

theorem DiskImage.IsFrom.empty [Zip.Library] {name : String} {path : Option String}
    (h : ∀ p, path = some p → name = FileName.base p) : (DiskImage.empty name).IsFrom path :=
  ⟨h, fun d hd => by cases hd⟩

namespace Catalog

variable {σ : Type}

def pathsAfter (paths : List (Option String)) : Operation → List (Option String)
  | .add => if maxSlots ≤ paths.length then paths else paths ++ [none]
  | .replace slot path _ => paths.set slot path
  | .loadTitle path _ => [path]
  | .loadPlaylist _ files => (files.map (·.1)).take maxSlots
  | .clear => []
  | _ => paths

def pathsOf (ops : List Operation) : List (Option String) := ops.foldl pathsAfter []

/-- The disks of the slots, in drives or not, came from these paths. -/
structure Sourced [Zip.Library] (c : Catalog σ) (paths : List (Option String)) : Prop where
  mapped : c.Mapped
  length : paths.length = c.slots.length
  slots : ∀ (s : Nat) path image, paths[s]? = some path → c.slots[s]? = some image →
    DiskImage.IsFrom image path
  drives : ∀ id s i path, c.shown s id = some i → paths[s]? = some path → i.disk.CameFrom path

namespace Sourced

variable {c c' : Catalog σ} {paths : List (Option String)}

theorem nil [Zip.Library] (h : c.Mapped) (hs : c.slots = []) : c.Sourced [] where
  mapped := h
  length := by rw [hs]; rfl
  slots s path image hp := by cases hp
  drives id s i path hi hp := by cases hp

theorem new [Zip.Library] (policy : Policy) (store : σ) : (Catalog.new policy store).Sourced [] :=
  nil (.new policy store) rfl

theorem name_eq [Zip.Library] (h : c.Sourced paths) {id : DriveId} {s : Nat} {i : InsertedDisk}
    {p : String} (hs : (c.drive id).slot = some s) (hi : (c.drive id).inserted = some i)
    (hp : paths[s]? = some (some p)) : i.name = FileName.base p := by
  obtain ⟨image, himage, hname⟩ := h.mapped.named id s i hs hi
  rw [← hname]
  exact (h.slots s _ image hp himage).name p rfl

theorem setDrive [Zip.Library] (h : c.Sourced paths) {id : DriveId} {d : Drive}
    (hm : (c.setDrive id d).Mapped)
    (hd : ∀ s i path, d.slot = some s → d.inserted = some i → paths[s]? = some path →
      i.disk.CameFrom path) : (c.setDrive id d).Sourced paths := by
  constructor
  · exact hm
  · rw [slots_setDrive]
    exact h.length
  · rw [slots_setDrive]
    exact h.slots
  · intro j s i path hi hp
    rw [shown_setDrive] at hi
    split at hi
    · split at hi
      · rename_i hs
        exact hd s i path hs hi hp
      · cases hi
    · exact h.drives j s i path hi hp

theorem fill [Zip.Library] (h : c.Sourced paths) {slot : Nat} {image : DiskImage}
    {path : Option String} (hf : ∀ id, (c.drive id).presents slot = false)
    (hi : image.IsFrom path) :
    ({ c with slots := c.slots.set slot image } : Catalog σ).Sourced (paths.set slot path) := by
  constructor
  · apply h.mapped.setSlots _ (by simpa using h.mapped.few) (by simp)
    intro id s hp
    apply List.getElem?_set_ne
    rintro rfl
    exact Bool.eq_false_iff.mp (hf id) hp
  · simpa using h.length
  · intro s p image' hp hi'
    by_cases hs : slot = s
    · subst hs
      rw [List.getElem?_set_self' ] at hp hi'
      obtain ⟨-, -, rfl⟩ := Option.map_eq_some_iff.mp hp
      obtain ⟨-, -, rfl⟩ := Option.map_eq_some_iff.mp hi'
      exact hi
    · rw [List.getElem?_set_ne hs] at hp hi'
      exact h.slots s p image' hp hi'
  · intro id s i p hshown hp
    have hs : slot ≠ s := by
      rintro rfl
      exact Bool.eq_false_iff.mp (hf id) (presents_iff_shown.mpr ⟨i, hshown⟩)
    rw [List.getElem?_set_ne hs] at hp
    exact h.drives id s i p hshown hp

variable [SaveStore σ] {op : Operation} {into : DriveId → Bool}

theorem eject [Zip.Library] (h : c.Sourced paths) (id : DriveId) (keep : Bool) :
    (c.eject id keep).Sourced paths := by
  constructor
  · exact h.mapped.eject id keep
  · rw [length_slots_eject]
    exact h.length
  · intro s path image hp hi
    rcases h.mapped.getElem?_slots_eject id keep s with he | ⟨i, hs, hd, -, he⟩
    · exact h.slots s path image hp (he.symm.trans hi)
    · rw [hi] at he
      cases he
      constructor
      · rintro p rfl
        exact h.name_eq hs hd hp
      · intro d hd'
        cases hd'
        exact h.drives id s i path (shown_eq_some_iff.mpr ⟨hs, hd⟩) hp
  · intro j s i path hi hp
    rw [Holds.shown_eject] at hi
    split at hi
    · cases hi
    · exact h.drives j s i path hi hp

theorem move [Zip.Library] (hmove : Move into op c c') (ho : op.KeepsTitle) (hr : ¬op.Restores)
    (h : c.Sourced paths) : c'.Sourced paths := by
  have hm : c'.Mapped := h.mapped.change hmove.change
  have hl : c'.slots.length = c.slots.length := hmove.slots.resolve_left ho.not_resizes
  cases hmove.change with
  | eject id keep _ => exact h.eject id keep
  | add _ => simp at hl
  | fill slot image hf _ _ _ => exact absurd hf (ho.not_fills slot)
  | point id slot he _ =>
    apply h.setDrive hm
    intro s i path _ hi
    cases he.symm.trans hi
  | insert id slot image disk _ _ _ hi hd _ =>
    apply h.setDrive hm
    intro s i path hs hi' hp
    cases hs
    cases hi'
    exact (h.slots slot path image hp hi).disk disk hd
  | write id address data d _ hd =>
    obtain ⟨-, i, hi, -, hlength, rfl⟩ := Drive.write_eq_ok hd
    apply h.setDrive hm
    intro s j path hs hj hp
    cases hj
    have hcame := h.drives id s i path (shown_eq_some_iff.mpr ⟨hs, hi⟩) hp
    exact hcame.withData (Bytes.length_overwrite i.disk.data data _ hlength)
  | adjust id timer on =>
    apply h.setDrive hm
    intro s i path hs hi hp
    exact h.drives id s i path (shown_eq_some_iff.mpr ⟨hs, hi⟩) hp
  | host policy codec tick => exact ⟨hm, h.length, h.slots, h.drives⟩
  | discard hc _ _ => exact absurd hc.resizes ho.not_resizes
  | restore id file s taken slot hop _ _ _ _ => exact absurd (hop ▸ trivial) hr

theorem moves [Zip.Library] (h : c.Sourced paths) (hm : Moves into op c c') (ho : op.KeepsTitle)
    (hr : ¬op.Restores) : c'.Sourced paths :=
  hm.keeps (fun _ _ hmove hs => move hmove ho hr hs) h

theorem of_moves [Zip.Library] (h : c.Sourced paths) (hm : Moves into .advance c c') :
    c'.Sourced paths :=
  h.moves hm trivial id

theorem replace [Zip.Library] (h : c.Sourced paths) (slot : Nat) (path : Option String)
    (file : Bytes) :
    (c.replace slot path file).1.Sourced (paths.set slot path) := by
  unfold Catalog.replace
  split
  · rename_i hl
    rw [List.set_eq_of_length_le (h.length ▸ hl)]
    exact h
  · have hm : Moves (fun _ => true) .advance c ((c.ejectFrom slot .a).ejectFrom slot .b) :=
      (moves_ejectFrom c slot .a).trans (moves_ejectFrom _ slot .b)
    have hc := h.of_moves hm
    have hf := presents_ejectFrom_both c slot
    dsimp only
    split
    · rename_i image hi
      apply hc.fill hf
      constructor
      · rintro p rfl
        rfl
      · intro d hd
        obtain ⟨e, he, hfile⟩ := DiskImage.ofFile_eq_ok hi
        have hde : some d = some e := hd.symm.trans he
        cases hde
        exact .of_ofFile hfile
    · apply hc.fill hf
      apply DiskImage.IsFrom.empty
      rintro p rfl
      rfl

theorem addSlot [Zip.Library] (h : c.Sourced paths) (hl : c.slots.length < maxSlots) :
    ({ c with slots := c.slots ++ [{}] } : Catalog σ).Sourced (paths ++ [none]) := by
  constructor
  · have hadd : Change .add c { c with slots := c.slots ++ [{}] } := .add c hl
    exact h.mapped.change hadd
  · simp [h.length]
  · intro s path image hp hi
    rcases Nat.lt_or_ge s c.slots.length with hs | hs
    · rw [List.getElem?_append_left (h.length ▸ hs)] at hp
      rw [List.getElem?_append_left hs] at hi
      exact h.slots s path image hp hi
    · rw [List.getElem?_append_right (h.length ▸ hs)] at hp
      rw [List.getElem?_append_right hs] at hi
      rw [List.mem_singleton.mp (List.mem_of_getElem? hp),
        List.mem_singleton.mp (List.mem_of_getElem? hi)]
      exact .empty (by simp)
  · intro id s i path hi hp
    have hs : s < c.slots.length := h.mapped.inRange id s (shown_eq_some_iff.mp hi).1
    rw [List.getElem?_append_left (h.length ▸ hs)] at hp
    exact h.drives id s i path hi hp

theorem add [Zip.Library] (h : c.Sourced paths) : c.add.1.Sourced (pathsAfter paths .add) := by
  unfold Catalog.add pathsAfter
  rw [h.length]
  split
  · exact h
  · rename_i hl
    exact h.addSlot (Nat.lt_of_not_le hl)

theorem clear [Zip.Library] (h : c.Mapped) : c.clear.Sourced [] := by
  have hm : Moves (fun _ => true) .clear c c.clear := moves_clear c trivial
  exact nil (hm.changes.keeps (fun _ _ => Mapped.change) h) rfl

theorem addAll [Zip.Library] (files : List (Option String × Bytes)) (h : c.Sourced paths) :
    (c.addAll files).1.Sourced
      (paths ++ (files.map (·.1)).take (maxSlots - paths.length)) := by
  induction files generalizing c paths with
  | nil => simpa [Catalog.addAll] using h
  | cons file files ih =>
    obtain ⟨path, content⟩ := file
    rw [Catalog.addAll, Catalog.add]
    split
    · rename_i hl
      have h0 : maxSlots - paths.length = 0 := Nat.sub_eq_zero_of_le (h.length ▸ hl)
      rw [h0, List.take_zero, List.append_nil]
      exact h
    · rename_i hl
      have hfilled := (h.addSlot (Nat.lt_of_not_le hl)).replace c.slots.length path content
      have hpaths : (paths ++ [none]).set c.slots.length path = paths ++ [path] := by
        rw [← h.length, List.set_append_right _ _ (Nat.le_refl _), Nat.sub_self]
        rfl
      have hroom : maxSlots - paths.length = maxSlots - (paths ++ [path]).length + 1 := by
        rw [List.length_append, List.length_singleton, h.length]
        omega
      rw [List.map_cons, hroom, List.take_succ_cons, List.append_cons paths]
      rw [hpaths] at hfilled
      exact ih hfilled

theorem loadTitle [Zip.Library] (h : c.Mapped) (path : Option String) (file : Bytes) :
    (c.loadTitle path file).1.Sourced [path] := by
  have hadd : (c.clear.add).1.Sourced [none] := (clear h).add
  have hreplace : ((c.clear.add).1.replace 0 path file).1.Sourced [path] :=
    hadd.replace 0 path file
  have hm : Moves (fun _ => true) .advance _ (c.loadTitle path file).1 :=
    moves_presentTitle ((c.clear.add).1.replace 0 path file) 0 rfl
  exact hreplace.of_moves hm

theorem loadPlaylist [Zip.Library] (h : c.Mapped) (start : Nat)
    (files : List (Option String × Bytes)) :
    (c.loadPlaylist start files).1.Sourced ((files.map (·.1)).take maxSlots) :=
  ((clear h).addAll files).of_moves (moves_presentPlaylist c start files fun _ => rfl)

theorem step [Zip.Library] (h : c.Sourced paths) (ho : ¬op.Restores) :
    (c.step op).1.Sourced (pathsAfter paths op) := by
  have hmoves := moves_step c op
  cases op with
  | add => exact h.add
  | replace slot path file => exact h.replace slot path file
  | loadTitle path file => exact loadTitle h.mapped path file
  | loadPlaylist start files => exact loadPlaylist h.mapped start files
  | clear => exact clear h.mapped
  | restore file => exact absurd trivial ho
  | _ => exact h.moves hmoves trivial ho

theorem run [Zip.Library] (h : c.Sourced paths) (ops : List Operation)
    (ho : ∀ op ∈ ops, ¬op.Restores) :
    (c.run ops).Sourced (ops.foldl pathsAfter paths) := by
  induction ops generalizing c paths with
  | nil => exact h
  | cons op ops ih =>
    exact ih (h.step (ho op (by simp))) fun o hm => ho o (by simp [hm])

end Sourced

end Catalog

end Diskette
