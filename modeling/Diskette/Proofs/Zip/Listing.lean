import Diskette.Proofs.Zip.Reader

/-!
# What a listed entry unpacks to

An archive has one entry of each name, so the entry that is unpacked is the one that was listed,
and the size in the listing is the one that is compared with the greatest size allowed. Nothing
compares it with what comes out: that is up to the packed data alone. It is bounded all the same,
by the length of the archive and by how much a deflated stream can hold.
-/

set_option autoImplicit false

namespace Diskette.Zip

theorem exists_of_mapM_eq_ok {α β ε : Type} {f : α → Except ε β} {l : List α} {results : List β}
    (h : l.mapM f = .ok results) {b : β} (hb : b ∈ results) : ∃ a ∈ l, f a = .ok b := by
  induction l generalizing results with
  | nil =>
    cases h
    cases hb
  | cons a l ih =>
    rw [List.mapM_cons] at h
    obtain ⟨first, hfirst, hrest⟩ := bind_eq_ok h
    obtain ⟨others, hothers, heq⟩ := bind_eq_ok hrest
    cases heq
    rcases List.mem_cons.mp hb with rfl | hb
    · exact ⟨a, List.mem_cons_self, hfirst⟩
    · obtain ⟨c, hc, hfc⟩ := ih hothers hb
      exact ⟨c, List.mem_cons_of_mem _ hc, hfc⟩

theorem Archive.listed?_eq_ok [Library] {a : Archive} {index : Nat} {name : String} {size : Nat}
    (h : a.listed? index = .ok (some (name, size))) :
    ∃ e, a.byIndex index = .ok e ∧ e.enclosedName = some name ∧ e.size = size := by
  obtain ⟨e, he, h⟩ := bind_eq_ok h
  refine ⟨e, he, ?_⟩
  split at h
  · cases h
  · obtain ⟨n, hn, heq⟩ := Option.map_eq_some_iff.mp (Except.ok.inj h)
    cases heq
    exact ⟨hn, rfl⟩

theorem mem_listing [Library] {file : Bytes} {files : List (String × Nat)} {name : String}
    {size : Nat} (hl : listing file = .ok files) (hm : (name, size) ∈ files) :
    ∃ a index e, Library.openArchive file = .ok a ∧ index < a.count ∧ a.byIndex index = .ok e ∧
      e.enclosedName = some name ∧ e.size = size := by
  obtain ⟨a, ha, hl⟩ := bind_eq_ok hl
  obtain ⟨read, hread, hfiles⟩ := bind_eq_ok hl
  cases hfiles
  obtain ⟨listed, hlisted, hsome⟩ := List.mem_filterMap.mp hm
  change listed = some (name, size) at hsome
  subst hsome
  obtain ⟨index, hindex, h⟩ := exists_of_mapM_eq_ok hread hlisted
  obtain ⟨e, he, hname, hsize⟩ := Archive.listed?_eq_ok h
  exact ⟨a, index, e, ha, List.mem_range.mp hindex, he, hname, hsize⟩

theorem extract_of_byName [Library] {file : Bytes} {a : Archive} {e : Entry} {name : String}
    (ha : Library.openArchive file = .ok a) (he : a.byName name = .ok e) :
    extract file name =
      if maxImageSize < e.size then .error (.decode (.archive (.entryTooLarge name e.size)))
      else e.readToEnd () := by
  rw [extract, ha]
  change (a.byName name >>= _) = _
  rw [he]
  rfl

theorem length_le_of_unpacked? {e : Entry} {inflate : Bytes → Option Bytes} {k : Nat} {data : Bytes}
    (hk : 1 ≤ k)
    (hgrowth : ∀ packed data, inflate packed = some data → data.length ≤ k * packed.length)
    (h : e.unpacked? inflate = some data) : data.length ≤ k * e.packed.length := by
  rw [Entry.unpacked?] at h
  split at h
  · cases h
    exact Nat.le_mul_of_pos_left _ hk
  · split at h
    · exact hgrowth _ _ h
    · cases h

/-- What unpacking a listed entry gives, with any library that does what is documented. The size in
the listing only decides whether it is tried: it has to be within the greatest size allowed, and
what comes out then is what the packed data holds, whatever that size says. How long it can be is
up to the length of the file and to how much a deflated stream holds for each of its bytes. -/
theorem extract_listed [Library] {inflate : Bytes → Option Bytes} {crc32 : Bytes → UInt32}
    (documented : Library.Documented inflate crc32) {file : Bytes} {files : List (String × Nat)}
    {name : String} {size : Nat} (hl : listing file = .ok files) (hm : (name, size) ∈ files) :
    ∃ e : Entry, e.IsIn file ∧ e.name = name ∧ e.size = size ∧
      extract file name =
        (if maxImageSize < size then .error (.decode (.archive (.entryTooLarge name size)))
          else e.readToEnd ()) ∧
      (e.method = stored ∨ e.method = deflated → ∀ data,
        (extract file name = .ok data ↔
          size ≤ maxImageSize ∧ e.unpacked? inflate = some data ∧ crc32 data = e.checksum) ∧
        ∀ k, 1 ≤ k →
          (∀ packed data, inflate packed = some data → data.length ≤ k * packed.length) →
          extract file name = .ok data → data.length ≤ k * file.length) := by
  obtain ⟨a, index, e, ha, hindex, he, hname, rfl⟩ := mem_listing hl hm
  have hin : e.IsIn file := ⟨a, index, ha, hindex, he⟩
  have hsame : name = e.name := documented.enclosedName hin hname
  subst hsame
  have hextract := extract_of_byName ha (documented.byName ha he)
  refine ⟨e, hin, rfl, rfl, hextract, ?_⟩
  intro hmethod data
  have hiff : extract file e.name = .ok data ↔
      e.size ≤ maxImageSize ∧ e.unpacked? inflate = some data ∧ crc32 data = e.checksum := by
    rw [hextract, ← documented.readToEnd hin hmethod]
    by_cases hlarge : maxImageSize < e.size
    · rw [if_pos hlarge]
      exact iff_of_false nofun (fun h => Nat.not_lt.mpr h.1 hlarge)
    · rw [if_neg hlarge]
      exact (and_iff_right (Nat.not_lt.mp hlarge)).symm
  refine ⟨hiff, ?_⟩
  intro k hk hgrowth hdata
  calc data.length ≤ k * e.packed.length :=
        length_le_of_unpacked? hk hgrowth (hiff.mp hdata).2.1
    _ ≤ k * file.length := Nat.mul_le_mul_left k (documented.packed hin).length_le

/-- An archive of one deflated entry, of forty zeros, with any size in its directory. -/
def fortyZeros (size : Nat) : Bytes :=
  let sizes := Bytes.toLE 4 6 ++ Bytes.toLE 4 size
  let name : Bytes := [0x78, 0x2E, 0x73, 0x74]
  let packed : Bytes := [99, 96, 32, 14, 0, 0]
  localSignature ++ [20, 0, 0, 0, 8, 0, 0, 0, 33, 0, 177, 61, 236, 233] ++ sizes ++ [4, 0, 0, 0] ++
  name ++ packed ++
  Reader.directorySignature ++ [20, 0, 20, 0, 0, 0, 8, 0, 0, 0, 33, 0, 177, 61, 236, 233] ++
  sizes ++ [4, 0, 0, 0, 0, 0, 0, 0, 0, 0, 0, 0, 0, 0, 0, 0, 0, 0] ++ name ++
  Reader.endSignature ++ [0, 0, 0, 0, 1, 0, 1, 0, 50, 0, 0, 0, 40, 0, 0, 0, 0, 0]

open scoped Reader in
theorem method_of_isIn_fortyZeros {e : Entry} (h : e.IsIn (fortyZeros 1)) :
    e.method = deflated := by
  obtain ⟨a, index, ha, hindex, he⟩ := h
  have hall : ((Library.openArchive (fortyZeros 1)).toOption.all fun a =>
      (List.range a.count).all fun i =>
        (a.byIndex i).toOption.all fun e => e.method == deflated) = true := by
    decide +kernel
  rw [ha] at hall
  have hmethod := List.all_eq_true.mp hall index (List.mem_range.mpr hindex)
  rw [he] at hmethod
  exact beq_iff_eq.mp hmethod

open scoped Reader in
/-- An entry is refused for the size that is stated, no matter what it unpacks to. It is unpacked
for a size that is too small, but not to more than its file can hold. -/
theorem extract_listed_fortyZeros :
    (listing (fortyZeros 100000001) = .ok [("x.st", 100000001)] ∧
      extract (fortyZeros 100000001) "x.st" =
        .error (.decode (.archive (.entryTooLarge "x.st" 100000001)))) ∧
    listing (fortyZeros 1) = .ok [("x.st", 1)] ∧ ∃ data, extract (fortyZeros 1) "x.st" = .ok data ∧
      1 < data.length ∧ data.length ≤ 1032 * (fortyZeros 1).length := by
  have hlarge : listing (fortyZeros 100000001) = .ok [("x.st", 100000001)] := by decide +kernel
  have hsmall : listing (fortyZeros 1) = .ok [("x.st", 1)] := by decide +kernel
  have hdata : extract (fortyZeros 1) "x.st" = .ok (List.replicate 40 0) := by decide +kernel
  obtain ⟨_, -, -, -, hrefused, -⟩ :=
    extract_listed Reader.documented hlarge (List.mem_singleton.mpr rfl)
  obtain ⟨e, hin, -, -, -, hread⟩ :=
    extract_listed Reader.documented hsmall (List.mem_singleton.mpr rfl)
  obtain ⟨-, hbound⟩ := hread (.inr (method_of_isIn_fortyZeros hin)) (List.replicate 40 0)
  refine ⟨⟨hlarge, hrefused⟩, hsmall, List.replicate 40 0, hdata, by decide, ?_⟩
  exact hbound 1032 (by decide) (fun _ _ => Reader.length_le_of_inflate?) hdata

open scoped Reader in
/-- What comes out need not be as long as the listing says. -/
theorem extract_not_listed_size :
    let file := fortyZeros 1
    Library.Documented Reader.inflate? crc32 ∧ ∃ files data, listing file = .ok files ∧
      ("x.st", 1) ∈ files ∧ extract file "x.st" = .ok data ∧ data.length ≠ 1 := by
  refine ⟨Reader.documented, [("x.st", 1)], List.replicate 40 0, ?_⟩
  decide +kernel

end Diskette.Zip
