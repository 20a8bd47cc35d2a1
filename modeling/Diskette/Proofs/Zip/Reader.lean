import Mathlib.Data.List.Nodup
import Diskette.Proofs.Disk.Decoding
import Diskette.Proofs.Zip.Growth
import Diskette.Zip.Reader

/-!
# The reader as a library

The reader does what is documented of a library. Its directories have one entry of each name, since
a second one takes the place of the first, and the packed data of an entry is a part of the file.
-/

set_option autoImplicit false

namespace Diskette.Zip.Reader

theorem map_name_addEntry (e : DirectoryEntry) (entries : List DirectoryEntry) :
    (addEntry e entries).map (·.name) =
      if e.name ∈ entries.map (·.name) then entries.map (·.name)
      else entries.map (·.name) ++ [e.name] := by
  induction entries with
  | nil => rfl
  | cons f rest ih =>
    rw [addEntry]
    by_cases h : f.name = e.name
    · simp [h]
    · have hmem : e.name ∈ (f :: rest).map (·.name) ↔ e.name ∈ rest.map (·.name) := by
        rw [List.map_cons, List.mem_cons]
        exact or_iff_right (Ne.symm h)
      rw [if_neg h, List.map_cons, ih, List.map_cons]
      simp only [List.map_cons] at hmem
      simp only [hmem]
      split
      · rfl
      · rfl

theorem nodup_addEntry (e : DirectoryEntry) {entries : List DirectoryEntry}
    (h : (entries.map (·.name)).Nodup) : ((addEntry e entries).map (·.name)).Nodup := by
  rw [map_name_addEntry]
  split
  · exact h
  · rename_i hnew
    rw [← List.concat_eq_append]
    exact h.concat hnew

theorem nodup_readEntries? {start directory count : Nat} {b : Bytes}
    {entries read : List DirectoryEntry}
    (h : readEntries? start directory count b entries = some read)
    (hn : (entries.map (·.name)).Nodup) : (read.map (·.name)).Nodup := by
  induction count generalizing b entries with
  | zero =>
    cases h
    exact hn
  | succ n ih =>
    rw [readEntries?] at h
    split at h
    · exact ih h (nodup_addEntry _ hn)
    · cases h

namespace Directory

variable {d : Directory} {e : DirectoryEntry} {opened : Entry}

theorem ofPlaces_eq_ok {file : Bytes} {places : List Nat} {fault : Option Fault}
    (h : ofPlaces file places fault = .ok d) :
    d.file = file ∧ ∃ directory record, entriesAt? file directory record = some d.entries := by
  fun_induction ofPlaces file places fault with
  | case1 fault => cases h
  | case2 place more fault hshort ih => exact ih h
  | case3 place more fault record comment hrecord hshort ih => exact ih h
  | case4 place more fault record comment hrecord hlong hnone ih => exact ih h
  | case5 place more fault record comment hrecord hlong directory hdirectory entries hentries =>
    cases h
    exact ⟨rfl, directory, record, hentries⟩
  | case6 place more fault record comment hrecord hlong directory hdirectory hnone ih => exact ih h

theorem nodup_of_ofBytes {file : Bytes} (h : ofBytes file = .ok d) :
    d.file = file ∧ (d.entries.map (·.name)).Nodup := by
  obtain ⟨hfile, directory, record, hentries⟩ := ofPlaces_eq_ok h
  refine ⟨hfile, ?_⟩
  rw [entriesAt?] at hentries
  split at hentries
  · cases hentries
  · exact nodup_readEntries? hentries List.nodup_nil

theorem find?_eq_some (hn : (d.entries.map (·.name)).Nodup) (he : e ∈ d.entries) :
    d.entries.find? (fun f => f.name == e.name) = some e := by
  cases hf : d.entries.find? (fun f => f.name == e.name) with
  | none =>
    have := List.find?_eq_none.mp hf e he
    simp at this
  | some f =>
    have hname : f.name = e.name := by simpa using List.find?_some hf
    rw [List.inj_on_of_nodup_map hn (List.mem_of_find?_eq_some hf) he hname]

theorem slice_isInfix (b : Bytes) (offset n : Nat) : Bytes.slice b offset n <:+: b :=
  (List.take_prefix n _).isInfix.trans (List.drop_suffix offset b).isInfix

theorem packedData_eq_ok {packed : Bytes} (h : d.packedData e = .ok packed) :
    packed <:+: d.file := by
  rw [packedData] at h
  split at h
  · cases h
  · split at h
    · cases h
    · rename_i header rest hsplit
      obtain ⟨hfile, -⟩ := Bytes.split?_eq_some_iff.mp hsplit
      split at h
      · cases h
      · split at h
        · cases h
        · split at h
          · cases h
          · cases h
            have hrest : rest <:+ d.file :=
              (List.suffix_append header rest).trans (hfile ▸ List.drop_suffix _ _)
            exact (slice_isInfix rest _ _).trans hrest.isInfix

theorem openEntry_eq_ok (h : d.openEntry e = .ok opened) :
    ∃ packed, d.packedData e = .ok packed ∧ opened.name = e.name ∧
      (∀ name, opened.enclosedName = some name → name = e.name) ∧ opened.method = e.method ∧
      opened.checksum = e.checksum ∧ opened.packed = packed ∧
      opened.readToEnd () = e.contentOf packed := by
  obtain ⟨packed, hpacked, hopened⟩ := bind_eq_ok h
  cases hopened
  refine ⟨packed, hpacked, rfl, ?_, rfl, rfl, rfl, rfl⟩
  intro name hname
  split at hname
  · cases hname
    rfl
  · cases hname

end Directory

def inflate? (packed : Bytes) : Option Bytes := (inflate packed).toOption

theorem unpack_eq_ok_iff {method : Nat} {packed data : Bytes}
    (hm : method = stored ∨ method = deflated) :
    unpack method packed = .ok data ↔
      (if method = stored then some packed else inflate? packed) = some data := by
  rw [unpack, inflate?]
  by_cases hs : method = stored
  · rw [if_pos hs, if_pos hs, Except.ok.injEq, Option.some.injEq]
  · rw [if_neg hs, if_neg hs, if_pos (hm.resolve_left hs)]
    cases inflate packed with
    | ok out => simp [Except.toOption]
    | error stop => cases stop <;> simp [Except.toOption]

theorem contentOf_eq_ok_iff {e : DirectoryEntry} {packed data : Bytes} :
    e.contentOf packed = .ok data ↔
      unpack e.method packed = .ok data ∧ crc32 data = e.checksum := by
  rw [DirectoryEntry.contentOf]
  constructor
  · intro h
    obtain ⟨out, hout, hcheck⟩ := bind_eq_ok h
    split at hcheck
    · cases hcheck
      exact ⟨hout, ‹_›⟩
    · cases hcheck
  · rintro ⟨hout, hcheck⟩
    rw [hout]
    exact if_pos hcheck

theorem openArchive_eq_ok {file : Bytes} {a : Archive} (h : Library.openArchive file = .ok a) :
    ∃ d, Directory.ofBytes file = .ok d ∧ a = d.toArchive := by
  change (Directory.ofBytes file).map Directory.toArchive = .ok a at h
  cases hd : Directory.ofBytes file with
  | error fault =>
    rw [hd] at h
    cases h
  | ok d =>
    rw [hd] at h
    cases h
    exact ⟨d, rfl, rfl⟩

theorem byIndex_eq_ok {d : Directory} {index : Nat} {opened : Entry}
    (h : d.toArchive.byIndex index = .ok opened) : ∃ e ∈ d.entries, d.openEntry e = .ok opened := by
  change d.openFirst d.entries[index]? = .ok opened at h
  cases he : d.entries[index]? with
  | none =>
    rw [he] at h
    cases h
  | some e =>
    rw [he] at h
    exact ⟨e, List.mem_of_getElem? he, h⟩

theorem exists_of_isIn {file : Bytes} {opened : Entry} (h : opened.IsIn file) :
    ∃ d e, Directory.ofBytes file = .ok d ∧ d.openEntry e = .ok opened := by
  obtain ⟨a, index, ha, -, hi⟩ := h
  obtain ⟨d, hd, rfl⟩ := openArchive_eq_ok ha
  obtain ⟨e, -, he⟩ := byIndex_eq_ok hi
  exact ⟨d, e, hd, he⟩

theorem documented : Library.Documented inflate? crc32 where
  byName := by
    intro file a index opened ha hi
    obtain ⟨d, hd, rfl⟩ := openArchive_eq_ok ha
    obtain ⟨e, he, hopened⟩ := byIndex_eq_ok hi
    obtain ⟨-, -, hname, -⟩ := Directory.openEntry_eq_ok hopened
    obtain ⟨-, hn⟩ := Directory.nodup_of_ofBytes hd
    change d.openFirst (d.entries.find? (fun f => f.name == opened.name)) = .ok opened
    rw [hname, Directory.find?_eq_some hn he]
    exact hopened
  enclosedName := by
    intro file opened name h hname
    obtain ⟨d, e, -, hopened⟩ := exists_of_isIn h
    obtain ⟨-, -, hsame, henclosed, -⟩ := Directory.openEntry_eq_ok hopened
    rw [hsame]
    exact henclosed name hname
  packed := by
    intro file opened h
    obtain ⟨d, e, hd, hopened⟩ := exists_of_isIn h
    obtain ⟨packed, hpacked, -, -, -, -, rfl, -⟩ := Directory.openEntry_eq_ok hopened
    exact (Directory.nodup_of_ofBytes hd).1 ▸ Directory.packedData_eq_ok hpacked
  readToEnd := by
    intro file opened h hm data
    obtain ⟨d, e, -, hopened⟩ := exists_of_isIn h
    obtain ⟨packed, -, -, -, hmethod, hchecksum, rfl, hread⟩ := Directory.openEntry_eq_ok hopened
    rw [hread, contentOf_eq_ok_iff, unpack_eq_ok_iff (hmethod ▸ hm), Entry.unpacked?, hmethod,
      hchecksum]
    by_cases hs : e.method = stored
    · rw [if_pos hs, if_pos hs]
    · rw [if_neg hs, if_neg hs, if_pos ((hmethod ▸ hm).resolve_left hs)]

theorem length_le_of_inflate? {packed data : Bytes} (h : inflate? packed = some data) :
    data.length ≤ 1032 * packed.length := by
  rw [inflate?] at h
  cases hi : inflate packed with
  | error stop =>
    rw [hi] at h
    cases h
  | ok out =>
    rw [hi] at h
    cases h
    exact length_le_of_inflate hi

end Diskette.Zip.Reader
