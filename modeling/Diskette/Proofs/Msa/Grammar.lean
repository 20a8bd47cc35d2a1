import Diskette.Proofs.Msa.Tracks

/-!
# The grammar of MSA files

A file is a header within its bounds and a stored track for every track and side from the first to
the last, whatever follows them. A stored track is the track itself or fewer bytes of tokens that fill
it. The values of the types here are the files of the grammar; each has its bytes and the image that
it stands for. Reading accepts those bytes and no others, so a file that is cut short is refused.
-/

set_option autoImplicit false

namespace Diskette.Msa

/-! ## Tokens -/

/-- A byte that stands for itself, or a run of a value, which may be empty. -/
inductive Token where
  | literal (b : UInt8) (h : b ≠ marker)
  | run (value : UInt8) (count : UInt16)

def Token.bytes : Token → Bytes
  | literal b _ => [b]
  | run value count => marker :: value :: Bytes.toBE 2 count.toNat

def Token.expansion : Token → Bytes
  | literal b _ => [b]
  | run value count => List.replicate count.toNat value

def tokenBytes (ts : List Token) : Bytes := ts.flatMap Token.bytes

def expand (ts : List Token) : Bytes := ts.flatMap Token.expansion

theorem tokenBytes_cons (t : Token) (ts : List Token) :
    tokenBytes (t :: ts) = t.bytes ++ tokenBytes ts := rfl

theorem expand_cons (t : Token) (ts : List Token) : expand (t :: ts) = t.expansion ++ expand ts := rfl

theorem unpackOnto_token {size filled : Nat} (t : Token) (rest track : Bytes)
    (h : filled + t.expansion.length ≤ size) :
    unpackOnto size (t.bytes ++ rest) filled track =
      unpackOnto size rest (filled + t.expansion.length) (t.expansion.reverse ++ track) := by
  cases t with
  | literal b hb =>
    simp only [Token.expansion, List.length_singleton] at h
    have hf : ¬size ≤ filled := by omega
    rw [Token.bytes, List.singleton_append, unpackOnto.eq_def]
    dsimp only
    rw [if_neg hb, if_neg hf]
    rfl
  | run value count =>
    have hcount := Bytes.beNat_toBE 2 count.toNat count.toNat_lt
    obtain ⟨high, low, hb⟩ : ∃ high low, Bytes.toBE 2 count.toNat = [high, low] := ⟨_, _, rfl⟩
    simp only [Token.expansion, List.length_replicate] at h
    have hf : ¬size < filled + count.toNat := by omega
    rw [hb] at hcount
    rw [Token.bytes, hb, List.cons_append, unpackOnto.eq_def]
    dsimp only [List.cons_append, List.nil_append]
    rw [if_pos rfl, hcount, if_neg hf]
    simp [Token.expansion]

theorem unpackOnto_tokens {size : Nat} (ts : List Token) (filled : Nat) (track : Bytes)
    (h : filled + (expand ts).length ≤ size) :
    unpackOnto size (tokenBytes ts) filled track =
      unpackOnto size [] (filled + (expand ts).length) ((expand ts).reverse ++ track) := by
  induction ts generalizing filled track with
  | nil => rfl
  | cons t ts ih =>
    have hl : (expand (t :: ts)).length = t.expansion.length + (expand ts).length := by
      rw [expand_cons, List.length_append]
    rw [tokenBytes_cons, unpackOnto_token t _ _ (by omega), ih _ _ (by omega), hl, expand_cons,
      List.reverse_append, List.append_assoc, Nat.add_assoc]

theorem exists_tokens {size filled : Nat} {packed track result : Bytes}
    (h : unpackOnto size packed filled track = .ok result) :
    ∃ ts, packed = tokenBytes ts ∧ result = track.reverse ++ expand ts := by
  fun_induction unpackOnto size packed filled track with
  | case1 track =>
    cases h
    exact ⟨[], rfl, (List.append_nil _).symm⟩
  | case2 | case3 | case5 | case6 => cases h
  | case4 filled track value high low rest count hc ih =>
    obtain ⟨ts, rfl, rfl⟩ := ih h
    have hlt : count < 65536 := Bytes.beNat_lt [high, low]
    have hcount : (UInt16.ofNat count).toNat = count := UInt16.toNat_ofNat_of_lt' hlt
    have hbytes : Bytes.toBE 2 count = [high, low] := Bytes.toBE_beNat [high, low]
    refine ⟨.run value (.ofNat count) :: ts, ?_, ?_⟩
    · simp [tokenBytes_cons, Token.bytes, hcount, hbytes]
    · simp [expand_cons, Token.expansion, hcount]
  | case7 b rest filled track hb hs ih =>
    obtain ⟨ts, rfl, rfl⟩ := ih h
    refine ⟨.literal b hb :: ts, ?_, ?_⟩
    · simp [tokenBytes_cons, Token.bytes]
    · simp [expand_cons, Token.expansion]

theorem unpack_eq_ok_iff {size : Nat} {packed track : Bytes} :
    unpack size packed = .ok track ↔
      track.length = size ∧ ∃ ts, packed = tokenBytes ts ∧ track = expand ts := by
  constructor
  · intro h
    obtain ⟨ts, hp, ht⟩ := exists_tokens h
    exact ⟨length_unpack h, ts, hp, by simpa using ht⟩
  · rintro ⟨hl, ts, rfl, rfl⟩
    rw [unpack, unpackOnto_tokens ts 0 [] (by omega), Nat.zero_add, hl]
    simp [unpackOnto]

/-! ## Stored tracks -/

/-- A track as a file stores it: in full, or as tokens that take up less. -/
inductive StoredTrack (size : Nat) where
  | full (track : Bytes) (h : track.length = size)
  | packed (tokens : List Token) (short : (tokenBytes tokens).length < size)
      (h : (expand tokens).length = size)

namespace StoredTrack

variable {size : Nat}

def content : StoredTrack size → Bytes
  | full track _ => track
  | packed tokens _ _ => tokenBytes tokens

def track : StoredTrack size → Bytes
  | full track _ => track
  | packed tokens _ _ => expand tokens

def bytes (s : StoredTrack size) : Bytes := Bytes.toBE 2 s.content.length ++ s.content

theorem length_track (s : StoredTrack size) : s.track.length = size := by
  cases s <;> assumption

theorem length_of_mem_map (ss : List (StoredTrack size)) :
    ∀ t ∈ ss.map track, t.length = size := by
  intro t ht
  obtain ⟨s, -, rfl⟩ := List.mem_map.mp ht
  exact s.length_track

theorem length_content_le (s : StoredTrack size) : s.content.length ≤ size := by
  cases s with
  | full track h => exact Nat.le_of_eq h
  | packed tokens short h => exact Nat.le_of_lt short

theorem unpack_content (s : StoredTrack size) :
    (if s.content.length = size then .ok s.content else unpack size s.content) =
      (.ok s.track : Except Fault Bytes) := by
  cases s with
  | full track h => exact if_pos h
  | packed tokens short h =>
    have hu : unpack size (tokenBytes tokens) = .ok (expand tokens) :=
      unpack_eq_ok_iff.mpr ⟨h, tokens, rfl, rfl⟩
    exact (if_neg (Nat.ne_of_lt short)).trans hu

theorem exists_of_unpack {content track : Bytes} (hl : content.length ≤ size)
    (h : (if content.length = size then .ok content else unpack size content) =
      (.ok track : Except Fault Bytes)) :
    ∃ s : StoredTrack size, s.content = content ∧ s.track = track := by
  by_cases hc : content.length = size
  · rw [if_pos hc] at h
    cases h
    exact ⟨.full content hc, rfl, rfl⟩
  · rw [if_neg hc] at h
    obtain ⟨ht, tokens, rfl, rfl⟩ := unpack_eq_ok_iff.mp h
    exact ⟨.packed tokens (by omega) ht, rfl, rfl⟩

/-- A stored track ends where its length says. -/
theorem bytes_append_inj (hsize : size < 65536) {s t : StoredTrack size} {a b : Bytes}
    (h : s.bytes ++ a = t.bytes ++ b) : s.bytes = t.bytes ∧ a = b := by
  have hs : s.content.length < Bytes.limit 2 := Nat.lt_of_le_of_lt s.length_content_le hsize
  have ht : t.content.length < Bytes.limit 2 := Nat.lt_of_le_of_lt t.length_content_le hsize
  simp only [bytes, List.append_assoc] at h
  obtain ⟨hfield, hrest⟩ := List.append_inj h (by simp)
  have hl : s.content.length = t.content.length := by
    rw [← Bytes.beNat_toBE 2 _ hs, ← Bytes.beNat_toBE 2 _ ht, hfield]
  obtain ⟨hcontent, hab⟩ := List.append_inj hrest hl
  exact ⟨by rw [bytes, bytes, hcontent], hab⟩

theorem flatMap_bytes_inj (hsize : size < 65536) {ss ts : List (StoredTrack size)} {a b : Bytes}
    (hl : ss.length = ts.length) (h : ss.flatMap bytes ++ a = ts.flatMap bytes ++ b) :
    ss.flatMap bytes = ts.flatMap bytes ∧ a = b := by
  induction ss generalizing ts with
  | nil =>
    rw [List.length_eq_zero_iff.mp hl.symm] at h ⊢
    exact ⟨rfl, h⟩
  | cons s ss ih =>
    cases ts with
    | nil => cases hl
    | cons t ts =>
      simp only [List.flatMap_cons, List.append_assoc] at h ⊢
      obtain ⟨hs, hrest⟩ := bytes_append_inj hsize h
      obtain ⟨hss, hab⟩ := ih (Nat.succ.inj hl) hrest
      exact ⟨by rw [hs, hss], hab⟩

end StoredTrack

theorem loadTracks_cons_eq_ok_iff {size : Nat} (hsize : size < 65536) {place : Nat × Nat}
    {more : List (Nat × Nat)} {file : Bytes} {tracks : List Bytes} :
    loadTracks size (place :: more) file = .ok tracks ↔
      ∃ (s : StoredTrack size) (rest : Bytes) (others : List Bytes), file = s.bytes ++ rest ∧
        loadTracks size more rest = .ok others ∧ tracks = s.track :: others := by
  constructor
  · intro h
    rw [loadTracks_cons] at h
    split at h
    · cases h
    · rename_i field behind hfield
      obtain ⟨rfl, hf⟩ := Bytes.split?_eq_some_iff.mp hfield
      split at h
      · cases h
      · rename_i hle
        split at h
        · cases h
        · rename_i content rest hcontent
          obtain ⟨rfl, hc⟩ := Bytes.split?_eq_some_iff.mp hcontent
          rw [← hc] at h hle
          obtain ⟨first, hfirst, h⟩ := bind_eq_ok h
          obtain ⟨others, hothers, h⟩ := bind_eq_ok h
          cases h
          obtain ⟨s, rfl, rfl⟩ := StoredTrack.exists_of_unpack (Nat.le_of_not_lt hle) hfirst
          refine ⟨s, rest, others, ?_, hothers, rfl⟩
          rw [StoredTrack.bytes, hc, ← hf, Bytes.toBE_beNat, List.append_assoc]
  · rintro ⟨s, rest, others, rfl, hothers, rfl⟩
    have hlim : s.content.length < Bytes.limit 2 := Nat.lt_of_le_of_lt s.length_content_le hsize
    have hle : ¬size < s.content.length := Nat.not_lt_of_le s.length_content_le
    have hfield := Bytes.split?_append (Bytes.toBE 2 s.content.length) (s.content ++ rest)
    have hcontent := Bytes.split?_append s.content rest
    rw [Bytes.length_toBE] at hfield
    rw [StoredTrack.bytes, List.append_assoc, loadTracks_cons]
    simp only [hfield, Bytes.beNat_toBE 2 _ hlim, if_neg hle, hcontent]
    rw [s.unpack_content, hothers]
    rfl

theorem loadTracks_eq_ok_iff {size : Nat} (hsize : size < 65536) {places : List (Nat × Nat)}
    {file : Bytes} {tracks : List Bytes} :
    loadTracks size places file = .ok tracks ↔
      ∃ (ss : List (StoredTrack size)) (rest : Bytes), ss.length = places.length ∧
        file = ss.flatMap StoredTrack.bytes ++ rest ∧ tracks = ss.map StoredTrack.track := by
  induction places generalizing file tracks with
  | nil =>
    constructor
    · intro h
      cases h
      exact ⟨[], file, rfl, rfl, rfl⟩
    · rintro ⟨ss, rest, hl, -, rfl⟩
      rw [List.length_eq_zero_iff.mp hl]
      rfl
  | cons place more ih =>
    rw [loadTracks_cons_eq_ok_iff hsize]
    constructor
    · rintro ⟨s, rest, others, rfl, hothers, rfl⟩
      obtain ⟨ss, rest, hl, rfl, rfl⟩ := ih.mp hothers
      exact ⟨s :: ss, rest, congrArg (· + 1) hl, by simp, rfl⟩
    · rintro ⟨ss, rest, hl, rfl, rfl⟩
      cases ss with
      | nil => cases hl
      | cons s ss =>
        refine ⟨s, ss.flatMap StoredTrack.bytes ++ rest, ss.map StoredTrack.track, by simp, ?_, rfl⟩
        exact ih.mpr ⟨ss, rest, Nat.succ.inj hl, rfl, rfl⟩

/-! ## Headers -/

theorem Header.Valid.length_stored_eq {h : Header} (hv : h.Valid) : h.stored.length =
    (h.endTrack.toNat - h.startTrack.toNat + 1) * (h.lastSide.toNat + 1) := by
  have hle := hv.startTrack_le
  rw [length_stored, hv.toNat_sides, Nat.sub_add_comm hle]

theorem Header.bytes_ofBytes {front : Bytes} (hl : front.length = headerSize) :
    (Header.ofBytes front).bytes = front := by
  have hword (high low : UInt8) :
      Bytes.toBE 2 (UInt16.ofNat (Bytes.beNat [high, low])).toNat = [high, low] := by
    rw [UInt16.toNat_ofNat_of_lt' (Bytes.beNat_lt [high, low])]
    exact Bytes.toBE_beNat [high, low]
  match front, hl with
  | [a, b, c, d, e, f, g, i, j, k], _ =>
    change Bytes.toBE 2 (UInt16.ofNat (Bytes.beNat [a, b])).toNat ++
      (Bytes.toBE 2 (UInt16.ofNat (Bytes.beNat [c, d])).toNat ++
      (Bytes.toBE 2 (UInt16.ofNat (Bytes.beNat [e, f])).toNat ++
      (Bytes.toBE 2 (UInt16.ofNat (Bytes.beNat [g, i])).toNat ++
      (Bytes.toBE 2 (UInt16.ofNat (Bytes.beNat [j, k])).toNat ++ [])))) = _
    simp only [hword]
    rfl

/-! ## Files -/

structure File where
  header : Header
  valid : header.Valid
  trackSize : Nat
  trackSize_eq : trackSize = header.trackSize
  stored : List (StoredTrack trackSize)
  length_stored : stored.length =
    (header.endTrack.toNat - header.startTrack.toNat + 1) * (header.lastSide.toNat + 1)

namespace File

def bytes (m : File) : Bytes := m.header.bytes ++ m.stored.flatMap StoredTrack.bytes

def sides (m : File) : Nat := m.header.lastSide.toNat + 1

def image (m : File) : SectorImage where
  data := List.replicate (m.header.startTrack.toNat * m.sides * m.trackSize) 0 ++
    m.stored.flatMap StoredTrack.track
  layout := ⟨m.header.lastSide + 1, m.header.sectorsPerTrack⟩

theorem length_data (m : File) :
    m.image.data.length = (m.header.endTrack.toNat + 1) * m.sides * m.trackSize := by
  have hcount : m.header.startTrack.toNat + (m.header.endTrack.toNat - m.header.startTrack.toNat + 1)
      = m.header.endTrack.toNat + 1 := by
    have hle := m.valid.startTrack_le
    omega
  have hstored : (m.stored.flatMap StoredTrack.track).length = m.stored.length * m.trackSize := by
    rw [List.flatMap_def, length_flatten (StoredTrack.length_of_mem_map m.stored), List.length_map]
  rw [image, List.length_append, List.length_replicate, hstored, m.length_stored, ← hcount, sides,
    ← Nat.add_mul, ← Nat.add_mul]

theorem bytes_append_inj {m n : File} {a b : Bytes} (h : m.bytes ++ a = n.bytes ++ b) :
    m.bytes = n.bytes ∧ a = b := by
  obtain ⟨header, valid, size, rfl, stored, hl⟩ := m
  obtain ⟨header', valid', size', rfl, stored', hl'⟩ := n
  simp only [bytes, List.append_assoc] at h ⊢
  obtain ⟨hheader, hrest⟩ := List.append_inj h (by rw [Header.length_bytes, Header.length_bytes])
  have he : header = header' := by
    rw [← Header.ofBytes_bytes header, hheader, Header.ofBytes_bytes]
  subst he
  obtain ⟨hstored, hab⟩ :=
    StoredTrack.flatMap_bytes_inj valid.trackSize_lt (hl.trans hl'.symm) hrest
  exact ⟨by rw [hstored], hab⟩

end File

theorem load_file {m : File} {rest : Bytes} (hm : (m.bytes ++ rest).length ≤ maxImageSize) :
    load (m.bytes ++ rest) = .ok m.image := by
  obtain ⟨header, valid, size, rfl, stored, hl⟩ := m
  have hsplit := Bytes.split?_append header.bytes (stored.flatMap StoredTrack.bytes ++ rest)
  have htracks := (loadTracks_eq_ok_iff valid.trackSize_lt).mpr
    ⟨stored, rest, hl.trans valid.length_stored_eq.symm, rfl, rfl⟩
  rw [Header.length_bytes] at hsplit
  rw [load, if_neg (Nat.not_lt_of_le hm), File.bytes, List.append_assoc, hsplit]
  dsimp only
  rw [Header.ofBytes_bytes, (Header.isValid_iff _).mpr valid, if_neg (by decide), htracks,
    valid.toNat_sides]
  change Except.ok _ = _
  rw [← List.flatMap_def]
  rfl

theorem exists_file_of_load {file : Bytes} {i : SectorImage} (h : load file = .ok i) :
    file.length ≤ maxImageSize ∧
      ∃ (m : File) (rest : Bytes), file = m.bytes ++ rest ∧ i = m.image := by
  unfold load at h
  split at h
  · cases h
  · rename_i hm
    split at h
    · cases h
    · rename_i front behind hsplit
      obtain ⟨rfl, hl⟩ := Bytes.split?_eq_some_iff.mp hsplit
      have hfront := Header.bytes_ofBytes hl
      dsimp only at h
      generalize Header.ofBytes front = header at h hfront
      split at h
      · cases h
      · rename_i hv
        have valid := (Header.isValid_iff header).mp (by simpa using hv)
        obtain ⟨tracks, htracks, h⟩ := bind_eq_ok h
        cases h
        obtain ⟨ss, rest, hlength, rfl, rfl⟩ :=
          (loadTracks_eq_ok_iff valid.trackSize_lt).mp htracks
        refine ⟨Nat.le_of_not_lt hm,
          ⟨header, valid, _, rfl, ss, hlength.trans valid.length_stored_eq⟩, rest, ?_, ?_⟩
        · rw [File.bytes, hfront, List.append_assoc]
        · rw [valid.toNat_sides, ← List.flatMap_def]
          rfl

/-! ## Refusals -/

theorem decode_of_unpackOnto {size filled : Nat} {packed track : Bytes} {fault : Fault}
    (h : unpackOnto size packed filled track = .error fault) : ∃ cause, fault = .decode cause := by
  fun_induction unpackOnto size packed filled track with
  | case1 => cases h
  | case2 | case3 | case5 | case6 =>
    cases h
    exact ⟨_, rfl⟩
  | case4 filled track value high low rest count hc ih => exact ih h
  | case7 b rest filled track hb hs ih => exact ih h

theorem decode_of_loadTracks {size : Nat} {places : List (Nat × Nat)} {file : Bytes} {fault : Fault}
    (h : loadTracks size places file = .error fault) : ∃ cause, fault = .decode cause := by
  induction places generalizing file with
  | nil => cases h
  | cons place more ih =>
    rw [loadTracks_cons] at h
    split at h
    · cases h
      exact ⟨_, rfl⟩
    · split at h
      · cases h
        exact ⟨_, rfl⟩
      · split at h
        · cases h
          exact ⟨_, rfl⟩
        · rcases bind_eq_error h with h | ⟨first, -, h⟩
          · split at h
            · cases h
            · exact decode_of_unpackOnto h
          · rcases bind_eq_error h with h | ⟨others, -, h⟩
            · exact ih h
            · cases h

theorem decode_of_load {file : Bytes} {fault : Fault} (h : load file = .error fault) :
    ∃ cause, fault = .decode cause := by
  unfold load at h
  split at h
  · cases h
    exact ⟨_, rfl⟩
  · split at h
    · cases h
      exact ⟨_, rfl⟩
    · dsimp only at h
      split at h
      · cases h
        exact ⟨_, rfl⟩
      · rcases bind_eq_error h with h | ⟨tracks, -, h⟩
        · exact decode_of_loadTracks h
        · cases h

theorem load_of_not_ok {file : Bytes} (h : ∀ i, load file ≠ .ok i) :
    ∃ cause, load file = .error (.decode cause) := by
  cases hl : load file with
  | ok i => exact absurd hl (h i)
  | error fault =>
    obtain ⟨cause, rfl⟩ := decode_of_load hl
    exact ⟨cause, rfl⟩

/-- Reading gives an image just for the files of the grammar that are not too large, whatever
follows them, and it is the image they stand for, of all tracks up to the last. Anything else is
refused as undecodable, and so is a file that ends before its last stored track does. -/
theorem load_eq_ok_iff_file (file : Bytes) :
    (∀ i, load file = .ok i ↔ file.length ≤ maxImageSize ∧
      ∃ (m : File) (rest : Bytes), file = m.bytes ++ rest ∧ i = m.image) ∧
    ((∀ i, load file ≠ .ok i) → ∃ cause, load file = .error (.decode cause)) ∧
    ∀ m : File, m.image.data.length = (m.header.endTrack.toNat + 1) * m.sides * m.trackSize ∧
      (file <+: m.bytes → file ≠ m.bytes → ∃ cause, load file = .error (.decode cause)) := by
  refine ⟨?_, load_of_not_ok, ?_⟩
  · intro i
    constructor
    · exact exists_file_of_load
    · rintro ⟨hm, m, rest, rfl, rfl⟩
      exact load_file hm
  · intro m
    refine ⟨m.length_data, ?_⟩
    rintro ⟨missing, hmissing⟩ hne
    apply load_of_not_ok
    intro i hi
    obtain ⟨-, n, rest, rfl, -⟩ := exists_file_of_load hi
    -- The file that is read is all of `m` already, so nothing is missing.
    have hsame : n.bytes ++ (rest ++ missing) = m.bytes ++ [] := by
      rw [← List.append_assoc, hmissing, List.append_nil]
    obtain ⟨-, hnil⟩ := File.bytes_append_inj hsame
    rw [List.append_eq_nil_iff] at hnil
    rw [hnil.2, List.append_nil] at hmissing
    exact hne hmissing

/-- An empty run before a full one, and bytes behind the last track. -/
example : load ([0x0E, 0x0F, 0, 1, 0, 0, 0, 1, 0, 1] ++ [0, 8] ++ [0xE5, 9, 0, 0] ++
    [0xE5, 7, 2, 0] ++ [1, 2, 3]) =
    .ok { data := List.replicate 512 0 ++ List.replicate 512 7, layout := ⟨1, 1⟩ } :=
  eq_ok_of_toOption (by decide +kernel)

end Diskette.Msa
