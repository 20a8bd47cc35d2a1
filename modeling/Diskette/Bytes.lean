/-!
# Byte strings and fixed-width numbers

Everything on a disk is a list of bytes. Numbers of a fixed width are written with the most
significant byte first (`toBE`, `beNat`) or last (`toLE`, `leNat`); writing and reading undo each
other as long as the number fits its width.
-/

set_option autoImplicit false

namespace Diskette

abbrev Bytes := List UInt8

/-- A sector holds this many bytes, whatever a boot sector claims. -/
def sectorSize : Nat := 512

/-- A longer image is refused. -/
def maxImageSize : Nat := 100000000

namespace Bytes

def beNat (b : Bytes) : Nat := b.foldl (fun n x => 256 * n + x.toNat) 0

def leNat (b : Bytes) : Nat := b.foldr (fun x n => 256 * n + x.toNat) 0

def toLE : (width n : Nat) → Bytes
  | 0, _ => []
  | w + 1, n => UInt8.ofNat n :: toLE w (n / 256)

def toBE (width n : Nat) : Bytes := (toLE width n).reverse

/-- The least number that needs more than `width` digits to base 256. -/
def limit : (width : Nat) → Nat
  | 0 => 1
  | w + 1 => 256 * limit w

def split? (n : Nat) (b : Bytes) : Option (Bytes × Bytes) :=
  let front := b.take n
  if front.length = n then some (front, b.drop n) else none

abbrev Reader (ε : Type) := StateT Bytes (Except ε)

def next {ε : Type} (short : ε) (n : Nat) : Reader ε Bytes := fun b =>
  match split? n b with
  | some r => .ok r
  | none => .error short

def slice (b : Bytes) (offset n : Nat) : Bytes := (b.drop offset).take n

def overwrite (b : Bytes) (offset : Nat) (data : Bytes) : Bytes :=
  b.take offset ++ (data ++ b.drop (offset + data.length))

def pieces (size : Nat) : (count : Nat) → Bytes → List Bytes
  | 0, _ => []
  | k + 1, b => b.take size :: pieces size k (b.drop size)

@[simp]
theorem length_toLE (w n : Nat) : (toLE w n).length = w := by
  induction w generalizing n with
  | zero => rfl
  | succ w ih => simp [toLE, ih]

@[simp]
theorem length_toBE (w n : Nat) : (toBE w n).length = w := by
  simp [toBE]

theorem beNat_reverse (b : Bytes) : beNat b.reverse = leNat b := by
  simp [beNat, leNat, List.foldl_reverse]

theorem leNat_toLE (w n : Nat) (h : n < limit w) : leNat (toLE w n) = n := by
  induction w generalizing n with
  | zero => simp only [limit, Nat.lt_one_iff] at h; subst h; rfl
  | succ w ih =>
    simp only [limit] at h
    have := ih (n / 256) (by omega)
    simp only [leNat, toLE, List.foldr_cons, UInt8.toNat_ofNat'] at this ⊢
    rw [this]; omega

theorem beNat_toBE (w n : Nat) (h : n < limit w) : beNat (toBE w n) = n := by
  rw [toBE, beNat_reverse, leNat_toLE w n h]

theorem leNat_lt (b : Bytes) : leNat b < limit b.length := by
  induction b with
  | nil => decide
  | cons x b ih =>
    have hx := x.toNat_lt
    simp only [leNat, List.foldr_cons, List.length_cons, limit] at ih ⊢
    omega

theorem toLE_leNat (b : Bytes) : toLE b.length (leNat b) = b := by
  induction b with
  | nil => rfl
  | cons x b ih =>
    have hx := x.toNat_lt
    have hcons : leNat (x :: b) = 256 * leNat b + x.toNat := rfl
    have hdiv : (256 * leNat b + x.toNat) / 256 = leNat b := by omega
    have hlow : UInt8.ofNat (256 * leNat b + x.toNat) = x := by
      apply UInt8.toNat_inj.mp
      rw [UInt8.toNat_ofNat']
      omega
    rw [List.length_cons, toLE, hcons, hdiv, hlow, ih]

theorem beNat_lt (b : Bytes) : beNat b < limit b.length := by
  have h := leNat_lt b.reverse
  rwa [← beNat_reverse, List.reverse_reverse, List.length_reverse] at h

theorem toBE_beNat (b : Bytes) : toBE b.length (beNat b) = b := by
  have h := toLE_leNat b.reverse
  rw [← beNat_reverse, List.reverse_reverse, List.length_reverse] at h
  rw [toBE, h, List.reverse_reverse]

theorem split?_append (a b : Bytes) : split? a.length (a ++ b) = some (a, b) := by
  simp [split?]

theorem split?_eq_some_iff {n : Nat} {b front rest : Bytes} :
    split? n b = some (front, rest) ↔ b = front ++ rest ∧ front.length = n := by
  constructor
  · intro h
    simp only [split?] at h
    split at h
    · rename_i hl
      simp only [Option.some.injEq, Prod.mk.injEq] at h
      obtain ⟨rfl, rfl⟩ := h
      exact ⟨(List.take_append_drop n b).symm, hl⟩
    · exact absurd h (by simp)
  · rintro ⟨rfl, rfl⟩
    exact split?_append front rest

theorem length_overwrite (b data : Bytes) (offset : Nat) (h : offset + data.length ≤ b.length) :
    (overwrite b offset data).length = b.length := by
  simp only [overwrite, List.length_append, List.length_take, List.length_drop]
  omega

end Bytes

end Diskette
