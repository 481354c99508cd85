import Mathlib.Data.Nat.Log
import Mathlib.Algebra.Order.Ring.Nat
import Mathlib.Tactic.Ring

/-!
# Octet strings and fixed-length integers

Octet strings are lists of `UInt8`. This module owns the reading and the writing of
integers in them: big-endian numbers of any length, the little-endian and big-endian
fields of network headers, and the lexicographic comparison `memcmp` makes of two buffers.

* `beNat` reads an octet string as a big-endian number, `natBe` writes one of a given
  length; `beNat_natBe` and `natBe_length` are the two facts a codec needs of them;
* `numBytes` is the length of the shortest big-endian encoding;
* `memcmp` compares octet by octet from the front.
-/

namespace Octets

open List

/-- An octet string. -/
abbrev Bytes := List UInt8

/-- The big-endian value of an octet string, continued from `acc`. -/
def beNatFrom (acc : Nat) : Bytes → Nat
  | [] => acc
  | b :: bs => beNatFrom (acc * 256 + b.toNat) bs

/-- The big-endian value of an octet string. -/
def beNat (bs : Bytes) : Nat := beNatFrom 0 bs

/-- The low `len` octets of `n`, most significant octet first. -/
def natBe : Nat → Nat → Bytes
  | 0, _ => []
  | len + 1, n => natBe len (n / 256) ++ [UInt8.ofNat n]

/-- Number of significant bits; zero has none. -/
def numBits (n : Nat) : Nat := if n = 0 then 0 else Nat.log2 n + 1

/-- Length of the shortest big-endian encoding of `n`; zero takes no octet. -/
def numBytes (n : Nat) : Nat := (numBits n + 7) / 8

/-- A 16-bit field, least significant octet first. -/
def le16 (n : Nat) : Bytes := [UInt8.ofNat n, UInt8.ofNat (n / 256)]

/-- Reads a 16-bit little-endian field at the front; octets past the end read as zero. -/
def getLe16 (bs : Bytes) : Nat := (bs.getD 0 0).toNat + 256 * (bs.getD 1 0).toNat

/-- Reads a 16-bit big-endian field at the front; octets past the end read as zero. -/
def getBe16 (bs : Bytes) : Nat := 256 * (bs.getD 0 0).toNat + (bs.getD 1 0).toNat

/-- `len` octets from offset `off`. -/
def slice (bs : Bytes) (off len : Nat) : Bytes := (bs.drop off).take len

/-- The octets from offset `off` on are written over. -/
def overwrite (off : Nat) (data bs : Bytes) : Bytes :=
  bs.take off ++ data ++ bs.drop (off + data.length)

/-- `len` octets from offset `src` are copied to offset `dst`; the two parts may overlap. -/
def move (dst src len : Nat) (bs : Bytes) : Bytes := overwrite dst (slice bs src len) bs

/-- Octet-wise lexicographic comparison of two buffers of one length. -/
def memcmp : Bytes → Bytes → Ordering
  | a :: as, b :: bs => if a < b then .lt else if b < a then .gt else memcmp as bs
  | _, _ => .eq

/-- An all-zero block. -/
def zeros (n : Nat) : Bytes := List.replicate n 0

@[simp] theorem natBe_length (len n : Nat) : (natBe len n).length = len := by
  induction len generalizing n with
  | zero => rfl
  | succ len ih => simp [natBe, ih]

@[simp] theorem zeros_length (n : Nat) : (zeros n).length = n := by
  simp [zeros]

@[simp] theorem le16_length (n : Nat) : (le16 n).length = 2 := rfl

theorem slice_length {bs : Bytes} {off len : Nat} (h : off + len ≤ bs.length) :
    (slice bs off len).length = len := by
  simp only [slice, length_take, length_drop]
  omega

/-! ## Values -/

theorem slice_middle {a b c : Bytes} {off len : Nat} (ha : a.length = off) (hb : b.length = len) :
    slice (a ++ (b ++ c)) off len = b := by
  unfold slice
  rw [← ha, ← hb, drop_left, take_left]

theorem overwrite_middle {a b c data : Bytes} {off : Nat} (ha : a.length = off)
    (hb : b.length = data.length) : overwrite off data (a ++ (b ++ c)) = a ++ (data ++ c) := by
  unfold overwrite
  rw [← ha, ← hb, take_left, ← drop_drop, drop_left, drop_left, append_assoc]

/-- Room is made in the middle of a buffer that is large enough, and filled. -/
theorem overwrite_move {a b c data : Bytes} {off len : Nat} (ha : a.length = off) (hb : b.length = len)
    (hc : data.length ≤ c.length) :
    overwrite off data (move (off + data.length) off len (a ++ (b ++ c))) =
      a ++ (data ++ (b ++ c.drop data.length)) := by
  have hmoved : move (off + data.length) off len (a ++ (b ++ c)) =
      a ++ ((b ++ c).take data.length ++ (b ++ c.drop data.length)) := by
    unfold move overwrite
    rw [slice_middle ha hb, ← ha, take_length_add_append, append_assoc, append_assoc,
      show a.length + data.length + b.length = a.length + (b.length + data.length) by omega,
      drop_length_add_append, drop_length_add_append]
  have hgap : ((b ++ c).take data.length).length = data.length := by
    rw [length_take, length_append]
    omega
  rw [hmoved, overwrite_middle ha hgap]

/-- A part in the middle of a buffer is written over by the one behind it. The octets in between are those
at the end of the two parts. -/
theorem move_back {a b c d : Bytes} {dst src len : Nat} (ha : a.length = dst) (hb : dst + b.length = src)
    (hc : c.length = len) :
    move dst src len (a ++ (b ++ (c ++ d))) = a ++ (c ++ ((b ++ c).drop c.length ++ d)) := by
  have hslice : slice (a ++ (b ++ (c ++ d))) src len = c := by
    rw [← append_assoc]
    exact slice_middle (by rw [length_append, ha, hb]) hc
  have hsplit : b ++ (c ++ d) = (b ++ c).take c.length ++ ((b ++ c).drop c.length ++ d) := by
    rw [← append_assoc, ← append_assoc, take_append_drop]
  have hlen : ((b ++ c).take c.length).length = c.length := by
    rw [length_take, length_append]
    omega
  unfold move
  rw [hslice, hsplit, overwrite_middle ha hlen]

theorem beNatFrom_append (acc : Nat) (as bs : Bytes) :
    beNatFrom acc (as ++ bs) = beNatFrom (beNatFrom acc as) bs := by
  induction as generalizing acc with
  | nil => rfl
  | cons a as ih => exact ih _

/-- What stands before an octet string counts by its length. -/
theorem beNatFrom_eq (acc : Nat) (bs : Bytes) :
    beNatFrom acc bs = acc * 256 ^ bs.length + beNat bs := by
  induction bs generalizing acc with
  | nil => simp [beNatFrom, beNat]
  | cons b bs ih =>
    have hhead : beNat (b :: bs) = b.toNat * 256 ^ bs.length + beNat bs := by
      show beNatFrom (0 * 256 + b.toNat) bs = _
      rw [ih, Nat.zero_mul, Nat.zero_add]
    show beNatFrom (acc * 256 + b.toNat) bs = _
    rw [ih, hhead, length_cons, pow_succ]
    ring

theorem beNat_cons (b : UInt8) (bs : Bytes) :
    beNat (b :: bs) = b.toNat * 256 ^ bs.length + beNat bs := by
  show beNatFrom (0 * 256 + b.toNat) bs = _
  rw [beNatFrom_eq, Nat.zero_mul, Nat.zero_add]

theorem beNat_lt (bs : Bytes) : beNat bs < 256 ^ bs.length := by
  induction bs with
  | nil => simp [beNat, beNatFrom]
  | cons b bs ih =>
    have hb : b.toNat + 1 ≤ 256 := b.toNat_lt
    have hmul := Nat.mul_le_mul_right (256 ^ bs.length) hb
    rw [beNat_cons, length_cons, pow_succ]
    rw [Nat.add_mul] at hmul
    omega

@[simp] theorem beNat_zeros_append (k : Nat) (bs : Bytes) : beNat (zeros k ++ bs) = beNat bs := by
  induction k with
  | zero => rfl
  | succ k ih =>
    have hcons : zeros (k + 1) ++ bs = 0 :: (zeros k ++ bs) := rfl
    rw [hcons, beNat_cons, ih]
    simp

theorem beNat_natBe {len n : Nat} (h : n < 256 ^ len) : beNat (natBe len n) = n := by
  induction len generalizing n with
  | zero =>
    have hn : n = 0 := by simpa using h
    rw [hn]
    rfl
  | succ len ih =>
    have hdiv : n / 256 < 256 ^ len := by
      rw [pow_succ] at h
      exact Nat.div_lt_of_lt_mul (by rwa [Nat.mul_comm])
    have hhigh := ih hdiv
    unfold beNat at hhigh ⊢
    rw [natBe, beNatFrom_append, hhigh]
    show n / 256 * 256 + (UInt8.ofNat n).toNat = n
    rw [UInt8.toNat_ofNat']
    omega

theorem natBe_beNat {len : Nat} {bs : Bytes} (hlen : bs.length = len) : natBe len (beNat bs) = bs := by
  induction len generalizing bs with
  | zero => exact (eq_nil_of_length_eq_zero hlen).symm
  | succ len ih =>
    obtain ⟨front, b, rfl⟩ : ∃ front b, bs = front ++ [b] := by
      rcases eq_nil_or_concat bs with rfl | ⟨front, b, h⟩
      · cases hlen
      · exact ⟨front, b, h.trans concat_eq_append⟩
    have hvalue : beNat (front ++ [b]) = beNat front * 256 + b.toNat := by
      unfold beNat
      rw [beNatFrom_append]
      rfl
    have hb := b.toNat_lt
    have hlow : UInt8.ofNat (beNat front * 256 + b.toNat) = b := by
      apply UInt8.toNat_inj.mp
      rw [UInt8.toNat_ofNat']
      omega
    have hhigh : (beNat front * 256 + b.toNat) / 256 = beNat front := by omega
    have hfront : front.length = len := by
      rw [length_append, length_singleton] at hlen
      omega
    rw [hvalue, natBe, hlow, hhigh, ih hfront]

theorem getBe16_natBe {n : Nat} (h : n ≤ 0xffff) (rest : Bytes) : getBe16 (natBe 2 n ++ rest) = n := by
  have hvalue : natBe 2 n = [UInt8.ofNat (n / 256), UInt8.ofNat n] := rfl
  rw [hvalue]
  simp only [getBe16, cons_append, getD_cons_zero, getD_cons_succ,
    UInt8.toNat_ofNat']
  omega

/-- A number fits into the length of its shortest encoding. -/
theorem lt_pow_numBytes (n : Nat) : n < 256 ^ numBytes n := by
  have hbits : n < 2 ^ numBits n := by
    unfold numBits
    split
    · rename_i h
      rw [h]
      decide
    · exact Nat.lt_log2_self
  have hle : numBits n ≤ 8 * numBytes n := by
    unfold numBytes
    omega
  calc n < 2 ^ numBits n := hbits
    _ ≤ 2 ^ (8 * numBytes n) := Nat.pow_le_pow_right (by decide) hle
    _ = 256 ^ numBytes n := by rw [pow_mul]; rfl

/-- The shortest encoding is no longer than any other one. -/
theorem numBytes_le {n len : Nat} (h : n < 256 ^ len) : numBytes n ≤ len := by
  unfold numBytes numBits
  split
  · omega
  · rename_i hn
    have hlog : Nat.log2 n < 8 * len := by
      rw [Nat.log2_lt hn, pow_mul]
      exact h
    omega

theorem numBytes_mono {m n : Nat} (h : m ≤ n) : numBytes m ≤ numBytes n :=
  numBytes_le (h.trans_lt (lt_pow_numBytes n))

/-- A number that is not zero takes its length: it does not fit into less. -/
theorem pow_lt_numBytes {n len : Nat} (h : len < numBytes n) : 256 ^ len ≤ n := by
  by_contra hlt
  have hle := numBytes_le (Nat.lt_of_not_le hlt)
  omega

/-- A number in more octets than it takes has zeros in front. -/
theorem natBe_eq_append {n k len : Nat} (hn : n < 256 ^ k) (hk : k ≤ len) :
    natBe len n = zeros (len - k) ++ natBe k n := by
  have hlen : (zeros (len - k) ++ natBe k n).length = len := by
    rw [length_append, zeros_length, natBe_length]
    omega
  have hvalue : beNat (zeros (len - k) ++ natBe k n) = n := by
    rw [beNat_zeros_append, beNat_natBe hn]
  rw [← natBe_beNat hlen, hvalue]

/-! ## Comparison -/

/-- Between buffers of one length `memcmp` orders by value. -/
theorem beNat_lt_of_memcmp {a b : Bytes} (hlen : a.length = b.length) (h : memcmp a b = .lt) :
    beNat a < beNat b := by
  induction a generalizing b with
  | nil => cases b <;> cases h
  | cons x xs ih =>
    cases b with
    | nil => cases h
    | cons y ys =>
      have htl : xs.length = ys.length := by simpa using hlen
      have hx := beNat_lt xs
      simp only [memcmp] at h
      rw [beNat_cons, beNat_cons, htl]
      rw [htl] at hx
      split at h
      · rename_i hxy
        -- the first octet decides, the rest is worth less than one in it
        have hle : x.toNat + 1 ≤ y.toNat := UInt8.lt_iff_toNat_lt.1 hxy
        have hmul := Nat.mul_le_mul_right (256 ^ ys.length) hle
        rw [Nat.add_mul] at hmul
        omega
      · rename_i hxy
        split at h
        · cases h
        · rename_i hyx
          have hval : x = y := by
            rw [UInt8.lt_iff_toNat_lt] at hxy hyx
            exact UInt8.toNat_inj.1 (by omega)
          have := ih htl h
          rw [hval]
          omega

theorem memcmp_swap (a b : Bytes) : memcmp b a = (memcmp a b).swap := by
  induction a generalizing b with
  | nil => cases b <;> rfl
  | cons x xs ih =>
    cases b with
    | nil => rfl
    | cons y ys =>
      simp only [memcmp]
      by_cases hxy : x < y
      · have hyx : ¬ y < x := by
          rw [UInt8.lt_iff_toNat_lt] at *
          omega
        simp [hxy, hyx]
      · by_cases hyx : y < x
        · simp [hxy, hyx]
        · simp [hxy, hyx, ih]

/-- Two buffers of one length compare equal only when they are equal. -/
theorem eq_of_memcmp_eq {a b : Bytes} (hlen : a.length = b.length)
    (h : memcmp a b = .eq) : a = b := by
  induction a generalizing b with
  | nil =>
    cases b with
    | nil => rfl
    | cons y ys => simp at hlen
  | cons x xs ih =>
    cases b with
    | nil => simp at hlen
    | cons y ys =>
      simp only [memcmp] at h
      split at h
      · cases h
      · rename_i hxy
        split at h
        · cases h
        · rename_i hyx
          have hval : x = y := by
            rw [UInt8.lt_iff_toNat_lt] at hxy hyx
            exact UInt8.toNat_inj.1 (by omega)
          have htl : xs.length = ys.length := by simpa using hlen
          rw [hval, ih htl h]

theorem memcmp_of_beNat_lt {a b : Bytes} (hlen : a.length = b.length) (h : beNat a < beNat b) :
    memcmp a b = .lt := by
  cases hcmp : memcmp a b with
  | lt => rfl
  | eq =>
    rw [eq_of_memcmp_eq hlen hcmp] at h
    exact absurd h (Nat.lt_irrefl _)
  | gt =>
    have hswap : memcmp b a = .lt := by
      rw [memcmp_swap a b, hcmp]
      rfl
    have hlt := beNat_lt_of_memcmp hlen.symm hswap
    omega

/-- Between buffers of one length `memcmp` orders by value, both ways. -/
theorem memcmp_lt_iff {a b : Bytes} (hlen : a.length = b.length) : memcmp a b = .lt ↔ beNat a < beNat b :=
  ⟨beNat_lt_of_memcmp hlen, memcmp_of_beNat_lt hlen⟩

theorem memcmp_gt_iff {a b : Bytes} (hlen : a.length = b.length) : memcmp a b = .gt ↔ beNat b < beNat a := by
  rw [← memcmp_lt_iff hlen.symm, memcmp_swap]
  cases memcmp b a <;> decide

end Octets
