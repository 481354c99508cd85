import Hostap.Lib.Octets

/-!
# The first bits of an octet string

`firstBits n bs` is the number the first `n` bits of `bs` write, most significant bit first. What
follows the octets these bits are in does not matter (`firstBits_append`), and neither do the bits
of the last octet behind them (`firstBits_last`).
-/

namespace Octets

/-- The number that the first `n` bits of an octet string write. -/
def firstBits (n : Nat) (bs : Bytes) : Nat := beNat bs / 2 ^ (8 * bs.length - n)

theorem firstBits_append {n : Nat} {as : Bytes} (h : n ≤ 8 * as.length) (bs : Bytes) :
    firstBits n (as ++ bs) = firstBits n as := by
  have hvalue : beNat (as ++ bs) = beNat as * 256 ^ bs.length + beNat bs := by
    show beNatFrom 0 (as ++ bs) = _
    rw [beNatFrom_append, beNatFrom_eq]
    rfl
  have hlen : 8 * (as ++ bs).length - n = 8 * bs.length + (8 * as.length - n) := by
    rw [List.length_append]
    omega
  have hpow : (2 : Nat) ^ (8 * bs.length) = 256 ^ bs.length := by
    rw [pow_mul]
    rfl
  have hpos : 0 < 256 ^ bs.length := Nat.pow_pos (by decide)
  -- the octets behind are a fraction of the last bit
  have hquot : (beNat as * 256 ^ bs.length + beNat bs) / 256 ^ bs.length = beNat as := by
    rw [Nat.mul_comm, Nat.mul_add_div hpos, Nat.div_eq_of_lt (beNat_lt bs), Nat.add_zero]
  unfold firstBits
  rw [hvalue, hlen, pow_add, hpow, ← Nat.div_div_eq_div_mul, hquot]

theorem firstBits_take {n m : Nat} {bs : Bytes} (hm : m ≤ bs.length) (h : n ≤ 8 * m) :
    firstBits n (bs.take m) = firstBits n bs := by
  conv_rhs => rw [← List.take_append_drop m bs]
  refine (firstBits_append ?_ _).symm
  rw [List.length_take_of_le hm]
  exact h

/-- A last octet with the same upper bits makes no difference. -/
theorem firstBits_last {n k : Nat} {bs : Bytes} {x y : UInt8} (hk : k ≤ 8)
    (hn : 8 * (bs.length + 1) - n = k) (hxy : x.toNat / 2 ^ k = y.toNat / 2 ^ k) :
    firstBits n (bs ++ [x]) = firstBits n (bs ++ [y]) := by
  have hvalue : ∀ z : UInt8, beNat (bs ++ [z]) = beNat bs * 2 ^ (8 - k) * 2 ^ k + z.toNat := by
    intro z
    have hpow : (2 : Nat) ^ (8 - k) * 2 ^ k = 256 := by
      rw [← pow_add, Nat.sub_add_cancel hk]
      rfl
    show beNatFrom 0 (bs ++ [z]) = _
    rw [beNatFrom_append, Nat.mul_assoc, hpow]
    rfl
  have hlen : ∀ z : UInt8, 8 * (bs ++ [z]).length - n = k := by
    intro z
    rw [List.length_append]
    exact hn
  have hpos : 0 < 2 ^ k := Nat.pow_pos (by decide)
  unfold firstBits
  rw [hvalue x, hvalue y, hlen, hlen, Nat.mul_comm _ (2 ^ k), Nat.mul_add_div hpos,
    Nat.mul_add_div hpos, hxy]

end Octets
