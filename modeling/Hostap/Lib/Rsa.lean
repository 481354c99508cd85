import Mathlib.FieldTheory.Finite.Basic
import Mathlib.Data.Nat.ModEq

/-!
# Powers modulo a product of two primes

`garner` puts a number together from its remainders modulo two numbers, with the inverse of one modulo the
other. With primes, an exponent for each of them that undoes a power is one that undoes it modulo the product
(`garner_pow`, `pow_garner`).
-/

namespace Rsa

variable {p q : Nat}

/-- An exponent that is 1 modulo `p - 1` changes nothing modulo `p`. -/
theorem pow_modEq_self (hp : p.Prime) {k : Nat} (hk : k ≡ 1 [MOD p - 1]) (hpos : 0 < k) (m : Nat) :
    m ^ k ≡ m [MOD p] := by
  obtain ⟨t, ht⟩ := (Nat.modEq_iff_dvd' hpos).mp hk.symm
  have hexp : k = (p - 1) * t + 1 := by omega
  rw [hexp, pow_succ, pow_mul]
  by_cases hdvd : p ∣ m
  · have hzero : m ≡ 0 [MOD p] := (Nat.modEq_zero_iff_dvd).mpr hdvd
    exact (hzero.mul_left _).trans hzero.symm
  · have hcop : m.Coprime p := ((Nat.Prime.coprime_iff_not_dvd hp).mpr hdvd).symm
    have hone := (Nat.ModEq.pow_card_sub_one_eq_one hp hcop).pow t
    rw [one_pow] at hone
    simpa using hone.mul_right m

/-- The number with these remainders, where `inv` is the inverse of `q` modulo `p`. -/
def garner (p q inv a b : Nat) : Nat := b + q * (((a : Int) - b) * inv % p).toNat

variable {inv a b : Nat}

theorem garner_lt (hp : 0 < p) (hb : b < q) : garner p q inv a b < p * q := by
  have hlt : (((a : Int) - b) * inv % p).toNat < p := by
    have h0 := Int.emod_nonneg (((a : Int) - b) * inv) (show (p : Int) ≠ 0 by omega)
    have h1 := Int.emod_lt_of_pos (((a : Int) - b) * inv) (show (0 : Int) < p by omega)
    omega
  unfold garner
  calc
    b + q * (((a : Int) - b) * inv % p).toNat < q + q * (((a : Int) - b) * inv % p).toNat := by omega
    _ = q * ((((a : Int) - b) * inv % p).toNat + 1) := by ring
    _ ≤ q * p := Nat.mul_le_mul_left q hlt
    _ = p * q := Nat.mul_comm q p

theorem garner_modEq_right : garner p q inv a b ≡ b [MOD q] := by
  unfold garner
  exact Nat.add_modulus_mul_modEq_iff.mpr rfl

theorem garner_modEq_left (hp : 0 < p) (hinv : inv * q ≡ 1 [MOD p]) : garner p q inv a b ≡ a [MOD p] := by
  rw [← Int.natCast_modEq_iff] at hinv ⊢
  push_cast at hinv
  unfold garner
  have hnonneg := Int.emod_nonneg (((a : Int) - b) * inv) (show (p : Int) ≠ 0 by omega)
  push_cast
  rw [Int.toNat_of_nonneg hnonneg]
  have hmod : ((a : Int) - b) * inv % p ≡ ((a : Int) - b) * inv [ZMOD p] := Int.mod_modEq _ _
  calc
    (b : Int) + q * (((a : Int) - b) * inv % p) ≡ b + q * (((a : Int) - b) * inv) [ZMOD p] :=
      (hmod.mul_left _).add_left _
    _ = b + ((a : Int) - b) * (inv * q) := by ring
    _ ≡ b + ((a : Int) - b) * 1 [ZMOD p] := (hinv.mul_left _).add_left _
    _ = a := by ring

/-- A number below the product is known by its remainders. -/
theorem eq_of_modEq (hcop : p.Coprime q) {m k : Nat} (hm : m < p * q) (hk : k < p * q) (hp : m ≡ k [MOD p])
    (hq : m ≡ k [MOD q]) : m = k :=
  Nat.ModEq.eq_of_lt_of_lt ((Nat.modEq_and_modEq_iff_modEq_mul hcop).mp ⟨hp, hq⟩) hm hk

/-- Two exponents, one for each prime, that undo the exponent `e`. -/
structure Exponents (p q e dp dq inv : Nat) : Prop where
  p_prime : p.Prime
  q_prime : q.Prime
  ne : p ≠ q
  undo_p : e * dp ≡ 1 [MOD p - 1]
  undo_q : e * dq ≡ 1 [MOD q - 1]
  pos : 0 < e * dp ∧ 0 < e * dq
  inverse : inv * q ≡ 1 [MOD p]

variable {e dp dq : Nat}

theorem Exponents.coprime (h : Exponents p q e dp dq inv) : p.Coprime q :=
  (Nat.coprime_primes h.p_prime h.q_prime).mpr h.ne

theorem Exponents.garner_pow (h : Exponents p q e dp dq inv) {m : Nat} (hm : m < p * q) :
    garner p q inv ((m ^ e % (p * q)) ^ dp % p) ((m ^ e % (p * q)) ^ dq % q) = m := by
  have hpow : ∀ {r d : Nat}, r ∣ p * q → m ^ (e * d) ≡ m [MOD r] → (m ^ e % (p * q)) ^ d ≡ m [MOD r] := by
    intro r d hdvd hmod
    have hr : m ^ e % (p * q) ≡ m ^ e [MOD r] := (Nat.mod_modEq _ _).of_dvd hdvd
    exact (hr.pow d).trans (by rw [← pow_mul]; exact hmod)
  refine eq_of_modEq h.coprime (garner_lt h.p_prime.pos (Nat.mod_lt _ h.q_prime.pos)) hm ?_ ?_
  · refine (garner_modEq_left h.p_prime.pos h.inverse).trans ((Nat.mod_modEq _ _).trans ?_)
    exact hpow (Nat.dvd_mul_right p q) (pow_modEq_self h.p_prime h.undo_p h.pos.1 m)
  · refine garner_modEq_right.trans ((Nat.mod_modEq _ _).trans ?_)
    exact hpow (Nat.dvd_mul_left q p) (pow_modEq_self h.q_prime h.undo_q h.pos.2 m)

theorem Exponents.pow_garner (h : Exponents p q e dp dq inv) {m : Nat} (hm : m < p * q) :
    garner p q inv (m ^ dp % p) (m ^ dq % q) ^ e % (p * q) = m := by
  refine eq_of_modEq h.coprime (Nat.mod_lt _ (Nat.mul_pos h.p_prime.pos h.q_prime.pos)) hm ?_ ?_
  · have hp : garner p q inv (m ^ dp % p) (m ^ dq % q) ≡ m ^ dp [MOD p] :=
      (garner_modEq_left h.p_prime.pos h.inverse).trans (Nat.mod_modEq (m ^ dp) p)
    refine ((Nat.mod_modEq _ _).of_dvd (Nat.dvd_mul_right p q)).trans ((hp.pow e).trans ?_)
    rw [← pow_mul, Nat.mul_comm]
    exact pow_modEq_self h.p_prime h.undo_p h.pos.1 m
  · have hq : garner p q inv (m ^ dp % p) (m ^ dq % q) ≡ m ^ dq [MOD q] :=
      garner_modEq_right.trans (Nat.mod_modEq (m ^ dq) q)
    refine ((Nat.mod_modEq _ _).of_dvd (Nat.dvd_mul_left q p)).trans ((hq.pow e).trans ?_)
    rw [← pow_mul, Nat.mul_comm]
    exact pow_modEq_self h.q_prime h.undo_q h.pos.2 m

end Rsa
