import Hostap.Lib.Dragonfly
import Hostap.Sae.Steps
import Mathlib.NumberTheory.LegendreSymbol.Basic

/-!
# What a prepared commit is made of

`sae_prepare_commit()` draws random numbers at every turn: a dummy password, a residue and a
non-residue, a blinding value for each test, `rand` and `mask`. This module separates what the
draws decide from what they do not:

* the key of the password seeds does not depend on who is first (`saePwdSeedKey_comm`);
* the quadratic-residue test does not depend on the blinding (`isQuadraticResidueBlind_eq`), so
  the loop of `sae_derive_pwe_ecc()` computes `huntEcc`, which draws nothing;
* the scalar and the element are those of `Dragonfly`, in the group of points for curves
  (`saePrepareCommit_ecc`) and in the units modulo the prime for finite fields
  (`saePrepareCommit_ffc`).

What is relied on of the library is `CryptoEc.Lawful` and `DhGroup.Lawful`.
-/

namespace Hostap

open Octets

variable {P : Type}

/-! ## Groups -/

/-- The curve handle computes in a group of prime order. -/
structure CryptoEc.Lawful [AddCommGroup P] (ec : CryptoEc P) : Prop where
  prime : ec.prime.Prime
  order_prime : ec.order.Prime
  card : Nat.card P = ec.order
  pointMul : ∀ p n, ec.pointMul p n = some (n • p)
  pointAdd : ∀ p q, ec.pointAdd p q = some (p + q)
  pointInvert : ∀ p, ec.pointInvert p = some (-p)
  /-- Only the identity has no affine coordinates. -/
  affineCoordinates : ∀ p, p ≠ 0 → (ec.affineCoordinates p).isSome
  /-- The identity is not on top of any x coordinate. -/
  pointSolveYCoord : ∀ x odd p, ec.pointSolveYCoord x odd = some p → p ≠ 0

/-- The finite-field group is a subgroup of prime order, and fits the buffers as
`sae_set_group()` checks. -/
structure DhGroup.Lawful (dh : DhGroup) : Prop where
  prime : (beNat dh.prime).Prime
  order_prime : (beNat dh.order).Prime
  order_dvd : beNat dh.order ∣ beNat dh.prime - 1
  safePrime : dh.safePrime → beNat dh.prime = 2 * beNat dh.order + 1
  length : dh.prime.length ≤ saeMaxPrimeLen

def SaeGroup.Lawful [AddCommGroup P] : SaeGroup P → Prop
  | .unset => False
  | .ecc ec => ec.Lawful
  | .ffc dh => dh.Lawful

theorem CryptoEc.Lawful.order_nsmul [AddCommGroup P] {ec : CryptoEc P} (h : ec.Lawful) (p : P) :
    ec.order • p = 0 := by
  rw [← h.card]
  exact card_nsmul_eq_zero'

/-! ## Seed key and blinding -/

theorem saePwdSeedKey_comm {addr1 addr2 : Bytes} (hlen : addr1.length = addr2.length) :
    saePwdSeedKey addr1 addr2 = saePwdSeedKey addr2 addr1 := by
  unfold saePwdSeedKey
  rw [memcmp_swap addr1 addr2]
  cases hcmp : memcmp addr1 addr2 with
  | lt => rfl
  | gt => rfl
  | eq =>
    rw [eq_of_memcmp_eq hlen hcmp]
    rfl

section Legendre

variable {p : Nat}

theorem cryptoBignumLegendre_eq [Fact p.Prime] (hodd : p ≠ 2) (a : Nat) :
    cryptoBignumLegendre a p = legendreSym p a := by
  have hp : p.Prime := Fact.out
  have hp2 : 2 < p := lt_of_le_of_ne hp.two_le (Ne.symm hodd)
  have hhalf : (p - 1) / 2 = p / 2 := by
    rcases hp.eq_two_or_odd with h | h <;> omega
  have hpow : ((a ^ ((p - 1) / 2) % p : ℕ) : ZMod p) = (legendreSym p a : ZMod p) := by
    rw [legendreSym.eq_pow, hhalf]
    simp
  have hone : ((1 : ℕ) : ZMod p) = 1 := Nat.cast_one
  have hval : ∀ v : ℕ, v < p → ((a ^ ((p - 1) / 2) % p : ℕ) : ZMod p) = v →
      a ^ ((p - 1) / 2) % p = v := by
    intro v hv h
    rw [ZMod.natCast_eq_natCast_iff', Nat.mod_mod, Nat.mod_eq_of_lt hv] at h
    exact h
  unfold cryptoBignumLegendre
  by_cases ha : ((a : ℤ) : ZMod p) = 0
  · have hzero : legendreSym p a = 0 := (legendreSym.eq_zero_iff p a).2 ha
    have : a ^ ((p - 1) / 2) % p = 0 := hval 0 (by omega) (by rw [hpow, hzero]; simp)
    rw [this, hzero]
    rfl
  · rcases legendreSym.eq_one_or_neg_one p ha with h | h
    · have : a ^ ((p - 1) / 2) % p = 1 := hval 1 (by omega) (by rw [hpow, h]; simp)
      rw [this, h]
      rfl
    · have hm : a ^ ((p - 1) / 2) % p = p - 1 := by
        refine hval (p - 1) (by omega) ?_
        rw [hpow, h, Nat.cast_sub (by omega)]
        simp
      rw [hm, h, if_neg (by omega), if_neg (by omega)]

theorem odd_of_legendre_neg {a : Nat} (h : cryptoBignumLegendre a p = -1) : p ≠ 2 := by
  rintro rfl
  have : cryptoBignumLegendre a 2 = 1 := by simp [cryptoBignumLegendre]
  rw [this] at h
  exact absurd h (by decide)

theorem legendreSym_mod [Fact p.Prime] (a : Nat) : legendreSym p ((a % p : ℕ) : ℤ) = legendreSym p a := by
  rw [Int.natCast_mod]
  exact (legendreSym.mod p a).symm

theorem legendreSym_mulmod [Fact p.Prime] (a b : Nat) :
    legendreSym p (cryptoBignumMulmod a b p : ℕ) = legendreSym p a * legendreSym p b := by
  rw [cryptoBignumMulmod, legendreSym_mod, Nat.cast_mul, legendreSym.mul]

theorem legendre_blinded [Fact p.Prime] (hodd : p ≠ 2) {r : Nat} (hr : r < p) (h0 : r ≠ 0)
    (y q : Nat) :
    cryptoBignumLegendre (cryptoBignumMulmod
      (cryptoBignumMulmod (cryptoBignumMulmod y r p) r p) q p) p =
      cryptoBignumLegendre y p * cryptoBignumLegendre q p := by
  have hr0 : ((r : ℤ) : ZMod p) ≠ 0 := by
    rw [Int.cast_natCast, Ne, ZMod.natCast_eq_zero_iff]
    intro hdvd
    exact h0 (Nat.eq_zero_of_dvd_of_lt hdvd hr)
  have hsq : legendreSym p r * legendreSym p r = 1 := by
    rw [← sq]
    exact legendreSym.sq_one p hr0
  rw [cryptoBignumLegendre_eq hodd, cryptoBignumLegendre_eq hodd y, cryptoBignumLegendre_eq hodd q,
    legendreSym_mulmod, legendreSym_mulmod, legendreSym_mulmod, mul_assoc (legendreSym p y), hsq, mul_one]

end Legendre

theorem bufShiftRightFrom_length (bits : Nat) (prev : UInt8) (bs : Bytes) :
    (bufShiftRightFrom bits prev bs).length = bs.length := by
  induction bs generalizing prev with
  | nil => rfl
  | cons b bs ih => simp [bufShiftRightFrom, ih]

@[simp] theorem trimBits_length (bits : Nat) (bs : Bytes) :
    (trimBits bits bs).length = bs.length := by
  unfold trimBits
  split
  · rfl
  · cases bs with
    | nil => rfl
    | cons b bs => simp [bufShiftRight, bufShiftRightFrom_length]

theorem getRand1ToP1_range {prime : Bytes} {bits r : Nat} {rOdd : Bool} {rand rand' : Rand}
    (h : getRand1ToP1 prime bits rand = (some (r, rOdd), rand')) :
    r ≠ 0 ∧ r < beNat prime := by
  induction rand with
  | nil => cases h
  | cons d rand ih =>
    cases d with
    | none => cases h
    | some source =>
      simp only [getRand1ToP1] at h
      split at h
      · exact ih h
      · rename_i hcmp
        split at h
        · exact ih h
        · rename_i h0
          cases h
          exact ⟨h0, beNat_lt_of_memcmp (by simp) (not_not.1 hcmp)⟩

theorem getRandomQrQnr_legendre {p : Nat} {prime : Bytes} {bits : Nat} {qr? qnr? : Option Nat}
    {qr qnr : Nat} {rand rand' : Rand}
    (hqr : ∀ q ∈ qr?, cryptoBignumLegendre q p = 1)
    (hqnr : ∀ q ∈ qnr?, cryptoBignumLegendre q p = -1)
    (h : getRandomQrQnr p prime bits qr? qnr? rand = (some (qr, qnr), rand')) :
    cryptoBignumLegendre qr p = 1 ∧ cryptoBignumLegendre qnr p = -1 := by
  fun_induction getRandomQrQnr p prime bits qr? qnr? rand with
  | case1 q qn rand =>
    cases h
    exact ⟨hqr _ rfl, hqnr _ rfl⟩
  | case2 => cases h
  | case3 => cases h
  | case4 qr? qnr? _ _ _ _ _ ih => exact ih hqr hqnr h
  | case5 qr? qnr? source rand _ tmp _ q res hres ih =>
    refine ih ?_ hqnr h
    intro q' hq
    rw [← Option.mem_some_iff.1 hq]
    exact hres.1
  | case6 qr? qnr? source rand _ tmp _ q res _ hres ih =>
    refine ih hqr ?_ h
    intro q' hq
    rw [← Option.mem_some_iff.1 hq]
    exact hres.1
  | case7 qr? qnr? source rand _ tmp _ q res _ _ ih => exact ih hqr hqnr h

theorem isQuadraticResidueBlind_eq {p : Nat} [Fact p.Prime] {prime : Bytes} {bits qr qnr y : Nat}
    {rand rand' : Rand} {b : Bool} (hp : beNat prime = p)
    (hqr : cryptoBignumLegendre qr p = 1) (hqnr : cryptoBignumLegendre qnr p = -1)
    (h : isQuadraticResidueBlind p prime bits qr qnr y rand = (some b, rand')) :
    b = decide (cryptoBignumLegendre y p = 1) := by
  have hodd : p ≠ 2 := odd_of_legendre_neg hqnr
  unfold isQuadraticResidueBlind at h
  split at h
  · cases h
  · rename_i r rOdd _ hdraw
    obtain ⟨h0, hlt⟩ := getRand1ToP1_range hdraw
    rw [hp] at hlt
    simp only [legendre_blinded hodd hlt h0, hqr, hqnr] at h
    split at h
    · cases h
      simp
    · cases h
      simp

/-! ## Hunting and pecking without blinding -/

/-- The x coordinate a password seed stands for, if it stands for one. -/
def eccSeedValue (c : CryptoLib P) (ec : CryptoEc P) (pwdSeed prime : Bytes) : Option Nat :=
  let pwdValue := trimBits ec.primeLenBits (sha256PrfBits c.hmacSha256 pwdSeed
    (label "SAE Hunting and Pecking") prime ec.primeLenBits)
  if memcmp pwdValue prime = .lt ∧
      cryptoBignumLegendre (ec.pointComputeYSqr (beNat pwdValue)) ec.prime = 1 then
    some (beNat pwdValue)
  else
    none

/-- The first counter value whose seed stands for an x coordinate decides; no draw is made. -/
def huntEcc (c : CryptoLib P) (ec : CryptoEc P) (addrs prime password : Bytes)
    (identifier : Option Bytes) : (fuel counter : Nat) → Option (Nat × Bool)
  | 0, _ => none
  | fuel + 1, counter =>
    let pwdSeed := c.hmacSha256 addrs (pwdSeedInput password identifier counter)
    match eccSeedValue c ec pwdSeed prime with
    | some x => some (x, pwdSeed.getLastD 0 &&& 1 = 1)
    | none => huntEcc c ec addrs prime password identifier fuel (counter + 1)

section Hunt

variable {c : CryptoLib P} {ec : CryptoEc P} {prime : Bytes} {qr qnr : Nat}

theorem saeTestPwdSeedEcc_eq [Fact ec.prime.Prime] {pwdSeed : Bytes} {rand rand' : Rand}
    {res : SeedTest} (hp : beNat prime = ec.prime)
    (hqr : cryptoBignumLegendre qr ec.prime = 1) (hqnr : cryptoBignumLegendre qnr ec.prime = -1)
    (h : saeTestPwdSeedEcc c ec pwdSeed prime qr qnr rand = (res, rand')) (hres : res ≠ .failed) :
    res = (eccSeedValue c ec pwdSeed prime).elim .no .yes := by
  simp only [saeTestPwdSeedEcc] at h
  simp only [eccSeedValue]
  split at h
  · rename_i hcmp
    cases h
    rw [if_neg (fun hc => hcmp hc.1)]
    rfl
  · rename_i hcmp
    split at h
    · cases h
      exact absurd rfl hres
    · rename_i htest
      have := isQuadraticResidueBlind_eq hp hqr hqnr htest
      cases h
      rw [if_neg (fun hc => of_decide_eq_false this.symm hc.2)]
      rfl
    · rename_i htest
      have := isQuadraticResidueBlind_eq hp hqr hqnr htest
      cases h
      rw [if_pos ⟨not_not.1 hcmp, of_decide_eq_true this.symm⟩]
      rfl

theorem saeDerivePweEccLoop_found {addrs dummy : Bytes} {identifier : Option Bytes}
    {fuel counter : Nat} {v : Nat × Bool} {password : Bytes} {rand rand' : Rand}
    {r : Option (Nat × Bool)}
    (h : saeDerivePweEccLoop c ec addrs prime qr qnr identifier dummy fuel counter (some v)
      password rand = (some r, rand')) : r = some v := by
  induction fuel generalizing counter password rand with
  | zero =>
    cases h
    rfl
  | succ fuel ih =>
    simp only [saeDerivePweEccLoop] at h
    split at h
    · cases h
      rfl
    · split at h
      · cases h
      · exact ih h
      · exact ih h

/-- **The loop of `sae_derive_pwe_ecc()` hunts.** Draws decide whether it ends, not where. -/
theorem saeDerivePweEccLoop_eq [Fact ec.prime.Prime] {addrs dummy : Bytes}
    {identifier : Option Bytes} {fuel counter : Nat} {password : Bytes} {rand rand' : Rand}
    {r : Option (Nat × Bool)} (hp : beNat prime = ec.prime)
    (hqr : cryptoBignumLegendre qr ec.prime = 1) (hqnr : cryptoBignumLegendre qnr ec.prime = -1)
    (h : saeDerivePweEccLoop c ec addrs prime qr qnr identifier dummy fuel counter none
      password rand = (some r, rand')) :
    r = huntEcc c ec addrs prime password identifier fuel counter := by
  induction fuel generalizing counter rand with
  | zero =>
    cases h
    rfl
  | succ fuel ih =>
    simp only [saeDerivePweEccLoop, Option.isSome_none, Bool.false_eq_true, and_false,
      if_false] at h
    simp only [huntEcc]
    split at h
    · cases h
    · rename_i htest
      have hseed := saeTestPwdSeedEcc_eq hp hqr hqnr htest (by simp)
      cases hv : eccSeedValue c ec
          (c.hmacSha256 addrs (pwdSeedInput password identifier counter)) prime with
      | none => exact ih h
      | some x =>
        rw [hv] at hseed
        cases hseed
    · rename_i xCand _ htest
      have hseed := saeTestPwdSeedEcc_eq hp hqr hqnr htest (by simp)
      cases hv : eccSeedValue c ec
          (c.hmacSha256 addrs (pwdSeedInput password identifier counter)) prime with
      | none =>
        rw [hv] at hseed
        cases hseed
      | some x =>
        rw [hv] at hseed
        cases hseed
        exact saeDerivePweEccLoop_found h

end Hunt

/-! ## Own commits -/

theorem saeGetRandLoop_range {order fuel r : Nat} {rand rand' : Rand}
    (h : saeGetRandLoop order fuel rand = (some r, rand')) : 1 < r ∧ r < order := by
  induction fuel generalizing rand with
  | zero => cases h
  | succ fuel ih =>
    simp only [saeGetRandLoop] at h
    split at h
    · cases h
    · split at h
      · exact ih h
      · cases h
        omega

theorem saeGetRand_range {order r : Nat} {rand rand' : Rand}
    (h : saeGetRand order rand = (some r, rand')) :
    1 < r ∧ r < order ∧ numBytes order ≤ saeMaxPrimeLen := by
  unfold saeGetRand at h
  split at h
  · cases h
  · rename_i hlen
    obtain ⟨h1, h2⟩ := saeGetRandLoop_range h
    exact ⟨h1, h2, by omega⟩

theorem saeDeriveCommitLoop_ok {fuel mask : Nat} {t t' : SaeTemporaryData P} {rand rand' : Rand}
    (h : saeDeriveCommitLoop fuel t rand = (some mask, t', rand')) :
    ∃ r, t' = { t with
        saeRand := some r
        ownCommitScalar := some (Dragonfly.scalar t.group.order r mask) } ∧
      0 < mask ∧ mask < t.group.order ∧ numBytes t.group.order ≤ saeMaxPrimeLen := by
  induction fuel generalizing t rand with
  | zero => cases h
  | succ fuel ih =>
    simp only [saeDeriveCommitLoop, saeGetRandAndMask] at h
    cases hr : saeGetRand t.group.order rand with
    | mk r? rand₁ =>
      cases r? with
      | none =>
        rw [hr] at h
        cases h
      | some r =>
        rw [hr] at h
        cases hm : saeGetRand t.group.order rand₁ with
        | mk mask? rand₂ =>
          cases mask? with
          | none =>
            simp only [hm] at h
            cases h
          | some m =>
            simp only [hm, Option.getD_some] at h
            split at h
            · -- a scalar of zero or one is drawn again
              obtain ⟨r', rfl, hrest⟩ := ih h
              exact ⟨r', rfl, hrest⟩
            · cases h
              obtain ⟨h1, h2, h3⟩ := saeGetRand_range hm
              exact ⟨r, rfl, by omega, h2, h3⟩

/-- The commit of an instance on a curve, in terms of the exchange. -/
structure EccCommit [AddCommGroup P] (ec : CryptoEc P) (pwe : P) (rand mask : Nat)
    (t : SaeTemporaryData P) : Prop where
  group : t.group = .ecc ec
  pweEcc : t.pweEcc = some pwe
  saeRand : t.saeRand = some rand
  scalar : t.ownCommitScalar = some (Dragonfly.scalar ec.order rand mask)
  element : t.ownCommitElementEcc = some (Dragonfly.element pwe mask)
  pwe_ne : pwe ≠ 0
  mask_pos : 0 < mask
  mask_lt : mask < ec.order
  order_len : numBytes ec.order ≤ saeMaxPrimeLen
  prime_len : ec.primeLen ≤ saeMaxEccPrimeLen

/-- The password element of a curve: the point on top of what the hunt finds. -/
def IsPweEcc (c : CryptoLib P) (ec : CryptoEc P) (addrs password : Bytes)
    (identifier : Option Bytes) (pwe : P) : Prop :=
  ∃ prime, cryptoBignumToBin ec.prime saeMaxEccPrimeLen ec.primeLen = some prime ∧
    ∃ x odd, huntEcc c ec addrs prime password identifier 200 1 = some (x, odd) ∧
      ec.pointSolveYCoord x odd = some pwe

theorem IsPweEcc.unique {c : CryptoLib P} {ec : CryptoEc P} {addrs password : Bytes}
    {identifier : Option Bytes} {pwe pwe' : P} (h : IsPweEcc c ec addrs password identifier pwe)
    (h' : IsPweEcc c ec addrs password identifier pwe') : pwe = pwe' := by
  obtain ⟨prime, hprime, x, odd, hx, hy⟩ := h
  obtain ⟨prime', hprime', x', odd', hx', hy'⟩ := h'
  rw [hprime] at hprime'
  cases hprime'
  rw [hx] at hx'
  cases hx'
  rw [hy] at hy'
  exact Option.some.inj hy'

theorem cryptoBignumToBin_value {a buflen padlen : Nat} {buf : Bytes}
    (h : cryptoBignumToBin a buflen padlen = some buf) :
    beNat buf = a ∧ padlen ≤ buflen ∧ numBytes a ≤ buflen := by
  unfold cryptoBignumToBin at h
  split at h
  · cases h
  · split at h
    · cases h
    · cases h
      rw [beNat_zeros_append, beNat_natBe (lt_pow_numBytes a)]
      omega

theorem saeDerivePweEcc_ok {c : CryptoLib P} {ec : CryptoEc P} {addr1 addr2 password : Bytes}
    {identifier : Option Bytes} {t t' : SaeTemporaryData P} {rand rand' : Rand}
    (hprime : ec.prime.Prime)
    (h : saeDerivePweEcc c ec addr1 addr2 password identifier t rand = (true, t', rand')) :
    ∃ pwe, t' = { t with pweEcc := some pwe } ∧
      IsPweEcc c ec (saePwdSeedKey addr1 addr2) password identifier pwe ∧
      ec.primeLen ≤ saeMaxEccPrimeLen := by
  have : Fact ec.prime.Prime := ⟨hprime⟩
  unfold saeDerivePweEcc at h
  split at h
  · cases h
  split at h
  · cases h
  rename_i prime hbin
  split at h
  · cases h
  rename_i qr qnr _ hq
  split at h
  · cases h
  · cases h
  rename_i x odd _ hloop
  split at h
  · rename_i pwe hy
    cases h
    obtain ⟨hval, hpad, -⟩ := cryptoBignumToBin_value hbin
    obtain ⟨hqr, hqnr⟩ := getRandomQrQnr_legendre (by simp) (by simp) hq
    have hunt := saeDerivePweEccLoop_eq hval hqr hqnr hloop
    exact ⟨pwe, rfl, ⟨prime, hbin, x, odd, hunt.symm, hy⟩, hpad⟩
  · cases h

theorem saePrepareCommit_steps {c : CryptoLib P} {addr1 addr2 password : Bytes}
    {identifier : Option Bytes} {s s' : SaeData P} {t : SaeTemporaryData P} {rand rand' : Rand}
    (ht : s.tmp = some t)
    (h : saePrepareCommit c addr1 addr2 password identifier s rand = .ok (true, s', rand')) :
    ∃ t₁ rand₁ t',
      saeDerivePwe c addr1 addr2 password identifier t rand = (true, t₁, rand₁) ∧
      saeDeriveCommit t₁ rand₁ = .ok (true, t', rand') ∧ s' = { s with tmp := some t' } := by
  simp only [saePrepareCommit, ht] at h
  split at h
  · cases h
  · rename_i t₁ rand₁ hpwe
    obtain ⟨⟨ok, t', rand₂⟩, hcommit, h⟩ := except_bind_ok h
    cases h
    exact ⟨t₁, rand₁, t', hpwe, hcommit, rfl⟩

theorem saeDeriveCommit_ecc [AddCommGroup P] {ec : CryptoEc P} (hec : ec.Lawful) {pwe : P}
    (hne : pwe ≠ 0) (hlen : ec.primeLen ≤ saeMaxEccPrimeLen) {t t' : SaeTemporaryData P}
    {rand rand' : Rand} (hg : t.group = .ecc ec) (hpwe : t.pweEcc = some pwe)
    (h : saeDeriveCommit t rand = .ok (true, t', rand')) :
    ∃ r mask, EccCommit ec pwe r mask t' := by
  simp only [saeDeriveCommit] at h
  rw [hg] at h
  simp only at h
  split at h
  · cases h
  · rename_i mask t₁ _ hloop
    obtain ⟨r, rfl, hpos, hlt, hol⟩ := saeDeriveCommitLoop_ok hloop
    simp only [saeDeriveCommitElementEcc, hpwe, deref, hec.pointMul, hec.pointInvert] at h
    cases h
    rw [hg] at hlt hol
    exact ⟨r, mask, hg, rfl, rfl, by simp only [hg, SaeGroup.order], rfl, hne, hpos, hlt, hol, hlen⟩

theorem saePrepareCommit_ecc [AddCommGroup P] {c : CryptoLib P} {ec : CryptoEc P}
    (hec : ec.Lawful) {addr1 addr2 password : Bytes} {identifier : Option Bytes}
    {s s' : SaeData P} {t : SaeTemporaryData P} {rand rand' : Rand} (ht : s.tmp = some t)
    (hg : t.group = .ecc ec)
    (h : saePrepareCommit c addr1 addr2 password identifier s rand = .ok (true, s', rand')) :
    ∃ t' pwe r mask, s' = { s with tmp := some t' } ∧ EccCommit ec pwe r mask t' ∧
      IsPweEcc c ec (saePwdSeedKey addr1 addr2) password identifier pwe := by
  obtain ⟨t₁, rand₁, t', hderive, hcommit, rfl⟩ := saePrepareCommit_steps ht h
  simp only [saeDerivePwe, hg] at hderive
  obtain ⟨pwe, rfl, hpwe, hlen⟩ := saeDerivePweEcc_ok hec.prime hderive
  have hne : pwe ≠ 0 := by
    obtain ⟨-, -, x, odd, -, hy⟩ := hpwe
    exact hec.pointSolveYCoord x odd pwe hy
  obtain ⟨r, mask, hc⟩ :=
    saeDeriveCommit_ecc (t := { t with pweEcc := some pwe }) hec hne hlen hg rfl hcommit
  exact ⟨t', pwe, r, mask, rfl, hc, hpwe⟩

/-! ## Finite fields -/

/-- A unit of the field and its residue. -/
structure FfcElement (dh : DhGroup) (n : Nat) (u : (ZMod (beNat dh.prime))ˣ) : Prop where
  cast : (n : ZMod (beNat dh.prime)) = u
  lt : n < beNat dh.prime

theorem FfcElement.eq {dh : DhGroup} {n m : Nat} {u : (ZMod (beNat dh.prime))ˣ}
    (h : FfcElement dh n u) (h' : FfcElement dh m u) : n = m := by
  have hcast := h.cast.trans h'.cast.symm
  rw [ZMod.natCast_eq_natCast_iff', Nat.mod_eq_of_lt h.lt, Nat.mod_eq_of_lt h'.lt] at hcast
  exact hcast

theorem ffcElement_of_power {dh : DhGroup} (hdh : dh.Lawful) {w b : Nat}
    (hbr : b * beNat dh.order = beNat dh.prime - 1)
    (hne : cryptoBignumExptmod w b (beNat dh.prime) ≠ 0) :
    ∃ u : (ZMod (beNat dh.prime))ˣ, FfcElement dh (cryptoBignumExptmod w b (beNat dh.prime)) u ∧
      u ^ beNat dh.order = 1 := by
  have : Fact (beNat dh.prime).Prime := ⟨hdh.prime⟩
  have hp := hdh.prime.two_le
  have hcast : ((cryptoBignumExptmod w b (beNat dh.prime) : ℕ) : ZMod (beNat dh.prime)) =
      (w : ZMod (beNat dh.prime)) ^ b := by
    simp [cryptoBignumExptmod]
  have hlt : cryptoBignumExptmod w b (beNat dh.prime) < beNat dh.prime :=
    Nat.mod_lt _ hdh.prime.pos
  have hv : ((cryptoBignumExptmod w b (beNat dh.prime) : ℕ) : ZMod (beNat dh.prime)) ≠ 0 := by
    rw [Ne, ZMod.natCast_eq_zero_iff]
    intro hdvd
    exact hne (Nat.eq_zero_of_dvd_of_lt hdvd hlt)
  have hw0 : (w : ZMod (beNat dh.prime)) ≠ 0 := by
    intro h0
    have hb0 : b ≠ 0 := by
      rintro rfl
      omega
    exact hv (by rw [hcast, h0, zero_pow hb0])
  refine ⟨Units.mk0 _ hv, ⟨rfl, hlt⟩, ?_⟩
  ext
  rw [Units.val_pow_eq_pow_val, Units.val_mk0, hcast, ← pow_mul, hbr,
    ZMod.pow_card_sub_one_eq_one hw0, Units.val_one]

theorem saeTestPwdSeedFfc_yes {c : CryptoLib P} {dh : DhGroup} (hdh : dh.Lawful)
    {pwdSeed : Bytes} {pwe pwe' v : Nat}
    (h : saeTestPwdSeedFfc c dh pwdSeed pwe = (.yes v, pwe')) :
    ∃ u : (ZMod (beNat dh.prime))ˣ, FfcElement dh pwe' u ∧ u ^ beNat dh.order = 1 := by
  have hbr : (if dh.safePrime then 2 else (beNat dh.prime - 1) / beNat dh.order) *
      beNat dh.order = beNat dh.prime - 1 := by
    split
    · rename_i hs
      have := hdh.safePrime hs
      omega
    · exact Nat.div_mul_cancel hdh.order_dvd
  simp only [saeTestPwdSeedFfc] at h
  generalize (if dh.safePrime then 2 else (beNat dh.prime - 1) / beNat dh.order) = b at h hbr
  split at h
  · cases h
  split at h
  · cases h
  split at h
  · cases h
  rename_i hne
  cases h
  exact ffcElement_of_power hdh hbr (fun h0 => hne (.inl h0))

theorem saeTestPwdSeedFfc_fst (c : CryptoLib P) (dh : DhGroup) (pwdSeed : Bytes) (pwe pwe' : Nat) :
    (saeTestPwdSeedFfc c dh pwdSeed pwe).1 = (saeTestPwdSeedFfc c dh pwdSeed pwe').1 := by
  simp only [saeTestPwdSeedFfc]
  generalize (if dh.safePrime then 2 else (beNat dh.prime - 1) / beNat dh.order) = b
  repeat' split
  all_goals rfl

theorem saeTestPwdSeedFfc_value {c : CryptoLib P} {dh : DhGroup} {pwdSeed : Bytes}
    {pwe pwe' v : Nat} (h : saeTestPwdSeedFfc c dh pwdSeed pwe = (.yes v, pwe')) : pwe' = v := by
  simp only [saeTestPwdSeedFfc] at h
  generalize (if dh.safePrime then 2 else (beNat dh.prime - 1) / beNat dh.order) = b at h
  repeat' split at h
  all_goals
    cases h
    try rfl

theorem saeDerivePweFfcLoop_unique {c : CryptoLib P} {dh : DhGroup} {addrs password : Bytes}
    {identifier : Option Bytes} {fuel counter v v' pwe pwe' : Nat}
    (h : saeDerivePweFfcLoop c dh addrs password identifier fuel counter v = (true, pwe))
    (h' : saeDerivePweFfcLoop c dh addrs password identifier fuel counter v' = (true, pwe')) :
    pwe = pwe' := by
  induction fuel generalizing counter v v' with
  | zero => cases h
  | succ fuel ih =>
    simp only [saeDerivePweFfcLoop] at h h'
    generalize c.hmacSha256 addrs (pwdSeedInput password identifier counter) = seed at h h'
    have hfst := saeTestPwdSeedFfc_fst c dh seed v v'
    split at h
    · cases h
    · rename_i htest
      split at h'
      · cases h'
      · exact ih h h'
      · rename_i htest'
        rw [htest, htest'] at hfst
        cases hfst
    · rename_i x _ htest
      split at h'
      · cases h'
      · rename_i htest'
        rw [htest, htest'] at hfst
        cases hfst
      · rename_i x' _ htest'
        cases h
        cases h'
        rw [htest, htest'] at hfst
        rw [saeTestPwdSeedFfc_value htest, saeTestPwdSeedFfc_value htest']
        exact SeedTest.yes.inj hfst

theorem saeDerivePweFfcLoop_element {c : CryptoLib P} {dh : DhGroup} (hdh : dh.Lawful)
    {addrs password : Bytes} {identifier : Option Bytes} {fuel counter v pwe : Nat}
    (h : saeDerivePweFfcLoop c dh addrs password identifier fuel counter v = (true, pwe)) :
    ∃ u : (ZMod (beNat dh.prime))ˣ, FfcElement dh pwe u ∧ u ^ beNat dh.order = 1 := by
  induction fuel generalizing counter v with
  | zero => cases h
  | succ fuel ih =>
    simp only [saeDerivePweFfcLoop] at h
    split at h
    · cases h
    · exact ih h
    · rename_i htest
      cases h
      exact saeTestPwdSeedFfc_yes hdh htest

theorem cryptoBignumInverse_element {dh : DhGroup} {n m : Nat}
    {u : (ZMod (beNat dh.prime))ˣ} (hn : FfcElement dh n u)
    (h : cryptoBignumInverse n (beNat dh.prime) = some m) : FfcElement dh m u⁻¹ := by
  have hmem := List.mem_of_find?_eq_some h
  have hprod := List.find?_some h
  simp only [beq_iff_eq] at hprod
  refine ⟨?_, List.mem_range.1 hmem⟩
  have hone : (n : ZMod (beNat dh.prime)) * m = 1 := by
    have := (ZMod.natCast_eq_natCast_iff' (n * m) 1 (beNat dh.prime)).2 hprod
    simpa using this
  rw [hn.cast] at hone
  exact (Units.inv_eq_of_mul_eq_one_right hone).symm

theorem FfcElement.exptmod {dh : DhGroup} (hdh : dh.Lawful) {n : Nat}
    {u : (ZMod (beNat dh.prime))ˣ} (hn : FfcElement dh n u) (e : Nat) :
    FfcElement dh (cryptoBignumExptmod n e (beNat dh.prime)) (u ^ e) where
  cast := by simp [cryptoBignumExptmod, hn.cast]
  lt := Nat.mod_lt _ hdh.prime.pos

theorem FfcElement.mulmod {dh : DhGroup} (hdh : dh.Lawful) {n m : Nat}
    {u v : (ZMod (beNat dh.prime))ˣ} (hn : FfcElement dh n u) (hm : FfcElement dh m v) :
    FfcElement dh (cryptoBignumMulmod n m (beNat dh.prime)) (u * v) where
  cast := by simp [cryptoBignumMulmod, hn.cast, hm.cast]
  lt := Nat.mod_lt _ hdh.prime.pos

/-- The commit of an instance in a finite field, in terms of the exchange. -/
structure FfcCommit (dh : DhGroup) (pwe : Nat) (u : (ZMod (beNat dh.prime))ˣ) (rand mask : Nat)
    (t : SaeTemporaryData P) : Prop where
  group : t.group = .ffc dh
  pweFfc : t.pweFfc = some pwe
  unit : FfcElement dh pwe u
  saeRand : t.saeRand = some rand
  scalar : t.ownCommitScalar = some (Dragonfly.scalar (beNat dh.order) rand mask)
  element : ∃ e, t.ownCommitElementFfc = some e ∧
    FfcElement dh e (Dragonfly.element (Additive.ofMul u) mask).toMul
  order_len : numBytes (beNat dh.order) ≤ saeMaxPrimeLen

theorem saeDeriveCommit_ffc {dh : DhGroup} (hdh : dh.Lawful) {pwe : Nat}
    {u : (ZMod (beNat dh.prime))ˣ} (hu : FfcElement dh pwe u) {t t' : SaeTemporaryData P}
    {rand rand' : Rand} (hg : t.group = .ffc dh) (hpwe : t.pweFfc = some pwe)
    (h : saeDeriveCommit t rand = .ok (true, t', rand')) :
    ∃ r mask, FfcCommit dh pwe u r mask t' := by
  simp only [saeDeriveCommit] at h
  rw [hg] at h
  simp only at h
  split at h
  · cases h
  · rename_i mask t₁ _ hloop
    obtain ⟨r, rfl, -, -, hol⟩ := saeDeriveCommitLoop_ok hloop
    rw [hg] at hol
    simp only [saeDeriveCommitElementFfc, hpwe, deref] at h
    obtain ⟨⟨ok, t₂⟩, helement, h⟩ := except_bind_ok h
    cases h
    obtain ⟨_, hval, helement⟩ := except_bind_ok helement
    cases hval
    split at helement
    · cases helement
    · rename_i e he
      cases helement
      have hinv := cryptoBignumInverse_element (hu.exptmod hdh mask) he
      exact ⟨r, mask, hg, rfl, hu, rfl, by simp only [hg, SaeGroup.order], ⟨e, rfl, hinv⟩, hol⟩

/-- **`sae_prepare_commit()` in a finite field.** -/
theorem saePrepareCommit_ffc {c : CryptoLib P} {dh : DhGroup} (hdh : dh.Lawful)
    {addr1 addr2 password : Bytes} {identifier : Option Bytes} {s s' : SaeData P}
    {t : SaeTemporaryData P} {rand rand' : Rand} (ht : s.tmp = some t) (hg : t.group = .ffc dh)
    (h : saePrepareCommit c addr1 addr2 password identifier s rand = .ok (true, s', rand')) :
    ∃ t' v pwe, s' = { s with tmp := some t' } ∧
      saeDerivePweFfcLoop c dh (saePwdSeedKey addr1 addr2) password identifier 200 1 v =
        (true, pwe) ∧
      ∀ u, FfcElement dh pwe u → ∃ r mask, FfcCommit dh pwe u r mask t' := by
  obtain ⟨t₁, rand₁, t', hderive, hcommit, rfl⟩ := saePrepareCommit_steps ht h
  simp only [saeDerivePwe] at hderive
  rw [hg] at hderive
  simp only [saeDerivePweFfc, Prod.mk.injEq] at hderive
  obtain ⟨hfound, rfl, rfl⟩ := hderive
  refine ⟨t', t.pweFfc.getD 0, _, rfl, Prod.ext hfound rfl, ?_⟩
  intro u hu
  exact saeDeriveCommit_ffc hdh hu (t := { t with pweFfc := some _ }) hg rfl hcommit

end Hostap
