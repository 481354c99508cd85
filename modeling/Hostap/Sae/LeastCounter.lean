import Hostap.Lib.FirstBits
import Hostap.Sae.CommitFormat
import Hostap.Sae.SmallCurve
import Mathlib.Tactic.IntervalCases

/-!
# The counter of the password element

`sae_derive_pwe_ecc()` runs at least forty rounds, from the first hit on with a random password,
and tests each candidate behind a random blinding value. This module says what it computes without
any of this: the candidate of a counter is the number the first bits of the KDF output write, and
the least counter whose candidate is below the prime with a square on the other side of the curve
equation is the one that counts.

Draws decide only whether the function can finish. `EnoughDraws` says that it can: a residue and a
non-residue come up, and after them a blinding value for each of the two hundred rounds.
-/

namespace Hostap

open Octets List

variable {P : Type}

/-! ## Candidates -/

/-- Block `i` of the KDF of IEEE 802.11, for an output of `bits` bits. -/
def kdfBlock (hmac : Bytes → Bytes → Bytes) (key label data : Bytes) (bits i : Nat) : Bytes :=
  hmac key (le16 (i % 65536) ++ label ++ data ++ le16 (bits % 65536))

/-- The first `n` blocks, from block `i` on. -/
def kdfBlocks (hmac : Bytes → Bytes → Bytes) (key label data : Bytes) (bits i n : Nat) : Bytes :=
  (List.range' i n).flatMap (kdfBlock hmac key label data bits)

def maxMinAddr (addr1 addr2 : Bytes) : Bytes :=
  if beNat addr2 < beNat addr1 then addr1 ++ addr2 else addr2 ++ addr1

/-- What the password and the two addresses give for a counter: the seed. -/
def saePwdSeed (c : CryptoLib P) (addr1 addr2 password : Bytes) (identifier : Option Bytes)
    (counter : Nat) : Bytes :=
  c.hmacSha256 (maxMinAddr addr1 addr2) (pwdSeedInput password identifier counter)

/-- The candidate of a seed: the first bits of the KDF output, as many as the prime has. -/
def pwdValue (c : CryptoLib P) (ec : CryptoEc P) (seed : Bytes) : Nat :=
  firstBits ec.primeLenBits
    (kdfBlocks c.hmacSha256 seed (label "SAE Hunting and Pecking") (natBe ec.primeLen ec.prime)
      ec.primeLenBits 1 (ec.primeLenBits / 256 + 1))

def CryptoEc.IsAbscissa (ec : CryptoEc P) [Fact ec.prime.Prime] (x : Nat) : Prop :=
  x < ec.prime ∧ legendreSym ec.prime (x ^ 3 + ec.a * x + ec.b : ℕ) = 1

/-- The least counter between 1 and 200 whose candidate is an x coordinate. -/
structure LeastCounter (c : CryptoLib P) (ec : CryptoEc P) [Fact ec.prime.Prime]
    (seed : Nat → Bytes) (counter : Nat) : Prop where
  pos : 1 ≤ counter
  le : counter ≤ 200
  hit : ec.IsAbscissa (pwdValue c ec (seed counter))
  least : ∀ i, 1 ≤ i → i < counter → ¬ ec.IsAbscissa (pwdValue c ec (seed i))

/-! ## Shifting a buffer -/

theorem shifted_octet {bits : Nat} (h1 : 1 ≤ bits) (h7 : bits ≤ 7) (prev b : UInt8) :
    (prev <<< UInt8.ofNat (8 - bits) ||| b >>> UInt8.ofNat bits).toNat =
      prev.toNat % 2 ^ bits * 2 ^ (8 - bits) + b.toNat / 2 ^ bits := by
  have hb : b.toNat / 2 ^ bits < 2 ^ (8 - bits) := by
    apply Nat.div_lt_of_lt_mul
    rw [← pow_add, Nat.add_sub_cancel' (by omega)]
    exact b.toNat_lt
  have hor := Nat.two_pow_add_eq_or_of_lt hb (prev.toNat % 2 ^ bits)
  rw [Nat.mul_comm] at hor
  rw [hor, UInt8.toNat_or, UInt8.toNat_shiftLeft, UInt8.toNat_shiftRight]
  have hprev := prev.toNat_lt
  interval_cases bits <;> simp [Nat.shiftLeft_eq, Nat.shiftRight_eq_div_pow] <;> congr 1 <;> omega

theorem beNat_bufShiftRightFrom {bits : Nat} (h1 : 1 ≤ bits) (h7 : bits ≤ 7) (prev : UInt8)
    (bs : Bytes) :
    beNat (bufShiftRightFrom bits prev bs) =
      (prev.toNat % 2 ^ bits * 256 ^ bs.length + beNat bs) / 2 ^ bits := by
  induction bs generalizing prev with
  | nil =>
    have hlt : prev.toNat % 2 ^ bits < 2 ^ bits := Nat.mod_lt _ (Nat.pow_pos (by decide))
    show 0 = (prev.toNat % 2 ^ bits * 1 + 0) / 2 ^ bits
    rw [Nat.mul_one, Nat.add_zero, Nat.div_eq_of_lt hlt]
  | cons b bs ih =>
    have hsplit : b.toNat = b.toNat / 2 ^ bits * 2 ^ bits + b.toNat % 2 ^ bits := by
      rw [Nat.mul_comm, Nat.div_add_mod]
    have hpow : (2 : Nat) ^ (8 - bits) * 2 ^ bits = 256 := by
      rw [← pow_add, Nat.sub_add_cancel (by omega)]
      rfl
    have hlen : (bufShiftRightFrom bits b bs).length = bs.length := bufShiftRightFrom_length bits b bs
    -- the bits that are pushed out of one octet come first in the next one
    have hsum : prev.toNat % 2 ^ bits * 256 ^ (bs.length + 1) + (b.toNat * 256 ^ bs.length + beNat bs) =
        2 ^ bits * ((prev.toNat % 2 ^ bits * 2 ^ (8 - bits) + b.toNat / 2 ^ bits) * 256 ^ bs.length) +
          (b.toNat % 2 ^ bits * 256 ^ bs.length + beNat bs) := by
      conv_lhs => rw [hsplit, pow_succ]
      generalize 256 ^ bs.length = w
      rw [← hpow]
      ring
    show beNat (_ :: bufShiftRightFrom bits b bs) = _
    rw [beNat_cons, hlen, ih, shifted_octet h1 h7, beNat_cons, length_cons, hsum,
      Nat.mul_add_div (Nat.pow_pos (by decide))]

/-- **`buf_shift_right()`** divides the number in the buffer. -/
theorem beNat_bufShiftRight {bits : Nat} (h1 : 1 ≤ bits) (h7 : bits ≤ 7) (bs : Bytes) :
    beNat (bufShiftRight bits bs) = beNat bs / 2 ^ bits := by
  cases bs with
  | nil =>
    show 0 = 0 / 2 ^ bits
    rw [Nat.zero_div]
  | cons b bs =>
    -- there is nothing before the first octet
    have hzero : bufShiftRight bits (b :: bs) = bufShiftRightFrom bits 0 (b :: bs) := by
      have hb : (0 : UInt8) <<< UInt8.ofNat (8 - bits) ||| b >>> UInt8.ofNat bits =
          b >>> UInt8.ofNat bits := by simp
      show b >>> UInt8.ofNat bits :: _ = _ :: _
      rw [hb]
    rw [hzero, beNat_bufShiftRightFrom h1 h7]
    congr 1
    show 0 % 2 ^ bits * _ + _ = _
    rw [Nat.zero_mod, Nat.zero_mul, Nat.zero_add]

theorem beNat_trimBits {bits : Nat} {bs : Bytes} (hlen : bs.length = (bits + 7) / 8) :
    beNat (trimBits bits bs) = firstBits bits bs := by
  unfold trimBits firstBits
  rw [hlen]
  split
  · rename_i h0
    rw [show 8 * ((bits + 7) / 8) - bits = 0 by omega, pow_zero, Nat.div_one]
  · rename_i h0
    rw [show 8 * ((bits + 7) / 8) - bits = 8 - bits % 8 by omega]
    apply beNat_bufShiftRight <;> omega

/-! ## The KDF -/

theorem kdfBlocks_length (c : CryptoLib P) (key label data : Bytes) (bits i n : Nat) :
    (kdfBlocks c.hmacSha256 key label data bits i n).length = 32 * n := by
  induction n generalizing i with
  | zero => rfl
  | succ n ih =>
    show (kdfBlock c.hmacSha256 key label data bits i ++
      kdfBlocks c.hmacSha256 key label data bits (i + 1) n).length = _
    rw [length_append, ih, kdfBlock, c.hmacSha256_length]
    omega

theorem sha256PrfLoop_eq (c : CryptoLib P) (key label data : Bytes) (bits : Nat)
    {fuel left : Nat} (i n : Nat) (hfuel : left ≤ fuel) (hn : left ≤ 32 * n) :
    sha256PrfLoop c.hmacSha256 key label data bits fuel i left =
      (kdfBlocks c.hmacSha256 key label data bits i n).take left := by
  induction fuel generalizing left i n with
  | zero =>
    have hleft : left = 0 := by omega
    rw [hleft]
    rfl
  | succ fuel ih =>
    unfold sha256PrfLoop
    split
    · rename_i hleft
      rw [hleft]
      rfl
    · rename_i hleft
      cases n with
      | zero => omega
      | succ n =>
        have hblock : (kdfBlock c.hmacSha256 key label data bits i).length = 32 :=
          c.hmacSha256_length _ _
        have hblocks : kdfBlocks c.hmacSha256 key label data bits i (n + 1) =
            kdfBlock c.hmacSha256 key label data bits i ++
              kdfBlocks c.hmacSha256 key label data bits (i + 1) n := rfl
        rw [hblocks, take_append, hblock]
        split
        · rename_i hwhole
          have hge : 32 ≤ left := hwhole
          rw [ih (i + 1) n (by show left - 32 ≤ fuel; omega) (by show left - 32 ≤ 32 * n; omega),
            take_of_length_le (l := kdfBlock c.hmacSha256 key label data bits i) (by omega)]
          rfl
        · rename_i hpart
          have hlt : left < 32 := by
            have h : ¬ 32 ≤ left := hpart
            omega
          rw [show left - 32 = 0 by omega, take_zero, append_nil]
          rfl

theorem masked_octet {k : Nat} (h1 : 1 ≤ k) (h7 : k ≤ 7) (x : UInt8) :
    (x &&& UInt8.ofNat (255 * 2 ^ k)).toNat / 2 ^ k = x.toNat / 2 ^ k := by
  have hmask : (UInt8.ofNat (255 * 2 ^ k)).toNat / 2 ^ k = 2 ^ (8 - k) - 1 := by
    interval_cases k <;> rfl
  have hx : x.toNat / 2 ^ k < 2 ^ (8 - k) := by
    apply Nat.div_lt_of_lt_mul
    rw [← pow_add, Nat.add_sub_cancel' (by omega)]
    exact x.toNat_lt
  rw [UInt8.toNat_and, ← Nat.shiftRight_eq_div_pow, Nat.shiftRight_and_distrib,
    Nat.shiftRight_eq_div_pow, Nat.shiftRight_eq_div_pow, hmask, Nat.and_two_pow_sub_one_eq_mod,
    Nat.mod_eq_of_lt hx]

theorem firstBits_maskLastOctet {bits : Nat} {buf : Bytes} (hlen : buf.length = (bits + 7) / 8) :
    firstBits bits (maskLastOctet bits buf) = firstBits bits buf := by
  unfold maskLastOctet
  split
  · rfl
  · rename_i h0
    have hne : buf ≠ [] := by
      rintro rfl
      have hzero : 0 = (bits + 7) / 8 := hlen
      omega
    have hlast : buf.getLastD 0 = buf.getLast hne := getLastD_eq_getLast?.trans (by
      rw [getLast?_eq_some_getLast hne]
      rfl)
    conv_rhs => rw [← dropLast_append_getLast hne]
    rw [hlast]
    apply firstBits_last (k := 8 - bits % 8) (by omega)
    · rw [length_dropLast, hlen]
      omega
    · exact (masked_octet (by omega) (by omega) _).trans rfl

theorem firstBits_sha256PrfBits (c : CryptoLib P) (key label data : Bytes) (bits : Nat) :
    (sha256PrfBits c.hmacSha256 key label data bits).length = (bits + 7) / 8 ∧
      firstBits bits (sha256PrfBits c.hmacSha256 key label data bits) =
        firstBits bits (kdfBlocks c.hmacSha256 key label data bits 1 (bits / 256 + 1)) := by
  have hneed : (bits + 7) / 8 ≤ 32 * (bits / 256 + 1) := by omega
  have hloop := sha256PrfLoop_eq c key label data bits 1 _ le_rfl hneed
  have hblocks := kdfBlocks_length c key label data bits 1 (bits / 256 + 1)
  have hlen : (sha256PrfLoop c.hmacSha256 key label data bits ((bits + 7) / 8) 1
      ((bits + 7) / 8)).length = (bits + 7) / 8 := by
    rw [hloop, length_take_of_le (by omega)]
  refine ⟨?_, ?_⟩
  · show (maskLastOctet bits _).length = _
    unfold maskLastOctet
    split
    · exact hlen
    · rw [length_append, length_dropLast, hlen, length_singleton]
      omega
  · show firstBits bits (maskLastOctet bits _) = _
    rw [firstBits_maskLastOctet hlen, hloop, firstBits_take (by omega) (by omega)]

/-! ## The test of a candidate -/

theorem saePwdSeedKey_eq {addr1 addr2 : Bytes} (hlen : addr1.length = addr2.length) :
    saePwdSeedKey addr1 addr2 = maxMinAddr addr1 addr2 := by
  unfold saePwdSeedKey maxMinAddr
  simp only [memcmp_gt_iff hlen]

theorem bnModAddQuick_mod (a b m : Nat) : bnModAddQuick a b m % m = (a + b) % m := by
  unfold bnModAddQuick
  split
  · rename_i h
    exact (Nat.mod_eq_sub_mod h).symm
  · rfl

theorem pointComputeYSqr_mod (ec : CryptoEc P) (x : Nat) :
    ec.pointComputeYSqr x % ec.prime = (x ^ 3 + ec.a * x + ec.b) % ec.prime := by
  have hinner : bnModAddQuick (ec.a * x % ec.prime) (x * x % ec.prime * x % ec.prime) ec.prime %
      ec.prime = (ec.a * x + x * x * x) % ec.prime := by
    rw [bnModAddQuick_mod]
    simp [Nat.add_mod, Nat.mul_mod]
  unfold CryptoEc.pointComputeYSqr
  rw [bnModAddQuick_mod, Nat.add_mod, hinner, ← Nat.add_mod]
  congr 1
  ring

section Prime

variable {c : CryptoLib P} {ec : CryptoEc P} [Fact ec.prime.Prime]

theorem legendre_ySqr_iff (hodd : ec.prime ≠ 2) (x : Nat) :
    cryptoBignumLegendre (ec.pointComputeYSqr x) ec.prime = 1 ↔
      legendreSym ec.prime (x ^ 3 + ec.a * x + ec.b : ℕ) = 1 := by
  rw [cryptoBignumLegendre_eq hodd, ← legendreSym_mod, pointComputeYSqr_mod, legendreSym_mod]

/-- **The test of a seed** finds its candidate, when it is an x coordinate. -/
theorem eccSeedValue_cases (hodd : ec.prime ≠ 2) (seed : Bytes) :
    (ec.IsAbscissa (pwdValue c ec seed) ∧
      eccSeedValue c ec seed (natBe ec.primeLen ec.prime) = some (pwdValue c ec seed)) ∨
    (¬ ec.IsAbscissa (pwdValue c ec seed) ∧
      eccSeedValue c ec seed (natBe ec.primeLen ec.prime) = none) := by
  obtain ⟨hlen, hbits⟩ := firstBits_sha256PrfBits c seed (label "SAE Hunting and Pecking")
    (natBe ec.primeLen ec.prime) ec.primeLenBits
  have hvalue : beNat (trimBits ec.primeLenBits (sha256PrfBits c.hmacSha256 seed
      (label "SAE Hunting and Pecking") (natBe ec.primeLen ec.prime) ec.primeLenBits)) =
      pwdValue c ec seed := by
    rw [beNat_trimBits hlen, hbits]
    rfl
  have hprime : beNat (natBe ec.primeLen ec.prime) = ec.prime :=
    beNat_natBe (lt_pow_numBytes ec.prime)
  have hiff : (memcmp (trimBits ec.primeLenBits (sha256PrfBits c.hmacSha256 seed
      (label "SAE Hunting and Pecking") (natBe ec.primeLen ec.prime) ec.primeLenBits))
      (natBe ec.primeLen ec.prime) = .lt ∧
      cryptoBignumLegendre (ec.pointComputeYSqr (pwdValue c ec seed)) ec.prime = 1) ↔
      ec.IsAbscissa (pwdValue c ec seed) := by
    rw [memcmp_lt_iff (by rw [trimBits_length, hlen, natBe_length]; rfl), hvalue, hprime,
      legendre_ySqr_iff hodd]
    rfl
  unfold eccSeedValue
  dsimp only
  rw [hvalue]
  by_cases hab : ec.IsAbscissa (pwdValue c ec seed)
  · exact .inl ⟨hab, if_pos (hiff.mpr hab)⟩
  · exact .inr ⟨hab, if_neg fun h => hab (hiff.mp h)⟩

/-- The parity of the y coordinate: the last bit of the seed. -/
def seedOdd (seed : Bytes) : Bool := seed.getLastD 0 &&& 1 = 1

theorem huntEcc_cases (c : CryptoLib P) (hodd : ec.prime ≠ 2) {addr1 addr2 : Bytes} (password : Bytes)
    (identifier : Option Bytes) (hlen : addr1.length = addr2.length) (fuel counter : Nat) :
    (∃ i, counter ≤ i ∧ i < counter + fuel ∧
      ec.IsAbscissa (pwdValue c ec (saePwdSeed c addr1 addr2 password identifier i)) ∧
      (∀ j, counter ≤ j → j < i →
        ¬ ec.IsAbscissa (pwdValue c ec (saePwdSeed c addr1 addr2 password identifier j))) ∧
      huntEcc c ec (saePwdSeedKey addr1 addr2) (natBe ec.primeLen ec.prime) password identifier
        fuel counter = some (pwdValue c ec (saePwdSeed c addr1 addr2 password identifier i),
          seedOdd (saePwdSeed c addr1 addr2 password identifier i))) ∨
    ((∀ i, counter ≤ i → i < counter + fuel →
        ¬ ec.IsAbscissa (pwdValue c ec (saePwdSeed c addr1 addr2 password identifier i))) ∧
      huntEcc c ec (saePwdSeedKey addr1 addr2) (natBe ec.primeLen ec.prime) password identifier
        fuel counter = none) := by
  induction fuel generalizing counter with
  | zero =>
    refine .inr ⟨fun i h1 h2 => ?_, rfl⟩
    omega
  | succ fuel ih =>
    have hseed : c.hmacSha256 (saePwdSeedKey addr1 addr2)
        (pwdSeedInput password identifier counter) =
        saePwdSeed c addr1 addr2 password identifier counter := by
      rw [saePwdSeedKey_eq hlen]
      rfl
    unfold huntEcc
    rw [hseed]
    rcases eccSeedValue_cases (c := c) hodd (saePwdSeed c addr1 addr2 password identifier counter) with
      ⟨hhit, heq⟩ | ⟨hno, heq⟩
    · refine .inl ⟨counter, le_rfl, by omega, hhit, fun j h1 h2 => by omega, ?_⟩
      dsimp only
      rw [heq]
      rfl
    · dsimp only
      rw [heq]
      -- no hit here: the rest decides
      rcases ih (counter + 1) with ⟨i, h1, h2, hhit, hleast, hres⟩ | ⟨hnone, hres⟩
      · refine .inl ⟨i, by omega, by omega, hhit, fun j hj1 hj2 => ?_, hres⟩
        rcases Nat.eq_or_lt_of_le hj1 with rfl | hlt
        · exact hno
        · exact hleast j hlt hj2
      · refine .inr ⟨fun i h1 h2 => ?_, hres⟩
        rcases Nat.eq_or_lt_of_le h1 with rfl | hlt
        · exact hno
        · exact hnone i hlt (by omega)

/-! ## Draws -/

/-- The number a draw stands for: as many bits as the prime has. -/
def drawnNumber (ec : CryptoEc P) (draw : Nat → UInt8) : Nat :=
  beNat (trimBits ec.primeLenBits ((List.range ec.primeLen).map draw))

def Blinds (ec : CryptoEc P) (draw : Nat → UInt8) : Bool :=
  decide (drawnNumber ec draw ≠ 0 ∧ drawnNumber ec draw < ec.prime)

/-- One of the draws is a number below the prime with this Legendre symbol. -/
def SomeLegendre (ec : CryptoEc P) [Fact ec.prime.Prime] (draws : List (Nat → UInt8)) (l : Int) : Prop :=
  ∃ draw ∈ draws, drawnNumber ec draw < ec.prime ∧ legendreSym ec.prime (drawnNumber ec draw) = l

/-- The random source answers often enough for `sae_derive_pwe_ecc()` to end: with the dummy
password, with a residue and a non-residue, and with a blinding value for each round. -/
structure EnoughDraws (ec : CryptoEc P) [Fact ec.prime.Prime] (rand : Rand) : Prop where
  draws : ∃ dummy first rest more, rand = some dummy :: ((first ++ rest).map some ++ more) ∧
    SomeLegendre ec first 1 ∧ SomeLegendre ec first (-1) ∧ 200 ≤ rest.countP (Blinds ec)

omit [Fact ec.prime.Prime] in
theorem drawn_lt_iff {prime : Bytes} (hplen : prime.length = ec.primeLen)
    (hprime : beNat prime = ec.prime) (draw : Nat → UInt8) :
    memcmp (trimBits ec.primeLenBits ((List.range prime.length).map draw)) prime = .lt ↔
      drawnNumber ec draw < ec.prime := by
  rw [memcmp_lt_iff (by rw [trimBits_length, length_map, length_range]), hprime, hplen]
  rfl

theorem getRandomQrQnr_cons (hodd : ec.prime ≠ 2) {prime : Bytes}
    (hplen : prime.length = ec.primeLen) (hprime : beNat prime = ec.prime) {qr? qnr? : Option Nat}
    (hmissing : ¬ (qr?.isSome ∧ qnr?.isSome)) (draw : Nat → UInt8) (rand : Rand) :
    ∃ qr₁ qnr₁, getRandomQrQnr ec.prime prime ec.primeLenBits qr? qnr? (some draw :: rand) =
        getRandomQrQnr ec.prime prime ec.primeLenBits qr₁ qnr₁ rand ∧
      (qr₁.isSome ↔ qr?.isSome ∨ (drawnNumber ec draw < ec.prime ∧
        legendreSym ec.prime (drawnNumber ec draw) = 1)) ∧
      (qnr₁.isSome ↔ qnr?.isSome ∨ (drawnNumber ec draw < ec.prime ∧
        legendreSym ec.prime (drawnNumber ec draw) = -1)) := by
  have hlt := drawn_lt_iff hplen hprime draw
  have hround : getRandomQrQnr ec.prime prime ec.primeLenBits qr? qnr? (some draw :: rand) =
      if memcmp (trimBits ec.primeLenBits ((List.range prime.length).map draw)) prime ≠ .lt then
        getRandomQrQnr ec.prime prime ec.primeLenBits qr? qnr? rand
      else if cryptoBignumLegendre (drawnNumber ec draw) ec.prime = 1 ∧ qr?.isNone then
        getRandomQrQnr ec.prime prime ec.primeLenBits (some (drawnNumber ec draw)) qnr? rand
      else if cryptoBignumLegendre (drawnNumber ec draw) ec.prime = -1 ∧ qnr?.isNone then
        getRandomQrQnr ec.prime prime ec.primeLenBits qr? (some (drawnNumber ec draw)) rand
      else
        getRandomQrQnr ec.prime prime ec.primeLenBits qr? qnr? rand := by
    unfold drawnNumber
    rw [← hplen]
    cases qr? with
    | none => cases qnr? <;> rfl
    | some qr =>
      cases qnr? with
      | none => rfl
      | some qnr => exact absurd ⟨rfl, rfl⟩ hmissing
  have hlegendre := cryptoBignumLegendre_eq hodd (drawnNumber ec draw)
  rw [hround, hlegendre]
  generalize legendreSym ec.prime (drawnNumber ec draw) = l
  split
  · rename_i hge
    have hno : ¬ drawnNumber ec draw < ec.prime := fun h => hge (hlt.mpr h)
    exact ⟨qr?, qnr?, rfl, by simp [hno], by simp [hno]⟩
  rename_i hlow
  have hyes : drawnNumber ec draw < ec.prime := hlt.mp (not_not.mp hlow)
  split
  · rename_i hone
    exact ⟨some (drawnNumber ec draw), qnr?, rfl, by simp [hyes, hone.1], by simp [hone.1]⟩
  rename_i hone
  split
  · rename_i hneg
    exact ⟨qr?, some (drawnNumber ec draw), rfl, by simp [hneg.1], by simp [hyes, hneg.1]⟩
  rename_i hneg
  -- what it has is not missing
  refine ⟨qr?, qnr?, rfl, ?_, ?_⟩
  · cases qr? with
    | none => simpa using fun _ h => hone ⟨h, rfl⟩
    | some qr => simp
  · cases qnr? with
    | none => simpa using fun _ h => hneg ⟨h, rfl⟩
    | some qnr => simp

theorem getRandomQrQnr_some (hodd : ec.prime ≠ 2) {prime : Bytes}
    (hplen : prime.length = ec.primeLen) (hprime : beNat prime = ec.prime) (qr? qnr? : Option Nat)
    {first : List (Nat → UInt8)} (more : Rand) (hqr : qr?.isSome ∨ SomeLegendre ec first 1)
    (hqnr : qnr?.isSome ∨ SomeLegendre ec first (-1)) :
    ∃ (q : Nat × Nat) (left : List (Nat → UInt8)),
      getRandomQrQnr ec.prime prime ec.primeLenBits qr? qnr? (first.map some ++ more) =
        (some q, left.map some ++ more) := by
  induction first generalizing qr? qnr? with
  | nil =>
    -- there is nothing to draw from, so both have been found
    have hnone : ∀ l, ¬ SomeLegendre ec [] l := by
      rintro l ⟨draw, hmem, -⟩
      exact absurd hmem not_mem_nil
    obtain ⟨qr, hqr⟩ := Option.isSome_iff_exists.mp (hqr.resolve_right (hnone 1))
    obtain ⟨qnr, hqnr⟩ := Option.isSome_iff_exists.mp (hqnr.resolve_right (hnone (-1)))
    rw [hqr, hqnr]
    exact ⟨(qr, qnr), [], by unfold getRandomQrQnr; rfl⟩
  | cons draw first ih =>
    by_cases hdone : qr?.isSome ∧ qnr?.isSome
    · obtain ⟨qr, hqr⟩ := Option.isSome_iff_exists.mp hdone.1
      obtain ⟨qnr, hqnr⟩ := Option.isSome_iff_exists.mp hdone.2
      rw [hqr, hqnr]
      exact ⟨(qr, qnr), draw :: first, by unfold getRandomQrQnr; rfl⟩
    · -- what this draw does not have comes later
      have hlater : ∀ l, SomeLegendre ec (draw :: first) l →
          (drawnNumber ec draw < ec.prime ∧ legendreSym ec.prime (drawnNumber ec draw) = l) ∨
            SomeLegendre ec first l := by
        rintro l ⟨d, hmem, hd⟩
        rcases mem_cons.mp hmem with rfl | hmem
        · exact .inl hd
        · exact .inr ⟨d, hmem, hd⟩
      obtain ⟨qr₁, qnr₁, hround, h1, h2⟩ := getRandomQrQnr_cons hodd hplen hprime hdone draw
        (first.map some ++ more)
      show ∃ (q : Nat × Nat) (left : List (Nat → UInt8)),
        getRandomQrQnr ec.prime prime ec.primeLenBits qr? qnr? (some draw :: (first.map some ++ more)) =
          (some q, left.map some ++ more)
      rw [hround]
      apply ih
      · rw [h1]
        rcases hqr with h | h
        · exact .inl (.inl h)
        · exact (hlater 1 h).imp .inr id
      · rw [h2]
        rcases hqnr with h | h
        · exact .inl (.inl h)
        · exact (hlater (-1) h).imp .inr id

omit [Fact ec.prime.Prime] in
theorem getRand1ToP1_some {prime : Bytes} (hplen : prime.length = ec.primeLen)
    (hprime : beNat prime = ec.prime) {draws : List (Nat → UInt8)} (more : Rand)
    (huse : 0 < draws.countP (Blinds ec)) :
    ∃ (r : Nat × Bool) (left : List (Nat → UInt8)),
      getRand1ToP1 prime ec.primeLenBits (draws.map some ++ more) = (some r, left.map some ++ more) ∧
        draws.countP (Blinds ec) ≤ left.countP (Blinds ec) + 1 := by
  induction draws with
  | nil => exact absurd huse (Nat.lt_irrefl 0)
  | cons draw draws ih =>
    have hlt := drawn_lt_iff hplen hprime draw
    have hnum : beNat (trimBits ec.primeLenBits ((List.range prime.length).map draw)) =
        drawnNumber ec draw := by
      rw [hplen]
      rfl
    have hcount := countP_cons (p := Blinds ec) (a := draw) (l := draws)
    -- a draw that is passed over was not usable
    have hskip : ¬ (drawnNumber ec draw ≠ 0 ∧ drawnNumber ec draw < ec.prime) →
        (draw :: draws).countP (Blinds ec) = draws.countP (Blinds ec) := by
      intro hno
      rw [hcount, if_neg (by simpa [Blinds] using hno), Nat.add_zero]
    show ∃ (r : Nat × Bool) (left : List (Nat → UInt8)),
      getRand1ToP1 prime ec.primeLenBits (some draw :: (draws.map some ++ more)) =
        (some r, left.map some ++ more) ∧ _
    unfold getRand1ToP1
    dsimp only
    rw [hnum]
    split
    · rename_i hge
      have hsame := hskip fun h => hge (hlt.mpr h.2)
      rw [hsame] at huse ⊢
      exact ih huse
    · split
      · rename_i hzero
        have hsame := hskip fun h => h.1 hzero
        rw [hsame] at huse ⊢
        exact ih huse
      · refine ⟨_, draws, rfl, ?_⟩
        rw [hcount]
        split <;> omega

omit [Fact ec.prime.Prime] in
theorem isQuadraticResidueBlind_some {prime : Bytes} (hplen : prime.length = ec.primeLen)
    (hprime : beNat prime = ec.prime) {draws : List (Nat → UInt8)} (more : Rand)
    (huse : 0 < draws.countP (Blinds ec)) (qr qnr ySqr : Nat) :
    ∃ (b : Bool) (left : List (Nat → UInt8)),
      isQuadraticResidueBlind ec.prime prime ec.primeLenBits qr qnr ySqr (draws.map some ++ more) =
        (some b, left.map some ++ more) ∧
      draws.countP (Blinds ec) ≤ left.countP (Blinds ec) + 1 := by
  obtain ⟨⟨r, rOdd⟩, left, hdraw, hcount⟩ := getRand1ToP1_some hplen hprime more huse
  unfold isQuadraticResidueBlind
  rw [hdraw]
  cases rOdd with
  | true => exact ⟨_, left, rfl, hcount⟩
  | false => exact ⟨_, left, rfl, hcount⟩

omit [Fact ec.prime.Prime] in
theorem saeTestPwdSeedEcc_some {prime : Bytes} (hplen : prime.length = ec.primeLen)
    (hprime : beNat prime = ec.prime) {draws : List (Nat → UInt8)} (more : Rand)
    (huse : 0 < draws.countP (Blinds ec)) (seed : Bytes) (qr qnr : Nat) :
    ∃ (res : SeedTest) (left : List (Nat → UInt8)), res ≠ .failed ∧
      saeTestPwdSeedEcc c ec seed prime qr qnr (draws.map some ++ more) =
        (res, left.map some ++ more) ∧
      draws.countP (Blinds ec) ≤ left.countP (Blinds ec) + 1 := by
  unfold saeTestPwdSeedEcc
  dsimp only
  split
  · exact ⟨.no, draws, SeedTest.noConfusion, rfl, Nat.le_succ _⟩
  · obtain ⟨b, left, hblind, hcount⟩ := isQuadraticResidueBlind_some hplen hprime more huse qr qnr
      (ec.pointComputeYSqr (beNat (trimBits ec.primeLenBits (sha256PrfBits c.hmacSha256 seed
        (label "SAE Hunting and Pecking") prime ec.primeLenBits))))
    rw [hblind]
    cases b with
    | true => exact ⟨.yes _, left, SeedTest.noConfusion, rfl, hcount⟩
    | false => exact ⟨.no, left, SeedTest.noConfusion, rfl, hcount⟩

omit [Fact ec.prime.Prime] in
theorem saeDerivePweEccLoop_some {prime : Bytes} (hplen : prime.length = ec.primeLen)
    (hprime : beNat prime = ec.prime) (more : Rand) (addrs dummy : Bytes)
    (identifier : Option Bytes) (qr qnr : Nat) {draws : List (Nat → UInt8)} {fuel : Nat}
    (huse : fuel ≤ draws.countP (Blinds ec)) (counter : Nat) (x : Option (Nat × Bool))
    (password : Bytes) :
    ∃ (r : Option (Nat × Bool)) (rand' : Rand),
      saeDerivePweEccLoop c ec addrs prime qr qnr identifier dummy fuel counter x password
        (draws.map some ++ more) = (some r, rand') := by
  induction fuel generalizing counter x password draws with
  | zero => exact ⟨x, _, rfl⟩
  | succ fuel ih =>
    unfold saeDerivePweEccLoop
    split
    · exact ⟨x, _, rfl⟩
    · obtain ⟨res, left, hres, htest, hcount⟩ := saeTestPwdSeedEcc_some (c := c) hplen hprime more
        (show 0 < draws.countP (Blinds ec) by omega)
        (c.hmacSha256 addrs (pwdSeedInput password identifier counter)) qr qnr
      have hleft : fuel ≤ left.countP (Blinds ec) := by omega
      dsimp only
      rw [htest]
      cases res with
      | failed => exact absurd rfl hres
      | no => exact ih hleft (counter + 1) x password
      | yes xCand =>
        cases x with
        | none => exact ih hleft (counter + 1) _ dummy
        | some v => exact ih hleft (counter + 1) (some v) password

/-! ## The password element -/

/-- What the point solver leaves of the temporary data for an x coordinate and a parity. -/
def pweSolved (ec : CryptoEc P) (t : SaeTemporaryData P) (x : Nat) (odd : Bool) :
    Bool × SaeTemporaryData P :=
  match ec.pointSolveYCoord x odd with
  | some pwe => (true, { t with pweEcc := some pwe })
  | none => (false, { t with pweEcc := some (t.pweEcc.getD ec.pointInit) })

/-- The password element comes from the least counter, when there is one. -/
inductive PweOfCounter (c : CryptoLib P) (ec : CryptoEc P) [Fact ec.prime.Prime]
    (seed : Nat → Bytes) (t : SaeTemporaryData P) : Bool × SaeTemporaryData P → Prop
  | solved (counter : Nat) (hleast : LeastCounter c ec seed counter) :
    PweOfCounter c ec seed t
      (pweSolved ec t (pwdValue c ec (seed counter)) (seedOdd (seed counter)))
  | failed (hnone : ∀ counter, ¬ LeastCounter c ec seed counter) : PweOfCounter c ec seed t (false, t)

theorem LeastCounter.unique {seed : Nat → Bytes} {i j : Nat} (hi : LeastCounter c ec seed i)
    (hj : LeastCounter c ec seed j) : i = j := by
  rcases Nat.lt_trichotomy i j with hlt | heq | hgt
  · exact absurd hi.hit (hj.least i hi.pos hlt)
  · exact heq
  · exact absurd hj.hit (hi.least j hj.pos hgt)

theorem PweOfCounter.unique {seed : Nat → Bytes} {t : SaeTemporaryData P}
    {r r' : Bool × SaeTemporaryData P} (h : PweOfCounter c ec seed t r)
    (h' : PweOfCounter c ec seed t r') : r = r' := by
  cases h with
  | solved i hi =>
    cases h' with
    | solved j hj => rw [hi.unique hj]
    | failed hnone => exact absurd hi (hnone i)
  | failed hnone =>
    cases h' with
    | solved j hj => exact absurd hj (hnone j)
    | failed _ => rfl

theorem PweOfCounter.failed_iff {seed : Nat → Bytes} {t : SaeTemporaryData P}
    {r : Bool × SaeTemporaryData P} (h : PweOfCounter c ec seed t r)
    (hsolve : ∀ x odd, ec.IsAbscissa x → (ec.pointSolveYCoord x odd).isSome) :
    r.1 = false ↔ ∀ counter, ¬ LeastCounter c ec seed counter := by
  cases h with
  | solved counter hleast =>
    obtain ⟨pwe, hpwe⟩ := Option.isSome_iff_exists.mp (hsolve _ (seedOdd (seed counter)) hleast.hit)
    have hfound : (pweSolved ec t (pwdValue c ec (seed counter)) (seedOdd (seed counter))).1 = true := by
      unfold pweSolved
      rw [hpwe]
    rw [hfound]
    exact ⟨Bool.noConfusion, fun hnone => absurd hleast (hnone counter)⟩
  | failed hnone => exact ⟨fun _ => hnone, fun _ => rfl⟩

theorem huntEcc_least (hodd : ec.prime ≠ 2) {addr1 addr2 : Bytes} (password : Bytes)
    (identifier : Option Bytes) (hlen : addr1.length = addr2.length) (t : SaeTemporaryData P) :
    PweOfCounter c ec (saePwdSeed c addr1 addr2 password identifier) t
      ((huntEcc c ec (saePwdSeedKey addr1 addr2) (natBe ec.primeLen ec.prime) password identifier
        200 1).elim (false, t) fun r => pweSolved ec t r.1 r.2) := by
  rcases huntEcc_cases c hodd password identifier hlen 200 1 with
    ⟨i, hpos, hle, hhit, hleast, hres⟩ | ⟨hnone, hres⟩
  · rw [hres]
    exact .solved i ⟨hpos, by omega, hhit, hleast⟩
  · rw [hres]
    refine .failed fun i hi => hnone i hi.pos ?_ hi.hit
    have hle := hi.le
    omega

omit [Fact ec.prime.Prime] in
theorem maxMinAddr_comm {addr1 addr2 : Bytes} (hlen : addr1.length = addr2.length) :
    maxMinAddr addr1 addr2 = maxMinAddr addr2 addr1 := by
  rw [← saePwdSeedKey_eq hlen, ← saePwdSeedKey_eq hlen.symm, saePwdSeedKey_comm hlen]

theorem EnoughDraws.ends (hodd : ec.prime ≠ 2) {rand : Rand} (h : EnoughDraws ec rand) {prime : Bytes}
    (hlen : prime.length = ec.primeLen) (hprime : beNat prime = ec.prime) (addrs password : Bytes)
    (identifier : Option Bytes) (n : Nat) :
    ∃ (dummy : Bytes) (rand₁ : Rand) (qr qnr : Nat) (rand₂ : Rand) (r : Option (Nat × Bool))
      (rand₃ : Rand), randomGetBytes n rand = (some dummy, rand₁) ∧
      getRandomQrQnr ec.prime prime ec.primeLenBits none none rand₁ = (some (qr, qnr), rand₂) ∧
      saeDerivePweEccLoop c ec addrs prime qr qnr identifier dummy 200 1 none password rand₂ =
        (some r, rand₃) := by
  obtain ⟨dummy, first, rest, more, hrand, hqr, hqnr, huse⟩ := h.draws
  obtain ⟨⟨qr, qnr⟩, left, hq⟩ := getRandomQrQnr_some hodd hlen hprime none none
    (rest.map some ++ more) (.inr hqr) (.inr hqnr)
  -- what is left after the residues is enough for the rounds
  have huse' : 200 ≤ (left ++ rest).countP (Blinds ec) := by
    rw [countP_append]
    omega
  obtain ⟨r, rand₃, hloop⟩ := saeDerivePweEccLoop_some (c := c) hlen hprime more addrs
    ((List.range n).map dummy) identifier qr qnr huse' 1 none password
  rw [map_append, append_assoc] at hloop
  refine ⟨(List.range n).map dummy, first.map some ++ (rest.map some ++ more), qr, qnr,
    left.map some ++ (rest.map some ++ more), r, rand₃, ?_, hq, hloop⟩
  rw [hrand, map_append, append_assoc]
  rfl

/-- What `sae_derive_pwe_ecc()` returns, and the temporary data it leaves. -/
def pweResult (c : CryptoLib P) (ec : CryptoEc P) (addr1 addr2 password : Bytes)
    (identifier : Option Bytes) (t : SaeTemporaryData P) (rand : Rand) : Bool × SaeTemporaryData P :=
  ((saeDerivePweEcc c ec addr1 addr2 password identifier t rand).1,
    (saeDerivePweEcc c ec addr1 addr2 password identifier t rand).2.1)

theorem pweResult_hunt (hodd : ec.prime ≠ 2) (hplen : ec.primeLen ≤ saeMaxEccPrimeLen)
    (addr1 addr2 password : Bytes) (identifier : Option Bytes) (t : SaeTemporaryData P) (rand : Rand) :
    (pweResult c ec addr1 addr2 password identifier t rand = (false, t) ∧ ¬ EnoughDraws ec rand) ∨
      pweResult c ec addr1 addr2 password identifier t rand =
        (huntEcc c ec (saePwdSeedKey addr1 addr2) (natBe ec.primeLen ec.prime) password identifier
          200 1).elim (false, t) fun r => pweSolved ec t r.1 r.2 := by
  have hlen : (natBe ec.primeLen ec.prime).length = ec.primeLen := natBe_length _ _
  have hprime : beNat (natBe ec.primeLen ec.prime) = ec.prime :=
    beNat_natBe (lt_pow_numBytes ec.prime)
  have hbin : cryptoBignumToBin ec.prime saeMaxEccPrimeLen ec.primeLen =
      some (natBe ec.primeLen ec.prime) := by
    have hle : numBytes ec.prime ≤ saeMaxEccPrimeLen := hplen
    unfold cryptoBignumToBin CryptoEc.primeLen
    rw [if_neg (by omega), if_neg (by omega), Nat.sub_self]
    rfl
  have hends : EnoughDraws ec rand → _ := fun h =>
    h.ends (c := c) hodd hlen hprime (saePwdSeedKey addr1 addr2) password identifier
      (min password.length 32)
  unfold pweResult saeDerivePweEcc
  split
  · rename_i hdummy
    refine .inl ⟨rfl, fun h => ?_⟩
    obtain ⟨_, _, _, _, _, _, _, hdummy', -⟩ := hends h
    cases hdummy.symm.trans hdummy'
  rename_i dummyPassword rand₁ hdummy
  rw [hbin]
  dsimp only
  split
  · rename_i hq
    refine .inl ⟨rfl, fun h => ?_⟩
    obtain ⟨_, _, _, _, _, _, _, hdummy', hq', -⟩ := hends h
    cases hdummy.symm.trans hdummy'
    cases hq.symm.trans hq'
  rename_i qr qnr rand₂ hq
  split
  · rename_i hloop
    refine .inl ⟨rfl, fun h => ?_⟩
    obtain ⟨_, _, _, _, _, _, _, hdummy', hq', hloop'⟩ := hends h
    cases hdummy.symm.trans hdummy'
    cases hq.symm.trans hq'
    cases hloop.symm.trans hloop'
  · rename_i hloop
    obtain ⟨hqr, hqnr⟩ := getRandomQrQnr_legendre (by simp) (by simp) hq
    have hunt := saeDerivePweEccLoop_eq hprime hqr hqnr hloop
    rw [← hunt]
    exact .inr rfl
  · rename_i x odd rand' hloop
    obtain ⟨hqr, hqnr⟩ := getRandomQrQnr_legendre (by simp) (by simp) hq
    have hunt := saeDerivePweEccLoop_eq hprime hqr hqnr hloop
    rw [← hunt]
    refine .inr ?_
    show _ = pweSolved ec t x odd
    unfold pweSolved
    cases ec.pointSolveYCoord x odd <;> rfl

/-- **The least counter decides the password element.** Given enough draws the point solver gets
the x coordinate and the parity of the least counter, and there is no element only if there is no
such counter. Neither the draws nor the order of the two addresses make a difference. -/
theorem sae_derive_pwe_ecc_least (hodd : ec.prime ≠ 2) (hplen : ec.primeLen ≤ saeMaxEccPrimeLen)
    (hsolve : ∀ x odd, ec.IsAbscissa x → (ec.pointSolveYCoord x odd).isSome)
    {addr1 addr2 : Bytes} (h1 : addr1.length = 6) (h2 : addr2.length = 6) (password : Bytes)
    (identifier : Option Bytes) (t : SaeTemporaryData P) (rand : Rand) :
    (EnoughDraws ec rand →
      PweOfCounter c ec (saePwdSeed c addr1 addr2 password identifier) t
        (pweResult c ec addr1 addr2 password identifier t rand) ∧
      ((pweResult c ec addr1 addr2 password identifier t rand).1 = false ↔
        ∀ counter, ¬ LeastCounter c ec (saePwdSeed c addr1 addr2 password identifier) counter) ∧
      ∀ rand', EnoughDraws ec rand' →
        pweResult c ec addr1 addr2 password identifier t rand' =
          pweResult c ec addr1 addr2 password identifier t rand ∧
        pweResult c ec addr2 addr1 password identifier t rand' =
          pweResult c ec addr1 addr2 password identifier t rand) ∧
    (pweResult c ec addr1 addr2 password identifier t rand = (false, t) ∨
      PweOfCounter c ec (saePwdSeed c addr1 addr2 password identifier) t
        (pweResult c ec addr1 addr2 password identifier t rand)) := by
  have hlen : addr1.length = addr2.length := h1.trans h2.symm
  have hunt := huntEcc_least (c := c) hodd password identifier hlen t
  -- swapping the addresses leaves every seed as it is
  have hunt' := huntEcc_least (c := c) hodd password identifier hlen.symm t
  have hseed : saePwdSeed c addr2 addr1 password identifier = saePwdSeed c addr1 addr2 password identifier := by
    funext counter
    unfold saePwdSeed
    rw [maxMinAddr_comm hlen]
  rw [hseed] at hunt'
  have henough : ∀ rand', EnoughDraws ec rand' →
      PweOfCounter c ec (saePwdSeed c addr1 addr2 password identifier) t
        (pweResult c ec addr1 addr2 password identifier t rand') ∧
      PweOfCounter c ec (saePwdSeed c addr1 addr2 password identifier) t
        (pweResult c ec addr2 addr1 password identifier t rand') := by
    intro rand' henough
    refine ⟨?_, ?_⟩
    · rw [(pweResult_hunt hodd hplen addr1 addr2 password identifier t rand').resolve_left
        fun h => h.2 henough]
      exact hunt
    · rw [(pweResult_hunt hodd hplen addr2 addr1 password identifier t rand').resolve_left
        fun h => h.2 henough]
      exact hunt'
  refine ⟨fun hrand => ⟨(henough rand hrand).1, (henough rand hrand).1.failed_iff hsolve,
    fun rand' hrand' => ?_⟩, ?_⟩
  · exact ⟨(henough rand' hrand').1.unique (henough rand hrand).1,
      (henough rand' hrand').2.unique (henough rand hrand).1⟩
  · rcases pweResult_hunt (c := c) hodd hplen addr1 addr2 password identifier t rand with h | h
    · exact .inl h.1
    · rw [h]
      exact .inr hunt

end Prime

/-! ## On the small curve -/

theorem smallCurve_prime : smallCurve.prime.Prime := by
  show Nat.Prime 7
  decide

instance : Fact smallCurve.prime.Prime := ⟨smallCurve_prime⟩

def smallSaeDraws : Rand := [draw3 0, draw3 1, draw3 3] ++ List.replicate 200 (draw3 1)

theorem smallCurve_legendre (n : Nat) :
    legendreSym smallCurve.prime n = cryptoBignumLegendre n 7 :=
  (cryptoBignumLegendre_eq (p := smallCurve.prime) (by decide) n).symm

theorem smallCurve_isAbscissa (x : Nat) : smallCurve.IsAbscissa x ↔ x = 0 ∨ x = 2 := by
  unfold CryptoEc.IsAbscissa
  rw [smallCurve_legendre]
  show x < 7 ∧ cryptoBignumLegendre (x ^ 3 + 1 * x + 1) 7 = 1 ↔ _
  constructor
  · rintro ⟨hlt, hone⟩
    interval_cases x <;> revert hone <;> decide
  · rintro (rfl | rfl) <;> decide

theorem smallSaeDraws_enough : EnoughDraws smallCurve smallSaeDraws := by
  refine ⟨fun _ => 0, [fun _ => 32, fun _ => 96], List.replicate 200 fun _ => 32, [], ?_, ?_, ?_, ?_⟩
  · rw [append_nil, map_append, map_replicate]
    rfl
  · refine ⟨fun _ => 32, by simp, by decide, ?_⟩
    rw [smallCurve_legendre]
    decide
  · refine ⟨fun _ => 96, by simp, by decide, ?_⟩
    rw [smallCurve_legendre]
    decide
  · rw [countP_replicate, if_pos (by decide)]

theorem sae_derive_pwe_ecc_least_small :
    (pweResult smallLib smallCurve [2, 0, 0, 0, 0, 0] [2, 0, 0, 0, 0, 1] [0x70] none
      { group := .ecc smallCurve } smallSaeDraws).1 = true ∧
    ∀ rand, EnoughDraws smallCurve rand →
      pweResult smallLib smallCurve [2, 0, 0, 0, 0, 1] [2, 0, 0, 0, 0, 0] [0x70] none
          { group := .ecc smallCurve } rand =
        pweSolved smallCurve { group := .ecc smallCurve } 2 true := by
  have hvalue : ∀ counter, pwdValue smallLib smallCurve
      (saePwdSeed smallLib [2, 0, 0, 0, 0, 0] [2, 0, 0, 0, 0, 1] [0x70] none counter) = 2 := by
    intro counter
    have hseed : saePwdSeed smallLib [2, 0, 0, 0, 0, 0] [2, 0, 0, 0, 0, 1] [0x70] none counter =
        List.replicate 32 0x41 := rfl
    rw [hseed]
    decide
  have hsolve : ∀ x odd, smallCurve.IsAbscissa x → (smallCurve.pointSolveYCoord x odd).isSome := by
    intro x odd hx
    rcases (smallCurve_isAbscissa x).mp hx with rfl | rfl <;> cases odd <;> decide
  have hone : LeastCounter smallLib smallCurve
      (saePwdSeed smallLib [2, 0, 0, 0, 0, 0] [2, 0, 0, 0, 0, 1] [0x70] none) 1 := by
    refine ⟨le_rfl, by decide, ?_, fun i h1 h2 => by omega⟩
    rw [hvalue, smallCurve_isAbscissa]
    exact .inr rfl
  have h1 : List.length [2, 0, 0, 0, 0, (0 : UInt8)] = 6 := rfl
  have h2 : List.length [2, 0, 0, 0, 0, (1 : UInt8)] = 6 := rfl
  have hrun := (sae_derive_pwe_ecc_least (c := smallLib) (by decide) (by decide) hsolve h1 h2 [0x70]
    none { group := .ecc smallCurve } smallSaeDraws).1 smallSaeDraws_enough
  have hsolved := hrun.1.unique (.solved 1 hone)
  rw [hvalue] at hsolved
  refine ⟨?_, fun rand hrand => ?_⟩
  · rw [hsolved]
    decide
  · rw [(hrun.2.2 rand hrand).2, hsolved]
    rfl

end Hostap
