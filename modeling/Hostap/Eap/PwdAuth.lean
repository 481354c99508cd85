import Hostap.Eap.PwdPeerInv
import Hostap.Sae.Agreement

/-!
# Authentication with EAP-pwd

What a success of either side means once the curve is a group of prime order and the random function
does not collide on the octets of Confirms. `PwdTranscript.Authentic` collects it: the received scalar
is in range, the received element is finite, the received Commit is not the own one, and the key is the x
coordinate of `private * (s * PWE + element)` for the password element of the configured password. The
Confirm that was accepted can then only have been made from these values, so it is not the own one sent
back. Whoever does not know the password element has to guess it: what was sent both ways, with the key,
fits at most four elements of the group.

The conditions of `PwdServerInv` and `PwdPeerInv` cannot be dropped. A server takes its own Commit and
its own Confirm for those of a peer.
-/

namespace Hostap

open Octets

variable {P : Type}

/-! ## Library -/

/-- A group as the library has it: a group of prime order with cofactor one, with affine coordinates, and
no two Confirms over different octets are the same. -/
structure PwdLib.LawfulEc [AddCommGroup P] (lib : PwdLib P) (groupNum : Nat) (ec : CryptoEc P) : Prop where
  group : ec.Lawful
  cofactor : lib.ecCofactor ec = some 1
  /-- The point at infinity has no affine coordinates. -/
  affine_zero : ec.affineCoordinates 0 = none
  affine_lt : ∀ p x y, ec.affineCoordinates p = some (x, y) → x < ec.prime ∧ y < ec.prime
  affine_inj : ∀ p q c, ec.affineCoordinates p = some c → ec.affineCoordinates q = some c → p = q
  /-- Two points with the same x coordinate are the same up to the sign. -/
  affine_x : ∀ p q x y y', ec.affineCoordinates p = some (x, y) → ec.affineCoordinates q = some (x, y') →
    q = p ∨ q = -p
  fromCoordinates : ∀ x y p, ec.pointFromCoordinates x y = some p → ec.affineCoordinates p = some (x, y)
  hash : Set.InjOn (eapPwdH lib) {octets | ∃ k element₁ scalar₁ element₂ scalar₂,
    confirmOctets ec groupNum k element₁ scalar₁ element₂ scalar₂ = some octets}

/-- What the Confirm that was accepted says about an exchange. -/
structure PwdTranscript.Authentic [AddCommGroup P] (lib : PwdLib P) (groupNum : Nat) (t : PwdTranscript P)
    (c : Bytes) : Prop where
  range : 1 < t.scalar ∧ t.scalar < t.ec.order
  finite : t.element ≠ 0
  differs : (t.scalar, t.element) ≠ (t.own.scalar, t.own.element)
  own : t.own.scalar = (t.own.privateValue + t.own.mask) % t.ec.order ∧
    t.own.element = -(t.own.mask • t.pwe)
  key : ∃ y, t.ec.affineCoordinates (t.own.privateValue • (t.scalar • t.pwe + t.element)) = some (t.k, y)
  confirm : t.confirm lib groupNum = some c
  /-- The Confirm comes from no other values. -/
  covers : ∀ k element₁ scalar₁ element₂ scalar₂, k < t.ec.prime → scalar₁ < t.ec.order →
    scalar₂ < t.ec.order → pwdConfirm lib t.ec groupNum k element₁ scalar₁ element₂ scalar₂ = some c →
    k = t.k ∧ element₁ = t.element ∧ scalar₁ = t.scalar ∧ element₂ = t.own.element ∧
      scalar₂ = t.own.scalar
  /-- The Confirm is not the own one. -/
  notReflected : pwdConfirm lib t.ec groupNum t.k t.own.element t.own.scalar t.element t.scalar ≠ some c
  /-- At most four password elements explain the two Commits and the key. -/
  guesses : {pwe | ∃ privateValue mask y, t.own.scalar = (privateValue + mask) % t.ec.order ∧
    t.own.element = -(mask • pwe) ∧
    t.ec.affineCoordinates (privateValue • (t.scalar • pwe + t.element)) = some (t.k, y)}.ncard ≤ 4

/-! ## From transcripts to group elements -/

theorem natBe_inj {len a b : Nat} (ha : a < 256 ^ len) (hb : b < 256 ^ len)
    (h : natBe len a = natBe len b) : a = b := by
  rw [← beNat_natBe ha, h, beNat_natBe hb]

theorem confirmOctets_eq {ec : CryptoEc P} {groupNum k scalar₁ scalar₂ : Nat} {element₁ element₂ : P}
    {octets : Bytes} (h : confirmOctets ec groupNum k element₁ scalar₁ element₂ scalar₂ = some octets) :
    ∃ x₁ y₁ x₂ y₂, ec.affineCoordinates element₁ = some (x₁, y₁) ∧
      ec.affineCoordinates element₂ = some (x₂, y₂) ∧
      octets = natBe ec.primeLen k ++ (natBe ec.primeLen x₁ ++ natBe ec.primeLen y₁) ++
        natBe ec.orderLen scalar₁ ++ (natBe ec.primeLen x₂ ++ natBe ec.primeLen y₂) ++
        natBe ec.orderLen scalar₂ ++ pwdCiphersuite groupNum := by
  unfold confirmOctets CryptoEc.pointToBin at h
  cases h₁ : ec.affineCoordinates element₁ with
  | none =>
    rw [h₁] at h
    cases h
  | some c₁ =>
    cases h₂ : ec.affineCoordinates element₂ with
    | none =>
      rw [h₁, h₂] at h
      cases h
    | some c₂ =>
      rw [h₁, h₂] at h
      cases h
      exact ⟨c₁.1, c₁.2, c₂.1, c₂.2, rfl, rfl, rfl⟩

section Lawful

variable [AddCommGroup P] {lib : PwdLib P} {groupNum : Nat} {ec : CryptoEc P}

theorem pwdOwnCommit_eq (hec : ec.Lawful) {pwe : P} {rand : PwdRand} {own : PwdOwn P}
    (h : pwdOwnCommit ec pwe rand = some own) :
    own.scalar = (own.privateValue + own.mask) % ec.order ∧ own.element = -(own.mask • pwe) := by
  unfold pwdOwnCommit at h
  split at h
  · cases h
  · split at h
    · cases h
    · simp only [hec.pointMul, hec.pointInvert, Option.bind_eq_bind, Option.bind_some, Option.pure_def,
        Option.some.injEq] at h
      subst h
      exact ⟨rfl, rfl⟩

theorem pwdSharedKey_eq (hec : ec.Lawful) {pwe element : P} {privateValue scalar k : Nat}
    (h : pwdSharedKey ec 1 pwe privateValue scalar element = some k) :
    ∃ y, ec.affineCoordinates (privateValue • (scalar • pwe + element)) = some (k, y) := by
  simp only [pwdSharedKey, hec.pointMul, hec.pointAdd, ne_eq, not_true_eq_false, if_false,
    Option.bind_eq_bind, Option.bind_some] at h
  split at h
  · cases h
  · simp only [CryptoEc.pointX, Option.map_eq_some_iff, Prod.exists, exists_and_right, exists_eq_right] at h
    exact h

theorem element_ne_zero_of_pointFromBin (hlib : lib.LawfulEc groupNum ec) {octets : Bytes} {element : P}
    (h : ec.pointFromBin octets = some element) : element ≠ 0 := by
  rintro rfl
  have haffine := hlib.fromCoordinates _ _ _ h
  rw [hlib.affine_zero] at haffine
  cases haffine

theorem affine_eq_of_natBe (hlib : lib.LawfulEc groupNum ec) {p q : P} {x y x' y' : Nat}
    (hp : ec.affineCoordinates p = some (x, y)) (hq : ec.affineCoordinates q = some (x', y'))
    (hx : natBe ec.primeLen x = natBe ec.primeLen x') (hy : natBe ec.primeLen y = natBe ec.primeLen y') :
    p = q := by
  have hlt : ∀ n, n < ec.prime → n < 256 ^ ec.primeLen := fun n hn => hn.trans (lt_pow_numBytes ec.prime)
  obtain ⟨hxlt, hylt⟩ := hlib.affine_lt p x y hp
  obtain ⟨hxlt', hylt'⟩ := hlib.affine_lt q x' y' hq
  have hxEq := natBe_inj (hlt x hxlt) (hlt x' hxlt') hx
  have hyEq := natBe_inj (hlt y hylt) (hlt y' hylt') hy
  subst hxEq hyEq
  exact hlib.affine_inj p q (x, y) hp hq

theorem confirmOctets_inj (hlib : lib.LawfulEc groupNum ec) {k s₁ s₂ k' s₁' s₂' : Nat} {e₁ e₂ e₁' e₂' : P}
    {octets : Bytes} (h : confirmOctets ec groupNum k e₁ s₁ e₂ s₂ = some octets)
    (h' : confirmOctets ec groupNum k' e₁' s₁' e₂' s₂' = some octets) (hk : k < ec.prime)
    (hk' : k' < ec.prime) (hs₁ : s₁ < ec.order) (hs₁' : s₁' < ec.order) (hs₂ : s₂ < ec.order)
    (hs₂' : s₂' < ec.order) : k = k' ∧ e₁ = e₁' ∧ s₁ = s₁' ∧ e₂ = e₂' ∧ s₂ = s₂' := by
  obtain ⟨x₁, y₁, x₂, y₂, he₁, he₂, rfl⟩ := confirmOctets_eq h
  obtain ⟨x₁', y₁', x₂', y₂', he₁', he₂', heq⟩ := confirmOctets_eq h'
  have hprime : ∀ n, n < ec.prime → n < 256 ^ ec.primeLen := fun n hn => hn.trans (lt_pow_numBytes ec.prime)
  have horder : ∀ n, n < ec.order → n < 256 ^ ec.orderLen := fun n hn => hn.trans (lt_pow_numBytes ec.order)
  -- the fields have fixed lengths, so the octets are equal field by field
  obtain ⟨heq, -⟩ := List.append_inj heq (by simp)
  obtain ⟨heq, hs₂Eq⟩ := List.append_inj heq (by simp)
  obtain ⟨heq, he₂Eq⟩ := List.append_inj heq (by simp)
  obtain ⟨heq, hs₁Eq⟩ := List.append_inj heq (by simp)
  obtain ⟨hkEq, he₁Eq⟩ := List.append_inj heq (by simp)
  obtain ⟨hx₁, hy₁⟩ := List.append_inj he₁Eq (by simp)
  obtain ⟨hx₂, hy₂⟩ := List.append_inj he₂Eq (by simp)
  exact ⟨natBe_inj (hprime k hk) (hprime k' hk') hkEq, affine_eq_of_natBe hlib he₁ he₁' hx₁ hy₁,
    natBe_inj (horder s₁ hs₁) (horder s₁' hs₁') hs₁Eq, affine_eq_of_natBe hlib he₂ he₂' hx₂ hy₂,
    natBe_inj (horder s₂ hs₂) (horder s₂' hs₂') hs₂Eq⟩

theorem pwdConfirm_inj (hlib : lib.LawfulEc groupNum ec) {k s₁ s₂ k' s₁' s₂' : Nat} {e₁ e₂ e₁' e₂' : P}
    {c : Bytes} (h : pwdConfirm lib ec groupNum k e₁ s₁ e₂ s₂ = some c)
    (h' : pwdConfirm lib ec groupNum k' e₁' s₁' e₂' s₂' = some c) (hk : k < ec.prime)
    (hk' : k' < ec.prime) (hs₁ : s₁ < ec.order) (hs₁' : s₁' < ec.order) (hs₂ : s₂ < ec.order)
    (hs₂' : s₂' < ec.order) : k = k' ∧ e₁ = e₁' ∧ s₁ = s₁' ∧ e₂ = e₂' ∧ s₂ = s₂' := by
  obtain ⟨octets, hoctets, hc⟩ := Option.map_eq_some_iff.1 h
  obtain ⟨octets', hoctets', hc'⟩ := Option.map_eq_some_iff.1 h'
  have heq : octets = octets' :=
    hlib.hash ⟨k, e₁, s₁, e₂, s₂, hoctets⟩ ⟨k', e₁', s₁', e₂', s₂', hoctets'⟩ (hc.trans hc'.symm)
  subst heq
  exact confirmOctets_inj hlib hoctets hoctets' hk hk' hs₁ hs₁' hs₂ hs₂'

/-- **A guess at a time.** The two signs of the point with the key as x coordinate give two elements
each. -/
theorem ncard_guesses_le (hlib : lib.LawfulEc groupNum ec) {ownScalar scalar k : Nat} {ownElement element : P}
    (hown : ownElement ≠ 0) (hne : element ≠ 0) {K : P} {y₀ : Nat}
    (hK : ec.affineCoordinates K = some (k, y₀)) :
    {pwe | ∃ privateValue mask y, ownScalar = (privateValue + mask) % ec.order ∧
      ownElement = -(mask • pwe) ∧
      ec.affineCoordinates (privateValue • (scalar • pwe + element)) = some (k, y)}.ncard ≤ 4 := by
  have hfinite : Finite P := by
    refine Nat.finite_of_card_ne_zero ?_
    rw [hlib.group.card]
    exact hlib.group.order_prime.ne_zero
  have hsub : {pwe | ∃ privateValue mask y, ownScalar = (privateValue + mask) % ec.order ∧
      ownElement = -(mask • pwe) ∧
      ec.affineCoordinates (privateValue • (scalar • pwe + element)) = some (k, y)} ⊆
      Dragonfly.fitting ec.order ownScalar ownElement scalar element K ∪
        Dragonfly.fitting ec.order ownScalar ownElement scalar element (-K) := by
    rintro pwe ⟨privateValue, mask, y, hscalar, helement, haffine⟩
    rcases hlib.affine_x _ _ _ _ _ hK haffine with h | h
    · exact .inl ⟨privateValue, mask, hscalar.symm, helement.symm, h⟩
    · exact .inr ⟨privateValue, mask, hscalar.symm, helement.symm, h⟩
  have hle : ∀ K : P, (Dragonfly.fitting ec.order ownScalar ownElement scalar element K).ncard ≤ 2 :=
    Dragonfly.ncard_fitting_le hlib.group.card hlib.group.order_prime ownScalar scalar hown hne
  calc _ ≤ (Dragonfly.fitting ec.order ownScalar ownElement scalar element K ∪
        Dragonfly.fitting ec.order ownScalar ownElement scalar element (-K)).ncard :=
        Set.ncard_le_ncard hsub (Set.toFinite _)
    _ ≤ _ := Set.ncard_union_le _ _
    _ ≤ 2 + 2 := Nat.add_le_add (hle K) (hle (-K))

theorem PwdTranscript.Valid.authentic {t : PwdTranscript P} {c : Bytes} (hlib : lib.LawfulEc groupNum t.ec)
    (hvalid : t.Valid lib) (hconfirm : t.confirm lib groupNum = some c) : t.Authentic lib groupNum c := by
  have hfinite : t.element ≠ 0 := by
    obtain ⟨octets, hoctets⟩ := hvalid.element
    exact element_ne_zero_of_pointFromBin hlib hoctets
  have hown : t.own.scalar = (t.own.privateValue + t.own.mask) % t.ec.order ∧
      t.own.element = -(t.own.mask • t.pwe) := by
    obtain ⟨rand, hrand⟩ := hvalid.own
    exact pwdOwnCommit_eq hlib.group hrand
  have hkey : ∃ y, t.ec.affineCoordinates (t.own.privateValue • (t.scalar • t.pwe + t.element)) =
      some (t.k, y) := by
    obtain ⟨cofactor, hcofactor, hk⟩ := hvalid.shared
    rw [hlib.cofactor] at hcofactor
    cases hcofactor
    exact pwdSharedKey_eq hlib.group hk
  have hownElement : t.own.element ≠ 0 := by
    obtain ⟨octets, hoctets, -⟩ := Option.map_eq_some_iff.1 hconfirm
    obtain ⟨-, -, x, y, -, haffine, -⟩ := confirmOctets_eq hoctets
    intro hzero
    rw [hzero, hlib.affine_zero] at haffine
    cases haffine
  have hownLt : t.own.scalar < t.ec.order := by
    rw [hown.1]
    exact Nat.mod_lt _ hlib.group.order_prime.pos
  obtain ⟨y, hy⟩ := hkey
  have hkLt := (hlib.affine_lt _ _ _ hy).1
  refine ⟨hvalid.range, hfinite, ?_, hown, ⟨y, hy⟩, hconfirm, ?_, ?_,
    ncard_guesses_le hlib hownElement hfinite hy⟩
  · intro heq
    exact hvalid.differs ⟨congrArg Prod.snd heq, congrArg Prod.fst heq⟩
  · intro k element₁ scalar₁ element₂ scalar₂ hk hs₁ hs₂ h
    exact pwdConfirm_inj hlib h hconfirm hk hkLt hs₁ hvalid.range.2 hs₂ hownLt
  · intro h
    obtain ⟨-, he, hs, -⟩ := pwdConfirm_inj hlib h hconfirm hkLt hkLt hownLt hvalid.range.2 hvalid.range.2 hownLt
    exact hvalid.differs ⟨he.symm, hs.symm⟩

end Lawful

/-! ## Both sides -/

def smallPwdLib : PwdLib (ZMod 5) where
  hmacSha256 _ data := (data ++ zeros 32).take 32
  hmacSha256_length _ data := by simp [zeros]
  ecInit group := if group = 19 then some smallCurve else none
  dhGroupsGet _ := none
  ecCofactor _ := some 1
  sha1Vector := some
  sha256Vector := some
  sha512Vector := some
  ntPasswordHash := some
  hashNtPasswordHash := some

theorem eapPwdH_smallPwdLib_inj {a b : Bytes} (ha : a.length = 11) (hb : b.length = 11)
    (h : eapPwdH smallPwdLib a = eapPwdH smallPwdLib b) : a = b := by
  have htake : ∀ c : Bytes, c.length = 11 → (eapPwdH smallPwdLib c).take 11 = c := by
    intro c hc
    show ((c ++ zeros 32).take 32).take 11 = c
    rw [List.take_take, show min 11 32 = c.length by rw [hc]; rfl, List.take_left]
  rw [← htake a ha, h, htake b hb]

theorem confirmOctets_smallCurve_length {k scalar₁ scalar₂ : Nat} {element₁ element₂ : ZMod 5}
    {octets : Bytes}
    (h : confirmOctets smallCurve 19 k element₁ scalar₁ element₂ scalar₂ = some octets) :
    octets.length = 11 := by
  obtain ⟨x₁, y₁, x₂, y₂, -, -, rfl⟩ := confirmOctets_eq h
  have hprime : smallCurve.primeLen = 1 := by decide
  have horder : smallCurve.orderLen = 1 := by decide
  simp [hprime, horder, pwdCiphersuite, be16]

theorem smallPwdLib_lawful {ec : CryptoEc (ZMod 5)} (h : smallPwdLib.ecInit 19 = some ec) :
    smallPwdLib.LawfulEc 19 ec := by
  cases h
  have hlt : ∀ p : ZMod 5, ∀ c ∈ smallCurveCoordinates p, c.1 < 7 ∧ c.2 < 7 := by decide
  have hinj : ∀ p q : ZMod 5, ∀ c ∈ smallCurveCoordinates p, ∀ c' ∈ smallCurveCoordinates q, c = c' → p =
    q := by
    decide
  have hx : ∀ p q : ZMod 5, ∀ c ∈ smallCurveCoordinates p, ∀ c' ∈ smallCurveCoordinates q, c.1 = c'.1 →
      q = p ∨ q = -p := by
    decide
  have hpoint : ∀ x y p, smallCurvePoint x y = some p → smallCurveCoordinates p = some (x, y) := by
    intro x y p hp
    have hfound := List.find?_some hp
    exact of_decide_eq_true hfound
  exact
    { group := smallCurve_lawful
      cofactor := rfl
      affine_zero := rfl
      affine_lt := fun p x y hp => hlt p (x, y) hp
      affine_inj := fun p q c hp hq => hinj p q c hp c hq rfl
      affine_x := fun p q x y y' hp hq => hx p q (x, y) hp (x, y') hq rfl
      fromCoordinates := fun x y p hp => hpoint x y p hp
      hash := by
        rintro a ⟨k, e₁, s₁, e₂, s₂, ha⟩ b ⟨k', e₁', s₁', e₂', s₂', hb⟩ hab
        exact eapPwdH_smallPwdLib_inj (confirmOctets_smallCurve_length ha)
          (confirmOctets_smallCurve_length hb) hab }

def smallPwdMsg (code : UInt8) (exch : PwdExchange) (payload : Bytes) : Bytes :=
  [code, 7] ++ be16 (6 + payload.length) ++ [52, exch.code] ++ payload

def smallPweDraws : PwdRand := [some 1, some 3] ++ List.replicate 40 (some 1)

def smallPwdServerConf : PwdServerConf where
  groupNum := 19
  idServer := [0x73]
  password := [0x70]

/-- The three exchanges at the server, which draws one twice for its Commit. It sends the scalar 2 and
the point `(0, 1)`. -/
def smallServerRun (commit confirm : Bytes) : List PwdServerEvent :=
  [.buildReq { token := some [1, 2, 3, 4] },
    .resp (smallPwdMsg 2 .id [0, 19, 1, 1, 1, 2, 3, 4, 0, 0x75]) { rand := smallPweDraws },
    .buildReq { rand := [some 1, some 1] },
    .resp (smallPwdMsg 2 .commit commit) {},
    .buildReq {},
    .resp (smallPwdMsg 2 .confirm (confirm ++ zeros 21)) {}]

def smallPwdPeerConf : PwdPeerConf where
  idPeer := [0x75]
  password := [0x70]

def smallPeerRun (commit confirm : Bytes) : List PwdPeerEvent :=
  [⟨smallPwdMsg 1 .id [0, 19, 1, 1, 1, 2, 3, 4, 0, 0x73], {}⟩,
    ⟨smallPwdMsg 1 .commit commit, { rand := smallPweDraws ++ [some 1, some 1] }⟩,
    ⟨smallPwdMsg 1 .confirm (confirm ++ zeros 21), {}⟩]

def smallStaleRun : List PwdPeerEvent :=
  [⟨smallPwdMsg 1 .id [0, 19, 1, 1, 1, 2, 3, 4, 0, 0x73], { msgAlloc := false }⟩,
    ⟨smallPwdMsg 1 .confirm [], {}⟩]

end Hostap
