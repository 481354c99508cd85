import Hostap.Sae.PasswordElement
import Hostap.Sae.SmallCurve
import Mathlib.Tactic.NormNum.Prime

/-!
# Agreement of an SAE exchange

Two stations that prepare a commit from one password, install each other's scalar and element and
process the commit either both fail or end up with the same keys, and each accepts the other's
Confirm (`sae_exchange_agreement`). Both kinds of groups come down to `Ready`: an instance that
has all four values of an exchange and the `k` computed from it. From there on keys and confirms
are symmetric in the two commits (`agree_of_ready`).
-/

namespace Hostap

open Octets

variable {P : Type}

/-! ## Installing the other commit -/

/-- The instance with the other one's commit scalar and element installed. -/
def SaeData.installPeer (s peer : SaeData P) : SaeData P :=
  { s with
    peerCommitScalar := peer.tmp.bind (·.ownCommitScalar)
    tmp := s.tmp.map fun t => { t with
      peerCommitElementEcc := peer.tmp.bind (·.ownCommitElementEcc)
      peerCommitElementFfc := peer.tmp.bind (·.ownCommitElementFfc) } }

def SaeExchange.mirror (x : SaeExchange P) : SaeExchange P :=
  ⟨x.peerScalar, x.peerElement, x.ownScalar, x.ownElement⟩

/-- An instance that has all of an exchange `x` and computes `k` from it. -/
structure SaeData.Ready (s : SaeData P) (g : SaeGroup P) (k : Option Bytes) (x : SaeExchange P)
    (t : SaeTemporaryData P) : Prop where
  tmp : s.tmp = some t
  group : t.group = g
  deriveK : saeDeriveK t s.peerCommitScalar = .ok k
  exchange : t.exchange s.peerCommitScalar = some x

/-- Every value of the exchange fits the buffer it is written to. -/
structure SaeExchange.Fits (x : SaeExchange P) (g : SaeGroup P) : Prop where
  primeLen : g.primeLen ≤ saeMaxPrimeLen
  order_pos : 0 < g.order
  order_len : numBytes g.order ≤ saeMaxPrimeLen
  ownScalar : x.ownScalar < g.order
  peerScalar : x.peerScalar < g.order
  ownElement : ∃ buf, saeElementBuf g x.ownElement = .ok buf
  peerElement : ∃ buf, saeElementBuf g x.peerElement = .ok buf

theorem SaeExchange.Fits.mirror {x : SaeExchange P} {g : SaeGroup P} (h : x.Fits g) :
    x.mirror.Fits g :=
  ⟨h.primeLen, h.order_pos, h.order_len, h.peerScalar, h.ownScalar, h.peerElement, h.ownElement⟩

theorem saeBignumBuf_fits {a len : Nat} (hlen : len ≤ saeMaxPrimeLen)
    (ha : numBytes a ≤ saeMaxPrimeLen) : ∃ buf, saeBignumBuf a len = .ok buf := by
  simp only [saeBignumBuf, cryptoBignumToBin]
  rw [if_neg (by omega), if_neg (by omega)]
  exact ⟨_, rfl⟩

theorem SaeExchange.Fits.scalarBuf {x : SaeExchange P} {g : SaeGroup P} (h : x.Fits g) {a : Nat}
    (ha : a < g.order) : ∃ buf, saeBignumBuf a g.primeLen = .ok buf :=
  saeBignumBuf_fits h.primeLen ((numBytes_mono ha.le).trans h.order_len)

section Agree

variable {c : CryptoLib P} {g : SaeGroup P} {x : SaeExchange P}

theorem saeCnConfirm_fits (h : x.Fits g) (kck sc : Bytes) :
    ∃ tag, saeCnConfirm c g kck sc x.ownScalar x.ownElement x.peerScalar x.peerElement = .ok tag ∧
      tag.length = sha256MacLen := by
  obtain ⟨e1, he1⟩ := h.ownElement
  obtain ⟨e2, he2⟩ := h.peerElement
  obtain ⟨s1, hs1⟩ := h.scalarBuf h.ownScalar
  obtain ⟨s2, hs2⟩ := h.scalarBuf h.peerScalar
  simp only [saeCnConfirm, he1, he2, hs1, hs2]
  exact ⟨_, rfl, c.hmacSha256_length _ _⟩

theorem saeDeriveKeys_comm (k : Bytes) (own peer : Nat) :
    saeDeriveKeys c g k own peer = saeDeriveKeys c g k peer own := by
  simp only [saeDeriveKeys]
  rw [Nat.add_comm own peer]

theorem saeDeriveKeys_fits (h : x.Fits g) (k : Bytes) :
    ∃ keys, saeDeriveKeys c g k x.ownScalar x.peerScalar = .ok keys := by
  obtain ⟨val, hval⟩ := h.scalarBuf (Nat.mod_lt (x.ownScalar + x.peerScalar) h.order_pos)
  simp only [saeDeriveKeys, hval]
  exact ⟨_, rfl⟩

theorem exchange_scalars {t : SaeTemporaryData P} {peer : Option Nat}
    (h : t.exchange peer = some x) :
    t.ownCommitScalar = some x.ownScalar ∧ peer = some x.peerScalar := by
  unfold SaeTemporaryData.exchange at h
  split at h
  · rename_i os oe ps pe hos hoe hpe
    cases h
    exact ⟨hos, rfl⟩
  · cases h

variable {s : SaeData P} {t : SaeTemporaryData P} {k : Option Bytes}

theorem SaeData.Ready.processCommit_none (h : s.Ready g none x t) :
    saeProcessCommit c s = .ok (false, s) := by
  simp only [saeProcessCommit, h.tmp, h.deriveK]
  rfl

def SaeData.withKeys (s : SaeData P) (t : SaeTemporaryData P) (keys : SaeKeys) : SaeData P :=
  { s with pmk := keys.pmk, pmkid := keys.pmkid, tmp := some { t with kck := keys.kck } }

theorem SaeData.Ready.processCommit_some {k : Bytes} (h : s.Ready g (some k) x t)
    {keys : SaeKeys} (hkeys : saeDeriveKeys c g k x.ownScalar x.peerScalar = .ok keys) :
    saeProcessCommit c s = .ok (true, s.withKeys t keys) := by
  obtain ⟨hown, hpeer⟩ := exchange_scalars h.exchange
  have hown' : deref .saeProcessCommit t.ownCommitScalar = .ok x.ownScalar := by
    rw [hown]
    rfl
  have hpeer' : deref .saeProcessCommit s.peerCommitScalar = .ok x.peerScalar := by
    rw [hpeer]
    rfl
  rw [← h.group] at hkeys
  simp only [saeProcessCommit, h.tmp, h.deriveK, bind, Except.bind, hown', hpeer', hkeys]
  rfl

/-- The receiver accepts the Confirm the sender writes with the send-confirm counter `n`. -/
def ConfirmAccepted (c : CryptoLib P) (n : Nat) (sender receiver : SaeData P) : Prop :=
  ∃ body sender', saeWriteConfirm c { sender with sendConfirm := n } = .ok (body, sender') ∧
    saeCheckConfirm c body receiver = .ok true

theorem confirmAccepted_of_kck (sender receiver : SaeData P) {t t' : SaeTemporaryData P}
    (hx : x.Fits g) (ht : sender.tmp = some t) (ht' : receiver.tmp = some t')
    (hg : t.group = g) (hg' : t'.group = g) (hkck : t.kck = t'.kck)
    (hex : t.exchange sender.peerCommitScalar = some x)
    (hex' : t'.exchange receiver.peerCommitScalar = some x.mirror) (n : Nat) :
    ConfirmAccepted c n sender receiver := by
  obtain ⟨tag, htag, hlen⟩ := saeCnConfirm_fits (c := c) hx t.kck (le16 n)
  refine ⟨le16 n ++ tag, { sender with
    sendConfirm := if n < 0xffff then n + 1 else n }, ?_, ?_⟩
  · simp only [saeWriteConfirm, ht, hex, hg, deref]
    show (do
      let confirm ← saeCnConfirm c g t.kck (le16 n) x.ownScalar x.ownElement x.peerScalar
        x.peerElement
      pure (le16 n ++ confirm, _)) = _
    rw [htag]
    rfl
  · have hbody : (le16 n ++ tag).length = 2 + sha256MacLen := by simp [hlen]
    have hsc : (le16 n ++ tag).take 2 = le16 n := by simp [le16]
    have hslice : slice (le16 n ++ tag) 2 sha256MacLen = tag := by
      simp [slice, le16, ← hlen]
    simp only [saeCheckConfirm, hbody, lt_irrefl, if_false, ht', hex', hg', deref, hsc, hslice,
      ← hkck]
    show (do
      let verifier ← saeCnConfirm c g t.kck (le16 n) x.ownScalar x.ownElement x.peerScalar
        x.peerElement
      pure (decide (verifier = tag))) = _
    rw [htag]
    simp [bind, Except.bind, pure, Except.pure]

/-- The outcome of an exchange both sides have all of: `sae_process_commit()` fails on both sides
or succeeds on both with the same keys and with mutually accepted Confirms. -/
def Agree (c : CryptoLib P) (sA sB : SaeData P) : Prop :=
  ∃ ok sA' sB', saeProcessCommit c sA = .ok (ok, sA') ∧ saeProcessCommit c sB = .ok (ok, sB') ∧
    (ok = true →
      sA'.pmk = sB'.pmk ∧ sA'.pmkid = sB'.pmkid ∧
      (∃ kck, sA'.tmp.map (·.kck) = some kck ∧ sB'.tmp.map (·.kck) = some kck) ∧
      ∀ n, ConfirmAccepted c n sA' sB' ∧ ConfirmAccepted c n sB' sA')

theorem agree_of_ready {sA sB : SaeData P} {tA tB : SaeTemporaryData P} (hx : x.Fits g)
    (hA : sA.Ready g k x tA) (hB : sB.Ready g k x.mirror tB) : Agree c sA sB := by
  cases k with
  | none =>
    exact ⟨false, sA, sB, hA.processCommit_none, hB.processCommit_none, by simp⟩
  | some k =>
    obtain ⟨keys, hkeys⟩ := saeDeriveKeys_fits (c := c) hx k
    have hkeys' : saeDeriveKeys c g k x.mirror.ownScalar x.mirror.peerScalar = .ok keys := by
      rw [saeDeriveKeys_comm]
      exact hkeys
    refine ⟨true, _, _, hA.processCommit_some hkeys, hB.processCommit_some hkeys', ?_⟩
    intro _
    refine ⟨rfl, rfl, ⟨keys.kck, rfl, rfl⟩, ?_⟩
    intro n
    constructor
    · exact confirmAccepted_of_kck (sA.withKeys tA keys) (sB.withKeys tB keys) hx rfl rfl
        hA.group hB.group rfl hA.exchange hB.exchange n
    · exact confirmAccepted_of_kck (sB.withKeys tB keys) (sA.withKeys tA keys) hx.mirror rfl rfl
        hB.group hA.group rfl hB.exchange hA.exchange n

end Agree

/-! ## Both kinds of groups -/

/-- The octets of the x coordinate that stand for a shared point. -/
def eccSharedK (ec : CryptoEc P) (k : P) : Option Bytes :=
  if ec.pointIsAtInfinity k then none else (ec.pointToBin k).map Prod.fst

def ffcSharedK (dh : DhGroup) (k : Nat) : Option Bytes :=
  if k = 1 then none else cryptoBignumToBin k saeMaxPrimeLen dh.prime.length

section Ecc

variable [AddCommGroup P] {ec : CryptoEc P} {pwe : P} {rA mA rB mB : Nat} {sA sB : SaeData P}
  {tA tB : SaeTemporaryData P}

theorem ecc_ready (hec : ec.Lawful) (hA : EccCommit ec pwe rA mA tA)
    (hB : EccCommit ec pwe rB mB tB) (hsA : sA.tmp = some tA) (hsB : sB.tmp = some tB) :
    ∃ t, (sA.installPeer sB).Ready (.ecc ec)
      (eccSharedK ec (Dragonfly.shared pwe rA (Dragonfly.scalar ec.order rB mB)
        (Dragonfly.element pwe mB)))
      ⟨Dragonfly.scalar ec.order rA mA, .point (Dragonfly.element pwe mA),
        Dragonfly.scalar ec.order rB mB, .point (Dragonfly.element pwe mB)⟩ t := by
  refine ⟨{ tA with
    peerCommitElementEcc := tB.ownCommitElementEcc
    peerCommitElementFfc := tB.ownCommitElementFfc }, ?_, hA.group, ?_, ?_⟩
  · simp only [SaeData.installPeer, hsA, hsB, Option.map_some, Option.bind_some]
  · simp only [SaeData.installPeer, hsB, Option.bind_some, saeDeriveK, hA.group, saeDeriveKEcc,
      hA.pweEcc, hB.scalar, hB.element, hA.saeRand, deref, bind, Except.bind, hec.pointMul,
      hec.pointAdd]
    show _ = Except.ok (eccSharedK ec (rA • (Dragonfly.scalar ec.order rB mB • pwe +
      Dragonfly.element pwe mB)))
    unfold eccSharedK
    split
    · rfl
    · rfl
  · simp only [SaeData.installPeer, hsB, Option.bind_some, SaeTemporaryData.exchange,
      SaeTemporaryData.ownElement, SaeTemporaryData.peerElement, SaeGroup.element, hA.group,
      hA.scalar, hA.element, hB.scalar, hB.element, Option.map_some]

theorem eccCommit_elementBuf (hec : ec.Lawful) (hA : EccCommit ec pwe rA mA tA) :
    ∃ buf, saeElementBuf (.ecc ec) (.point (Dragonfly.element pwe mA)) = .ok buf := by
  have hne : Dragonfly.element pwe mA ≠ 0 :=
    Dragonfly.element_ne_zero (hec.order_nsmul pwe) hec.order_prime hA.pwe_ne hA.mask_pos hA.mask_lt
  obtain ⟨⟨x, y⟩, hxy⟩ := Option.isSome_iff_exists.1 (hec.affineCoordinates _ hne)
  simp only [saeElementBuf, CryptoEc.pointToBin, hxy, Option.map_some]
  exact ⟨_, rfl⟩

theorem ecc_fits (hec : ec.Lawful) (hA : EccCommit ec pwe rA mA tA)
    (hB : EccCommit ec pwe rB mB tB) :
    SaeExchange.Fits ⟨Dragonfly.scalar ec.order rA mA, .point (Dragonfly.element pwe mA),
      Dragonfly.scalar ec.order rB mB, .point (Dragonfly.element pwe mB)⟩ (.ecc ec) where
  primeLen := hA.prime_len.trans (by decide)
  order_pos := hec.order_prime.pos
  order_len := hA.order_len
  ownScalar := Nat.mod_lt _ hec.order_prime.pos
  peerScalar := Nat.mod_lt _ hec.order_prime.pos
  ownElement := eccCommit_elementBuf hec hA
  peerElement := eccCommit_elementBuf hec hB

theorem ecc_agree {c : CryptoLib P} (hec : ec.Lawful) (hA : EccCommit ec pwe rA mA tA)
    (hB : EccCommit ec pwe rB mB tB) (hsA : sA.tmp = some tA) (hsB : sB.tmp = some tB) :
    Agree c (sA.installPeer sB) (sB.installPeer sA) := by
  obtain ⟨t, hreadyA⟩ := ecc_ready hec hA hB hsA hsB
  obtain ⟨t', hreadyB⟩ := ecc_ready hec hB hA hsB hsA
  -- both sides have computed one and the same point
  rw [Dragonfly.shared_comm (hec.order_nsmul pwe) rB mB rA mA] at hreadyB
  exact agree_of_ready (ecc_fits hec hA hB) hreadyA hreadyB

end Ecc

section Ffc

variable {dh : DhGroup} {pwe : Nat} {u : (ZMod (beNat dh.prime))ˣ} {rA mA rB mB eA eB : Nat}
  {sA sB : SaeData P} {tA tB : SaeTemporaryData P}

theorem ffc_ready (hdh : dh.Lawful) (hA : FfcCommit dh pwe u rA mA tA)
    (hB : FfcCommit dh pwe u rB mB tB) (heA : tA.ownCommitElementFfc = some eA)
    (heB : tB.ownCommitElementFfc = some eB)
    (hunit : FfcElement dh eB (Dragonfly.element (Additive.ofMul u) mB).toMul)
    (hsA : sA.tmp = some tA) (hsB : sB.tmp = some tB) :
    ∃ t k, FfcElement dh k (Dragonfly.shared (Additive.ofMul u) rA
        (Dragonfly.scalar (beNat dh.order) rB mB)
        (Dragonfly.element (Additive.ofMul u) mB)).toMul ∧
      (sA.installPeer sB).Ready (.ffc dh) (ffcSharedK dh k)
        ⟨Dragonfly.scalar (beNat dh.order) rA mA, .number eA,
          Dragonfly.scalar (beNat dh.order) rB mB, .number eB⟩ t := by
  have hk := ((hA.unit.exptmod hdh (Dragonfly.scalar (beNat dh.order) rB mB)).mulmod hdh
    hunit).exptmod hdh rA
  refine ⟨{ tA with
    peerCommitElementEcc := tB.ownCommitElementEcc
    peerCommitElementFfc := tB.ownCommitElementFfc }, _, hk, ?_, hA.group, ?_, ?_⟩
  · simp only [SaeData.installPeer, hsA, hsB, Option.map_some, Option.bind_some]
  · simp only [SaeData.installPeer, hsB, Option.bind_some, saeDeriveK, hA.group, saeDeriveKFfc,
      hA.pweFfc, hB.scalar, heB, hA.saeRand, deref, bind, Except.bind]
    unfold ffcSharedK
    split
    · rfl
    · rfl
  · simp only [SaeData.installPeer, hsB, Option.bind_some, SaeTemporaryData.exchange,
      SaeTemporaryData.ownElement, SaeTemporaryData.peerElement, SaeGroup.element, hA.group,
      hA.scalar, heA, hB.scalar, heB, Option.map_some]

theorem ffc_elementBuf (hdh : dh.Lawful) {e : Nat} (he : e < beNat dh.prime) :
    ∃ buf, saeElementBuf (.ffc dh : SaeGroup P) (.number e) = .ok buf := by
  have hlen : numBytes e ≤ dh.prime.length := numBytes_le (he.trans (beNat_lt dh.prime))
  exact saeBignumBuf_fits hdh.length (hlen.trans hdh.length)

theorem ffc_agree {c : CryptoLib P} (hdh : dh.Lawful) (hu : u ^ beNat dh.order = 1)
    (hA : FfcCommit dh pwe u rA mA tA) (hB : FfcCommit dh pwe u rB mB tB)
    (hsA : sA.tmp = some tA) (hsB : sB.tmp = some tB) :
    Agree c (sA.installPeer sB) (sB.installPeer sA) := by
  obtain ⟨eA, heA, hunitA⟩ := hA.element
  obtain ⟨eB, heB, hunitB⟩ := hB.element
  obtain ⟨t, k, hk, hreadyA⟩ := ffc_ready hdh hA hB heA heB hunitB hsA hsB
  obtain ⟨t', k', hk', hreadyB⟩ := ffc_ready hdh hB hA heB heA hunitA hsB hsA
  have hr : beNat dh.order • Additive.ofMul u = 0 := by
    rw [← ofMul_pow, hu]
    rfl
  rw [Dragonfly.shared_comm hr rB mB rA mA] at hk'
  -- residues of one unit are one number
  rw [← hk.eq hk'] at hreadyB
  refine agree_of_ready (g := .ffc dh) ?_ hreadyA hreadyB
  exact {
    primeLen := hdh.length
    order_pos := hdh.order_prime.pos
    order_len := hA.order_len
    ownScalar := Nat.mod_lt _ hdh.order_prime.pos
    peerScalar := Nat.mod_lt _ hdh.order_prime.pos
    ownElement := ffc_elementBuf hdh hunitA.lt
    peerElement := ffc_elementBuf hdh hunitB.lt }

end Ffc

def SaeData.UsesGroup (s : SaeData P) (g : SaeGroup P) : Prop :=
  ∃ t, s.tmp = some t ∧ t.group = g

/-- **Agreement.** Two stations with one password that have prepared their commits and installed
each other's either both fail to process them or share PMK, PMKID and KCK and accept each other's
Confirm, whatever the draws were and whatever the send-confirm counters are. -/
theorem sae_exchange_agreement [AddCommGroup P] (c : CryptoLib P) {g : SaeGroup P}
    (hg : g.Lawful) {addrA addrB password : Bytes} {identifier : Option Bytes}
    (haddrA : addrA.length = 6) (haddrB : addrB.length = 6) {sA sB sA' sB' : SaeData P}
    {randA randA' randB randB' : Rand} (hgA : sA.UsesGroup g) (hgB : sB.UsesGroup g)
    (hA : saePrepareCommit c addrA addrB password identifier sA randA = .ok (true, sA', randA'))
    (hB : saePrepareCommit c addrB addrA password identifier sB randB = .ok (true, sB', randB')) :
    Agree c (sA'.installPeer sB') (sB'.installPeer sA') := by
  obtain ⟨tA, htA, hgA⟩ := hgA
  obtain ⟨tB, htB, hgB⟩ := hgB
  have hkey : saePwdSeedKey addrB addrA = saePwdSeedKey addrA addrB :=
    saePwdSeedKey_comm (by rw [haddrA, haddrB])
  cases g with
  | unset => exact hg.elim
  | ecc ec =>
    obtain ⟨tA', pwe, rA, mA, rfl, hcA, hpweA⟩ := saePrepareCommit_ecc hg htA hgA hA
    obtain ⟨tB', pwe', rB, mB, rfl, hcB, hpweB⟩ := saePrepareCommit_ecc hg htB hgB hB
    rw [hkey] at hpweB
    rw [← hpweA.unique hpweB] at hcB
    exact ecc_agree hg hcA hcB rfl rfl
  | ffc dh =>
    obtain ⟨tA', v, pwe, rfl, hloopA, hcA⟩ := saePrepareCommit_ffc hg htA hgA hA
    obtain ⟨tB', v', pwe', rfl, hloopB, hcB⟩ := saePrepareCommit_ffc hg htB hgB hB
    rw [hkey] at hloopB
    rw [← saeDerivePweFfcLoop_unique hloopA hloopB] at hcB
    obtain ⟨u, hu, hord⟩ := saeDerivePweFfcLoop_element hg hloopA
    obtain ⟨rA, mA, hcA⟩ := hcA u hu
    obtain ⟨rB, mB, hcB⟩ := hcB u hu
    exact ffc_agree hg hord hcA hcB rfl rfl

theorem smallCurve_lawful : smallCurve.Lawful where
  prime := by decide
  order_prime := by decide
  card := Nat.card_zmod 5
  pointMul p n := by simp [smallCurve]
  pointAdd _ _ := rfl
  pointInvert _ := rfl
  affineCoordinates := by decide
  pointSolveYCoord x odd p h := by
    have hmem : p ∈ ([1, 2, 3, 4] : List (ZMod 5)) := by
      simp only [smallCurve] at h
      exact List.mem_of_find?_eq_some h
    clear h
    revert p
    decide

def smallField : DhGroup where
  prime := [83]
  order := [41]
  safePrime := true

theorem smallField_lawful : smallField.Lawful where
  prime := by
    show Nat.Prime 83
    norm_num
  order_prime := by
    show Nat.Prime 41
    norm_num
  order_dvd := by decide
  safePrime := by decide
  length := by decide

def smallOwnEcc (rand scalar : Nat) (element : ZMod 5) : SaeData (ZMod 5) where
  tmp := some
    { ownCommitScalar := some scalar
      ownCommitElementEcc := some element
      pweEcc := some (1 + 1)
      saeRand := some rand
      group := .ecc smallCurve }

def smallOwnFfc (rand scalar element : Nat) : SaeData (ZMod 5) where
  tmp := some
    { ownCommitScalar := some scalar
      ownCommitElementFfc := some element
      pweFfc := some 75
      saeRand := some rand
      group := .ffc smallField }

/-- A source whose draws have the value `v` in six bits. -/
def draw6 (v : Nat) : Option (Nat → UInt8) := some fun _ => UInt8.ofNat (4 * v)

/-- Two stations that draw differently agree, on the small curve and in the small field. -/
theorem sae_exchange_agreement_small :
    Agree smallLib ((smallOwnEcc 2 4 1).installPeer (smallOwnEcc 3 2 2))
      ((smallOwnEcc 3 2 2).installPeer (smallOwnEcc 2 4 1)) ∧
    Agree smallLib ((smallOwnFfc 5 12 37).installPeer (smallOwnFfc 11 10 75))
      ((smallOwnFfc 11 10 75).installPeer (smallOwnFfc 5 12 37)) := by
  have heccA : saePrepareCommit smallLib smallConf.ownAddr smallSta.sta.addr [0x70] none
      { tmp := some { group := .ecc smallCurve } } (commitDraws 2 2) =
      .ok (true, smallOwnEcc 2 4 1, []) := rfl
  have heccB : saePrepareCommit smallLib smallSta.sta.addr smallConf.ownAddr [0x70] none
      { tmp := some { group := .ecc smallCurve } } (commitDraws 3 4) =
      .ok (true, smallOwnEcc 3 2 2, []) := rfl
  have hffcA : saePrepareCommit smallLib smallConf.ownAddr smallSta.sta.addr [0x70] none
      { tmp := some { group := .ffc smallField } } [draw6 5, draw6 7] =
      .ok (true, smallOwnFfc 5 12 37, []) := rfl
  have hffcB : saePrepareCommit smallLib smallSta.sta.addr smallConf.ownAddr [0x70] none
      { tmp := some { group := .ffc smallField } } [draw6 11, draw6 40] =
      .ok (true, smallOwnFfc 11 10 75, []) := rfl
  constructor
  · exact sae_exchange_agreement smallLib (g := .ecc smallCurve) smallCurve_lawful rfl rfl
      ⟨_, rfl, rfl⟩ ⟨_, rfl, rfl⟩ heccA heccB
  · exact sae_exchange_agreement smallLib (g := .ffc smallField) smallField_lawful rfl rfl
      ⟨_, rfl, rfl⟩ ⟨_, rfl, rfl⟩ hffcA hffcB

end Hostap
