import Hostap.Eap.PwdAuth

/-!
# Agreement of the EAP-pwd server and peer

The two sides are separate programs that are to come to the same keys. `pwdExchange` delivers the
requests of the server to the peer and its responses back, one exchange after the other, and stops where
a side has nothing to send. Each side draws its own random numbers.

Two facts carry the agreement. The password element does not depend on the numbers that blind the test
for a residue (`computePasswordElement_unique`), unless one of them is zero: then the test says no to
every candidate. And once the two shared keys are the same, each Confirm is what the other side
computes, so the two sides verify and derive the same (`confirmRound_agree`).

With a zero among the blinding numbers the two sides may have different password elements. The keys are
the same nevertheless if a Confirm is accepted, as long as no two Confirms over different octets are.
-/

namespace Hostap

open Octets List

variable {P : Type}

/-! ## The password element -/

/-- The seed of the hunting-and-pecking loop without the counter. -/
def pwdSeed (password idServer idPeer token : Bytes) : Bytes := token ++ idPeer ++ idServer ++ password

/-- The candidate of a round is below the prime, so that a blinding number is drawn. -/
def liveRound (lib : PwdLib P) (ec : CryptoEc P) (seed : Bytes) (ctr : Nat) : Bool :=
  xCandidate lib ec (eapPwdH lib (seed ++ [UInt8.ofNat ctr])) < ec.prime

/-- The first `n` numbers are not zero as blinding numbers. -/
def BlindingNonzero (ec : CryptoEc P) (n : Nat) (rand : PwdRand) : Prop :=
  ∀ v ∈ rand.take n, ∀ r ∈ v, r % (ec.prime - 1) ≠ 0

def PweDrawsNonzero (lib : PwdLib P) (ec : CryptoEc P) (seed : Bytes) (rand : PwdRand) : Prop :=
  ∀ r ∈ getQrQnr ec.prime none none rand,
    BlindingNonzero ec ((((List.range 40).map (· + 1)).filter (liveRound lib ec seed)).length) r.2.2

section Element

variable {lib : PwdLib P} {ec : CryptoEc P} {seed : Bytes}

theorem getQrQnr_legendre {prime : Nat} {qr qnr : Option Nat} {rand rand' : PwdRand} {q n : Nat}
    (hqr : ∀ a ∈ qr, cryptoBignumLegendre a prime = 1)
    (hqnr : ∀ a ∈ qnr, cryptoBignumLegendre a prime = -1)
    (h : getQrQnr prime qr qnr rand = some (q, n, rand')) :
    cryptoBignumLegendre q prime = 1 ∧ cryptoBignumLegendre n prime = -1 := by
  induction rand generalizing qr qnr with
  | nil =>
    cases qr with
    | none => cases h
    | some a =>
      cases qnr with
      | none => cases h
      | some b =>
        cases h
        exact ⟨hqr q rfl, hqnr n rfl⟩
  | cons v rand ih =>
    have hstep : ∀ {qr qnr : Option Nat}, (∀ a ∈ qr, cryptoBignumLegendre a prime = 1) →
        (∀ a ∈ qnr, cryptoBignumLegendre a prime = -1) → (qr = none ∨ qnr = none) →
        getQrQnr prime qr qnr (v :: rand) = some (q, n, rand') →
        cryptoBignumLegendre q prime = 1 ∧ cryptoBignumLegendre n prime = -1 := by
      intro qr qnr hqr hqnr hnone h
      cases v with
      | none =>
        rcases hnone with rfl | rfl
        · cases h
        · cases qr with
          | none => cases h
          | some a => cases h
      | some v =>
        rw [getQrQnr] at h
        · split at h
          · cases h
          · dsimp only at h
            split at h
            · rename_i hres
              refine ih ?_ hqnr h
              intro a ha
              cases ha
              exact hres.2
            · split at h
              · rename_i hres
                refine ih hqr ?_ h
                intro a ha
                cases ha
                exact hres.2
              · exact ih hqr hqnr h
        · intro a b ha hb
          rcases hnone with hnone | hnone
          · rw [hnone] at ha
            cases ha
          · rw [hnone] at hb
            cases hb
    cases qr with
    | none => exact hstep hqr hqnr (.inl rfl) h
    | some a =>
      cases qnr with
      | none => exact hstep hqr hqnr (.inr rfl) h
      | some b =>
        cases h
        exact ⟨hqr q rfl, hqnr n rfl⟩

theorem isResidue_iff [Fact ec.prime.Prime] {qr qnr r y : Nat}
    (hqr : cryptoBignumLegendre qr ec.prime = 1) (hqnr : cryptoBignumLegendre qnr ec.prime = -1)
    (hr : r < ec.prime) (h0 : r ≠ 0) :
    (if r % 2 = 1 then
      cryptoBignumLegendre (cryptoBignumMulmod
        (cryptoBignumMulmod (cryptoBignumMulmod y r ec.prime) r ec.prime) qr ec.prime) ec.prime = 1
    else
      cryptoBignumLegendre (cryptoBignumMulmod
        (cryptoBignumMulmod (cryptoBignumMulmod y r ec.prime) r ec.prime) qnr ec.prime) ec.prime = -1) ↔
      cryptoBignumLegendre y ec.prime = 1 := by
  have hodd : ec.prime ≠ 2 := odd_of_legendre_neg hqnr
  split
  · rw [legendre_blinded hodd hr h0, hqr, mul_one]
  · rw [legendre_blinded hodd hr h0, hqnr]
    constructor
    · intro h
      omega
    · intro h
      rw [h]
      rfl

def SameElement (st st' : PwdHunt P) : Prop := st.pwe = st'.pwe ∧ st.found = st'.found

theorem takeCandidate_same {cofactor x : Nat} {isOdd : Bool} {st st' : PwdHunt P} (h : SameElement st st') :
    SameElement (takeCandidate ec cofactor x isOdd st) (takeCandidate ec cofactor x isOdd st') ∧
      (takeCandidate ec cofactor x isOdd st).rand = st.rand := by
  obtain ⟨pwe, found, rand⟩ := st
  obtain ⟨pwe', found', rand'⟩ := st'
  obtain ⟨hpwe, hfound⟩ := h
  dsimp only at hpwe hfound
  subst hpwe hfound
  unfold takeCandidate
  dsimp only
  split
  · exact ⟨⟨rfl, rfl⟩, rfl⟩
  · split
    · exact ⟨⟨rfl, rfl⟩, rfl⟩
    · split
      · exact ⟨⟨rfl, rfl⟩, rfl⟩
      · split
        · exact ⟨⟨rfl, rfl⟩, rfl⟩
        · split
          · exact ⟨⟨rfl, rfl⟩, rfl⟩
          · split
            · exact ⟨⟨rfl, rfl⟩, rfl⟩
            · exact ⟨⟨rfl, rfl⟩, rfl⟩

/-- What a round does to the password element, whatever blinds it. -/
def huntElement (lib : PwdLib P) (ec : CryptoEc P) (cofactor : Nat) (seed : Bytes) (st : PwdHunt P)
    (ctr : Nat) : PwdHunt P :=
  let pweDigest := eapPwdH lib (seed ++ [UInt8.ofNat ctr])
  let x := xCandidate lib ec pweDigest
  if liveRound lib ec seed ctr ∧ cryptoBignumLegendre (ec.pointComputeYSqr x) ec.prime = 1 then
    takeCandidate ec cofactor x (beNat pweDigest % 2 = 1) st
  else st

theorem huntElement_same {cofactor ctr : Nat} {st st' : PwdHunt P} (h : SameElement st st') :
    SameElement (huntElement lib ec cofactor seed st ctr) (huntElement lib ec cofactor seed st' ctr) := by
  unfold huntElement
  dsimp only
  split
  · exact (takeCandidate_same h).1
  · exact h

theorem huntRound_spec [Fact ec.prime.Prime] {cofactor qr qnr ctr : Nat} {st st₁ : PwdHunt P}
    (hqr : cryptoBignumLegendre qr ec.prime = 1) (hqnr : cryptoBignumLegendre qnr ec.prime = -1)
    (hz : BlindingNonzero ec (liveRound lib ec seed ctr).toNat st.rand)
    (h : huntRound lib ec cofactor qr qnr seed st ctr = some st₁) :
    SameElement st₁ (huntElement lib ec cofactor seed st ctr) ∧
      st₁.rand = st.rand.drop (liveRound lib ec seed ctr).toNat := by
  unfold huntRound at h
  unfold huntElement
  dsimp only at h ⊢
  split at h
  · rename_i hle
    cases h
    have hdead : liveRound lib ec seed ctr = false := decide_eq_false (Nat.not_lt.2 hle)
    rw [hdead, if_neg (fun hlive => Bool.false_ne_true hlive.1)]
    exact ⟨⟨rfl, rfl⟩, rfl⟩
  · rename_i hlt
    have hlive : liveRound lib ec seed ctr = true := decide_eq_true (Nat.lt_of_not_le hlt)
    rw [hlive] at hz ⊢
    split at h
    · cases h
    · rename_i r rand hdraw
      obtain ⟨v, hrand, rfl⟩ : ∃ v, st.rand = some v :: rand ∧ r = v % (ec.prime - 1) := by
        cases hst : st.rand with
        | nil =>
          rw [hst] at hdraw
          cases hdraw
        | cons v rest =>
          rw [hst] at hdraw
          cases v with
          | none => cases hdraw
          | some v =>
            simp only [cryptoBignumRand, Prod.mk.injEq] at hdraw
            obtain ⟨hr, rfl⟩ := hdraw
            split at hr
            · cases hr
            · cases hr
              exact ⟨v, rfl, rfl⟩
      have hne : v % (ec.prime - 1) ≠ 0 := by
        refine hz (some v) ?_ v rfl
        rw [hrand]
        exact mem_cons_self
      have hp : 2 ≤ ec.prime := (Fact.out : ec.prime.Prime).two_le
      have hr : v % (ec.prime - 1) < ec.prime := by
        have := Nat.mod_lt v (show 0 < ec.prime - 1 by omega)
        omega
      have hdrop : rand = st.rand.drop true.toNat := by
        rw [hrand]
        rfl
      by_cases hres : cryptoBignumLegendre
          (ec.pointComputeYSqr (xCandidate lib ec (eapPwdH lib (seed ++ [UInt8.ofNat ctr])))) ec.prime = 1
      · rw [if_pos ((isResidue_iff hqr hqnr hr hne).2 hres)] at h
        cases h
        rw [if_pos ⟨rfl, hres⟩]
        have hsame : SameElement { st with rand } st := ⟨rfl, rfl⟩
        exact ⟨(takeCandidate_same hsame).1, (takeCandidate_same hsame).2.trans hdrop⟩
      · rw [if_neg (mt (isResidue_iff hqr hqnr hr hne).1 hres)] at h
        cases h
        rw [if_neg (fun hpos => hres hpos.2)]
        exact ⟨⟨rfl, rfl⟩, hdrop⟩

theorem huntRounds_spec [Fact ec.prime.Prime] {cofactor qr qnr : Nat} {ctrs : List Nat}
    {st st₁ st' : PwdHunt P} (hqr : cryptoBignumLegendre qr ec.prime = 1)
    (hqnr : cryptoBignumLegendre qnr ec.prime = -1) (hsame : SameElement st st')
    (hz : BlindingNonzero ec (ctrs.filter (liveRound lib ec seed)).length st.rand)
    (h : ctrs.foldlM (huntRound lib ec cofactor qr qnr seed) st = some st₁) :
    SameElement st₁ (ctrs.foldl (huntElement lib ec cofactor seed) st') := by
  induction ctrs generalizing st st' with
  | nil =>
    cases h
    exact hsame
  | cons ctr ctrs ih =>
    simp only [foldlM_cons, Option.bind_eq_bind, Option.bind_eq_some_iff] at h
    obtain ⟨st₂, hround, h⟩ := h
    have hcount : ((ctr :: ctrs).filter (liveRound lib ec seed)).length =
        (liveRound lib ec seed ctr).toNat + (ctrs.filter (liveRound lib ec seed)).length := by
      rw [filter_cons]
      split
      · rename_i hlive
        rw [hlive, length_cons, Nat.add_comm]
        rfl
      · rename_i hdead
        rw [Bool.eq_false_iff.2 hdead]
        exact (Nat.zero_add _).symm
    rw [hcount] at hz
    obtain ⟨hsame₂, hrand₂⟩ := huntRound_spec hqr hqnr
      (fun v hv => hz v (take_subset_take_left _ (Nat.le_add_right _ _) hv)) hround
    refine ih ⟨hsame₂.1.trans (huntElement_same hsame).1, hsame₂.2.trans (huntElement_same hsame).2⟩ ?_ h
    intro v hv
    refine hz v ?_
    rw [hrand₂] at hv
    rw [take_add]
    exact mem_append_right _ hv

/-- **The password element is a function of the password.** Two computations with different random
numbers have the same result. -/
theorem computePasswordElement_unique [Fact ec.prime.Prime] {password idServer idPeer token : Bytes}
    {rand rand₁ rand' rand₁' : PwdRand} {pwe pwe' : P}
    (hz : PweDrawsNonzero lib ec (pwdSeed password idServer idPeer token) rand)
    (hz' : PweDrawsNonzero lib ec (pwdSeed password idServer idPeer token) rand')
    (h : computePasswordElement lib ec password idServer idPeer token rand = some (pwe, rand₁))
    (h' : computePasswordElement lib ec password idServer idPeer token rand' = some (pwe', rand₁')) :
    pwe = pwe' := by
  have hspec : ∀ {rand rand₁ : PwdRand} {pwe : P},
      PweDrawsNonzero lib ec (pwdSeed password idServer idPeer token) rand →
      computePasswordElement lib ec password idServer idPeer token rand = some (pwe, rand₁) →
      ∃ cofactor, lib.ecCofactor ec = some cofactor ∧
        pwe = (((List.range 40).map (· + 1)).foldl
          (huntElement lib ec cofactor (pwdSeed password idServer idPeer token))
          { pwe := ec.pointInit, rand := [] }).pwe := by
    intro rand rand₁ pwe hz h
    simp only [computePasswordElement, Option.bind_eq_bind, Option.bind_eq_some_iff] at h
    obtain ⟨cofactor, hcofactor, ⟨qr, qnr, rand₂⟩, hdraw, st, hloop, h⟩ := h
    split at h
    · cases h
      obtain ⟨hqr, hqnr⟩ := getQrQnr_legendre (by simp) (by simp) hdraw
      have hsame : SameElement { pwe := ec.pointInit, rand := rand₂ } { pwe := ec.pointInit, rand := [] } :=
        ⟨rfl, rfl⟩
      refine ⟨cofactor, hcofactor, ?_⟩
      exact (huntRounds_spec hqr hqnr hsame (hz _ hdraw) hloop).1
    · cases h
  obtain ⟨cofactor, hcofactor, hpwe⟩ := hspec hz h
  obtain ⟨cofactor', hcofactor', hpwe'⟩ := hspec hz' h'
  rw [hcofactor] at hcofactor'
  cases hcofactor'
  exact hpwe.trans hpwe'.symm

end Element

/-! ## The exchange -/

/-- What is drawn: the token, the numbers of the server for its password element and for its Commit, and
the numbers of the peer for both. -/
structure PwdDraws where
  token : Bytes
  token_length : token.length = 4
  serverPwe : PwdRand
  serverCommit : PwdRand
  peer : PwdRand

def PwdServer.takeRequest (d : PwdServer P) : Option (Bytes × PwdServer P) :=
  if d.state = .failure then none else d.outbuf.map fun req => (req, { d with outbuf := none })

/-- The response a peer has to send; with the last of it the method is done. -/
def PwdPeer.takeResponse (d : PwdPeer P) : Option (Bytes × PwdPeer P) :=
  d.outbuf.map fun resp => (resp, PwdPeer.complete { d with outbuf := none })

/-- A request is built, performed by the peer, and its response is processed. -/
def pwdRound (lib : PwdLib P) (sconf : PwdServerConf) (pconf : PwdPeerConf)
    (buildEnv peerEnv processEnv : PwdEnv) (s : PwdServer P) (p : PwdPeer P) :
    Except PwdFault (PwdServer P × PwdPeer P) := do
  let exch := s.state.exchange
  let s ← buildExchangeReq lib sconf buildEnv s
  match s.takeRequest with
  | none => return (s, p)
  | some (req, s) =>
    let p ← peerExchange lib pconf peerEnv exch req p
    match p.takeResponse with
    | none => return (s, p)
    | some (resp, p) =>
      let s ← serverExchange lib sconf processEnv exch resp s
      return (s, p)

def pwdExchange (lib : PwdLib P) (sconf : PwdServerConf) (pconf : PwdPeerConf) (r : PwdDraws) :
    Except PwdFault (PwdServer P × PwdPeer P) := do
  let (s, p) ← pwdRound lib sconf pconf { token := some r.token } {} { rand := r.serverPwe } {} {}
  if s.state ≠ .commitReq then
    return (s, p)
  let (s, p) ← pwdRound lib sconf pconf { rand := r.serverCommit } { rand := r.peer } {} s p
  if s.state ≠ .confirmReq then
    return (s, p)
  pwdRound lib sconf pconf {} {} {} s p

/-- What the two sides rely on of a group: it is one of prime order with cofactor one, and a point is
found again from its affine coordinates. -/
structure PwdLib.EncodesEc [AddCommGroup P] (lib : PwdLib P) (ec : CryptoEc P) : Prop where
  group : ec.Lawful
  cofactor : lib.ecCofactor ec = some 1
  affine_lt : ∀ p x y, ec.affineCoordinates p = some (x, y) → x < ec.prime ∧ y < ec.prime
  toCoordinates : ∀ p x y, ec.affineCoordinates p = some (x, y) → ec.pointFromCoordinates x y = some p

/-- Both sides after the ID exchange. -/
structure CommitReady (lib : PwdLib P) (sconf : PwdServerConf) (pconf : PwdPeerConf) (r : PwdDraws)
    (s : PwdServer P) (p : PwdPeer P) (ec : CryptoEc P) (prep : Nat) (password : Bytes) (pwe : P) : Prop where
  sState : s.state = .commitReq
  sPos : s.outFragPos = 0
  sOutbuf : s.outbuf = none
  sGrp : s.grp = some { ec, pwe := some pwe }
  pState : p.state = .commitReq
  pOutbuf : p.outbuf = none
  pGrp : p.grp = some { ec }
  pPrep : p.prep = prep
  pGroup : p.groupNum = sconf.groupNum
  pToken : p.token = r.token
  pIdServer : p.idServer = some sconf.idServer
  init : lib.ecInit sconf.groupNum = some ec
  prep_eq : serverPrep sconf = some prep
  password_eq : serverPassword lib sconf prep = some password
  pwe_eq : ∃ rand', computePasswordElement lib ec password sconf.idServer pconf.idPeer r.token r.serverPwe =
    some (pwe, rand')

section Exchange

variable {lib : PwdLib P} {sconf : PwdServerConf} {pconf : PwdPeerConf}

section Round

variable {buildEnv peerEnv processEnv : PwdEnv} {s s₁ s₂ s₃ : PwdServer P} {p p₁ p₂ : PwdPeer P}
variable {req resp : Bytes}

theorem pwdRound_noRequest (hbuild : buildExchangeReq lib sconf buildEnv s = .ok s₁)
    (hreq : s₁.takeRequest = none) :
    pwdRound lib sconf pconf buildEnv peerEnv processEnv s p = .ok (s₁, p) := by
  simp only [pwdRound, hbuild, bind, Except.bind, hreq, pure, Except.pure]

theorem pwdRound_noResponse (hbuild : buildExchangeReq lib sconf buildEnv s = .ok s₁)
    (hreq : s₁.takeRequest = some (req, s₂))
    (hperform : peerExchange lib pconf peerEnv s.state.exchange req p = .ok p₁)
    (hresp : p₁.takeResponse = none) :
    pwdRound lib sconf pconf buildEnv peerEnv processEnv s p = .ok (s₂, p₁) := by
  simp only [pwdRound, hbuild, bind, Except.bind, hreq, hperform, hresp, pure, Except.pure]

theorem pwdRound_done (hbuild : buildExchangeReq lib sconf buildEnv s = .ok s₁)
    (hreq : s₁.takeRequest = some (req, s₂))
    (hperform : peerExchange lib pconf peerEnv s.state.exchange req p = .ok p₁)
    (hresp : p₁.takeResponse = some (resp, p₂))
    (hprocess : serverExchange lib sconf processEnv s.state.exchange resp s₂ = .ok s₃) :
    pwdRound lib sconf pconf buildEnv peerEnv processEnv s p = .ok (s₃, p₂) := by
  simp only [pwdRound, hbuild, bind, Except.bind, hreq, hperform, hresp, hprocess, pure, Except.pure]

end Round

theorem serverPrep_mem {prep : Nat} (h : serverPrep sconf = some prep) : prep ∈ [0, 1, 3, 4, 5] := by
  unfold serverPrep at h
  split at h
  · split at h
    · cases h
      decide
    · cases h
      decide
    · cases h
      decide
    · cases h
  · split at h
    · cases h
      decide
    · cases h
      decide

theorem idMessage_parts {token : Bytes} (htoken : token.length = 4) (groupNum : Nat) {prep : Nat}
    (hprep : prep < 256) (id : Bytes) :
    let m := be16 groupNum ++ [1, 1] ++ token ++ [UInt8.ofNat prep] ++ id
    ¬ m.length < 9 ∧ getBe16 m = groupNum % 65536 ∧ m.getD 2 0 = 1 ∧ m.getD 3 0 = 1 ∧
      slice m 4 4 = token ∧ (m.getD 8 0).toNat = prep ∧ m.drop 9 = id := by
  obtain ⟨a, b, c, d, rfl⟩ : ∃ a b c d, token = [a, b, c, d] := by
    match token, htoken with
    | [a, b, c, d], _ => exact ⟨a, b, c, d, rfl⟩
  refine ⟨?_, ?_, rfl, rfl, rfl, ?_, rfl⟩
  · simp [be16]
  · simp only [be16, getBe16, cons_append, getD_cons_zero, getD_cons_succ,
      UInt8.toNat_ofNat']
    omega
  · show (UInt8.ofNat prep).toNat = prep
    rw [UInt8.toNat_ofNat']
    omega

theorem performIdReq (lib : PwdLib P) (pconf : PwdPeerConf) {token : Bytes} (htoken : token.length = 4)
    {groupNum prep : Nat} (hprep : prep ∈ [0, 1, 3, 4, 5]) (idServer : Bytes) :
    let p := eapPwdPerformIdExchange lib pconf {} (be16 groupNum ++ [1, 1] ++ token ++ [UInt8.ofNat prep] ++
      idServer) {}
    p.outbuf = none ∧ p.state = .failure ∨
      ∃ ec, lib.ecInit (groupNum % 65536 : Nat) = some ec ∧
        p = { groupNum := groupNum % 65536, prep, token, idServer := some idServer, grp := some { ec },
              outbuf := some (be16 (groupNum % 65536) ++ [1, 1] ++ token ++ [UInt8.ofNat prep] ++
                pconf.idPeer), state := .commitReq } := by
  have hlt : prep < 256 := by
    simp only [mem_cons, not_mem_nil, or_false] at hprep
    omega
  obtain ⟨hlen, hgroup, h2, h3, hslice, h8, hdrop⟩ := idMessage_parts htoken groupNum hlt idServer
  unfold eapPwdPerformIdExchange
  dsimp only
  rw [if_neg (by simp only [ne_eq, not_true_eq_false, false_or]; exact hlen), hgroup, h2, h3, hslice, h8,
    hdrop, if_neg (by simp), if_neg (not_not.2 hprep)]
  split
  · exact .inl ⟨rfl, rfl⟩
  · rw [if_neg (by simp)]
    split
    · exact .inl ⟨rfl, rfl⟩
    · rename_i ec hec
      exact .inr ⟨ec, hec, rfl⟩

theorem processIdResp (lib : PwdLib P) (sconf : PwdServerConf) (pconf : PwdPeerConf) {token : Bytes}
    (htoken : token.length = 4) (groupNum : Nat) {prep : Nat} (hprep : prep < 256) (rand : PwdRand) :
    let s := eapPwdProcessIdResp lib sconf { rand } (be16 groupNum ++ [1, 1] ++ token ++
      [UInt8.ofNat prep] ++ pconf.idPeer) { token, passwordPrep := prep }
    (s.state = .idReq ∨ s.state = .failure) ∨
      ∃ ec password pwe rand', sconf.groupNum = groupNum % 65536 ∧ lib.ecInit sconf.groupNum = some ec ∧
        serverPassword lib sconf prep = some password ∧
        computePasswordElement lib ec password sconf.idServer pconf.idPeer token rand = some (pwe, rand') ∧
        s = { token, passwordPrep := prep, idPeer := some pconf.idPeer,
              grp := some { ec, pwe := some pwe }, state := .commitReq } := by
  obtain ⟨hlen, hgroup, h2, h3, hslice, h8, hdrop⟩ := idMessage_parts htoken groupNum hprep pconf.idPeer
  unfold eapPwdProcessIdResp
  dsimp only
  rw [if_neg hlen, hgroup, h2, h3, hslice, h8, hdrop]
  split
  · exact .inl (.inr rfl)
  · rename_i hmatch
    have hgroupEq : sconf.groupNum = groupNum % 65536 := not_not.1 (fun hne => hmatch (.inl hne))
    rw [if_neg (by simp), if_neg (by simp)]
    split
    · exact .inl (.inl rfl)
    · rename_i ec hec
      split
      · exact .inl (.inl rfl)
      · rename_i password hpassword
        split
        · exact .inl (.inl rfl)
        · rename_i pwe rand' hpwe
          exact .inr ⟨ec, password, pwe, rand', hgroupEq, hec, hpassword, hpwe, rfl⟩

theorem idRound_spec (lib : PwdLib P) (sconf : PwdServerConf) (pconf : PwdPeerConf) (r : PwdDraws) :
    ∃ s p, pwdRound lib sconf pconf { token := some r.token } {} { rand := r.serverPwe } {} {} =
        .ok (s, p) ∧ s.state ≠ .success ∧ p.state ≠ .success ∧
      (s.state = .commitReq → ∃ ec prep password pwe,
        CommitReady lib sconf pconf r s p ec prep password pwe) := by
  cases hprep : serverPrep sconf with
  | none =>
    have hbuild : buildExchangeReq lib sconf { token := some r.token } ({} : PwdServer P) =
        .ok { token := r.token, outbuf := some [], state := .failure } := by
      simp [buildExchangeReq, eapPwdBuildIdReq, hprep]
    refine ⟨_, _, pwdRound_noRequest hbuild rfl, ?_, ?_, ?_⟩
    · intro h
      cases h
    · intro h
      cases h
    · intro h
      cases h
  | some prep =>
    have hmem := serverPrep_mem hprep
    have hlt : prep < 256 := by
      simp only [mem_cons, not_mem_nil, or_false] at hmem
      omega
    have hbuild : buildExchangeReq lib sconf { token := some r.token } ({} : PwdServer P) =
        .ok { token := r.token, passwordPrep := prep,
              outbuf := some (be16 sconf.groupNum ++ [1, 1] ++ r.token ++ [UInt8.ofNat prep] ++
                sconf.idServer) } := by
      simp [buildExchangeReq, eapPwdBuildIdReq, hprep]
    have hperform : ∀ req, peerExchange lib pconf {} PwdExchange.id req ({} : PwdPeer P) =
        .ok (eapPwdPerformIdExchange lib pconf {} req {}) := fun _ => rfl
    rcases performIdReq lib pconf r.token_length hmem sconf.idServer with
      ⟨houtbuf, hfail⟩ | ⟨ec, hec, hp⟩
    · refine ⟨_, _, pwdRound_noResponse hbuild rfl (hperform _) ?_, ?_, ?_, ?_⟩
      · rw [PwdPeer.takeResponse, houtbuf]
        rfl
      · intro h
        cases h
      · rw [hfail]
        intro h
        cases h
      · intro h
        cases h
    · refine ⟨_, _, pwdRound_done hbuild rfl ((hperform _).trans (congrArg _ hp)) rfl rfl, ?_⟩
      rcases processIdResp lib sconf pconf r.token_length
        (sconf.groupNum % 65536) hlt r.serverPwe with hidle | ⟨ec', password, pwe, rand', hgroup,
          hec', hpassword, hpwe, hs⟩
      · refine ⟨?_, ?_, ?_⟩
        · intro h
          rcases hidle with hidle | hidle
          · exact absurd (hidle.symm.trans h) (by decide)
          · exact absurd (hidle.symm.trans h) (by decide)
        · intro h
          cases h
        · intro h
          rcases hidle with hidle | hidle
          · exact absurd (hidle.symm.trans h) (by decide)
          · exact absurd (hidle.symm.trans h) (by decide)
      · have hecEq : ec' = ec := by
          rw [hgroup, Nat.mod_mod, hec] at hec'
          exact (Option.some.inj hec').symm
        subst hecEq
        rw [hs]
        refine ⟨?_, ?_, ?_⟩
        · intro h
          cases h
        · intro h
          cases h
        · intro _
          refine ⟨ec', prep, password, pwe, ⟨rfl, rfl, rfl, rfl, rfl, rfl, rfl, rfl, ?_, rfl, rfl, hec', hprep,
            hpassword, rand', hpwe⟩⟩
          show sconf.groupNum % 65536 = sconf.groupNum
          omega

/-! ### The Commit exchange -/

theorem commitOctets_parts [AddCommGroup P] {ec : CryptoEc P} (hec : lib.EncodesEc ec) {scalar : Nat}
    {element : P} {octets : Bytes} (hscalar : scalar < ec.order)
    (h : commitOctets ec scalar element = some octets) :
    octets.length = commitLen ec ∧ ec.pointFromBin octets = some element ∧
      commitScalar ec octets = scalar := by
  simp only [commitOctets, CryptoEc.pointToBin, Option.map_map, Option.map_eq_some_iff,
    Function.comp_apply, Prod.exists] at h
  obtain ⟨x, y, hxy, rfl⟩ := h
  obtain ⟨hx, hy⟩ := hec.affine_lt _ _ _ hxy
  have hprime : ∀ n, n < ec.prime → n < 256 ^ ec.primeLen := fun n hn => hn.trans (lt_pow_numBytes ec.prime)
  have horder : scalar < 256 ^ ec.orderLen := hscalar.trans (lt_pow_numBytes ec.order)
  refine ⟨?_, ?_, ?_⟩
  · simp only [length_append, natBe_length, commitLen]
    omega
  · have hfirst : (natBe ec.primeLen x ++ natBe ec.primeLen y ++ natBe ec.orderLen scalar).take ec.primeLen =
        natBe ec.primeLen x := by
      rw [append_assoc]
      exact take_left' (natBe_length _ _)
    have hsecond : slice (natBe ec.primeLen x ++ natBe ec.primeLen y ++ natBe ec.orderLen scalar)
        ec.primeLen ec.primeLen = natBe ec.primeLen y := by
      rw [append_assoc]
      exact slice_middle (natBe_length _ _) (natBe_length _ _)
    rw [CryptoEc.pointFromBin, hfirst, hsecond, beNat_natBe (hprime x hx), beNat_natBe (hprime y hy)]
    exact hec.toCoordinates _ _ _ hxy
  · have hlast : slice (natBe ec.primeLen x ++ natBe ec.primeLen y ++ natBe ec.orderLen scalar)
        (2 * ec.primeLen) ec.orderLen = natBe ec.orderLen scalar := by
      have hlen : (natBe ec.primeLen x ++ natBe ec.primeLen y).length = 2 * ec.primeLen := by
        simp only [length_append, natBe_length]
        omega
      have hmiddle := slice_middle (c := []) hlen (natBe_length ec.orderLen scalar)
      rwa [append_nil] at hmiddle
    rw [commitScalar, hlast, beNat_natBe horder]

theorem splitCommit_request {ec : CryptoEc P} {prep : Nat} {octets salt commit : Bytes}
    (hprep : serverPrep sconf = some prep) (hlen : octets.length = commitLen ec)
    (h : splitCommit ec prep ((if sconf.salt.length ≠ 0 then UInt8.ofNat sconf.salt.length :: sconf.salt
      else []) ++ octets) = some (salt, commit)) : salt = sconf.salt ∧ commit = octets := by
  have hsalted : sconf.salt.length ≠ 0 ↔ ¬ (prep = 0 ∨ prep = 1) := by
    unfold serverPrep at hprep
    split at hprep
    · rename_i hne
      refine iff_of_true hne ?_
      split at hprep
      · cases hprep
        decide
      · cases hprep
        decide
      · cases hprep
        decide
      · cases hprep
    · rename_i hz
      refine iff_of_false hz ?_
      split at hprep
      · cases hprep
        decide
      · cases hprep
        decide
  unfold splitCommit at h
  split at h
  · rename_i hplain
    have hzero : sconf.salt = [] := by
      rw [← length_eq_zero_iff]
      exact not_not.1 (fun hne => hsalted.1 hne hplain)
    have hnone : (if sconf.salt.length ≠ 0 then UInt8.ofNat sconf.salt.length :: sconf.salt else []) = [] := by
      rw [hzero]
      rfl
    rw [hnone, nil_append, if_neg (not_not.2 hlen)] at h
    cases h
    exact ⟨hzero.symm, rfl⟩
  · rename_i hsalt
    have hne := hsalted.2 hsalt
    rw [if_pos hne] at h
    split at h
    · cases h
    · dsimp only at h
      have hfirst : ((UInt8.ofNat sconf.salt.length :: sconf.salt ++ octets).getD 0 0).toNat =
          sconf.salt.length % 256 := UInt8.toNat_ofNat'
      rw [hfirst] at h
      split at h
      · cases h
      · rename_i htotal
        -- the length fits only if the octet holds all of the salt's length
        have hall : sconf.salt.length % 256 = sconf.salt.length := by
          have htotal := not_not.1 htotal
          simp only [cons_append, length_cons, length_append, hlen] at htotal
          omega
        rw [hall] at h
        cases h
        refine ⟨?_, ?_⟩
        · exact take_left
        · rw [Nat.add_comm]
          exact drop_left

/-- What a peer has after a Commit request it answers. -/
structure PeerCommitted (lib : PwdLib P) (sconf : PwdServerConf) (pconf : PwdPeerConf) (r : PwdDraws)
    (ec : CryptoEc P) (prep : Nat) (own : PwdOwn P) (p : PwdPeer P) (password : Bytes) (pwe : P)
    (peerOwn : PwdOwn P) (k : Nat) : Prop where
  state : p.state = .confirmReq
  grp : p.grp = some { ec, pwe := some pwe }
  groupNum : p.groupNum = sconf.groupNum
  myScalar : p.myScalar = some peerOwn.scalar
  myElement : p.myElement = some peerOwn.element
  serverScalar : p.serverScalar = some own.scalar
  serverElement : p.serverElement = some own.element
  k_eq : p.k = some k
  password_eq : peerPassword lib pconf prep sconf.salt = some password
  pwe_eq : ∃ rand', computePasswordElement lib ec password sconf.idServer pconf.idPeer r.token r.peer =
    some (pwe, rand')
  own_eq : ∃ rand, pwdOwnCommit ec pwe rand = some peerOwn
  shared : pwdSharedKey ec 1 pwe peerOwn.privateValue own.scalar own.element = some k

theorem pwdOwnCommit_lt {ec : CryptoEc P} {pwe : P} {rand : PwdRand} {own : PwdOwn P}
    (h : pwdOwnCommit ec pwe rand = some own) : own.scalar < ec.order := by
  unfold pwdOwnCommit at h
  split at h
  · cases h
  · rename_i privateValue rest hdraw
    split at h
    · cases h
    · simp only [Option.bind_eq_bind, Option.bind_eq_some_iff, Option.pure_def, Option.some.injEq] at h
      obtain ⟨element, -, element', -, rfl⟩ := h
      refine Nat.mod_lt _ (Nat.pos_of_ne_zero ?_)
      intro hzero
      rw [hzero] at hdraw
      cases rand with
      | nil => cases hdraw
      | cons v rand =>
        cases v with
        | none => cases hdraw
        | some v => cases hdraw

theorem performCommitReq [AddCommGroup P] {r : PwdDraws} {s : PwdServer P} {p : PwdPeer P} {ec : CryptoEc P}
    {prep : Nat} {password octets : Bytes} {pwe : P} {own : PwdOwn P} (hec : lib.EncodesEc ec)
    (hready : CommitReady lib sconf pconf r s p ec prep password pwe) (hlt : own.scalar < ec.order)
    (hoctets : commitOctets ec own.scalar own.element = some octets) :
    let p₁ := eapPwdPerformCommitExchange lib pconf { rand := r.peer } ((if sconf.salt.length ≠ 0 then
      UInt8.ofNat sconf.salt.length :: sconf.salt else []) ++ octets) p
    p₁.outbuf = none ∧ p₁.state = .failure ∨
      ∃ password' pwe' peerOwn k resp, p₁.outbuf = some resp ∧
        commitOctets ec peerOwn.scalar peerOwn.element = some resp ∧ peerOwn.scalar < ec.order ∧
        PeerCommitted lib sconf pconf r ec prep own p₁ password' pwe' peerOwn k := by
  have hfinish : ∀ (next : PwdPeerState) (d : PwdPeer P), d.outbuf = none →
      (d.finish next).outbuf = none ∧ (d.finish next).state = .failure := by
    intro next d hd
    refine ⟨hd, ?_⟩
    unfold PwdPeer.finish
    rw [hd]
    rfl
  obtain ⟨hlen, hpoint, hscalar⟩ := commitOctets_parts hec hlt hoctets
  unfold eapPwdPerformCommitExchange
  dsimp only
  rw [if_neg (not_not.2 hready.pState), hready.pGrp]
  dsimp only
  split
  · exact .inl ⟨hready.pOutbuf, rfl⟩
  · split
    · exact .inl (hfinish _ _ hready.pOutbuf)
    · rename_i salt commit hsplit
      rw [hready.pPrep] at hsplit
      obtain ⟨rfl, rfl⟩ := splitCommit_request hready.prep_eq hlen hsplit
      split
      · split
        · exact .inl ⟨hready.pOutbuf, rfl⟩
        · exact .inl (hfinish _ _ hready.pOutbuf)
      · rename_i password' hpassword
        rw [if_neg (by simp)]
        split
        · exact .inl ⟨hready.pOutbuf, rfl⟩
        · rename_i pwe' rand hpwe
          unfold peerCommitWith
          dsimp only
          rw [if_neg (by simp), hec.cofactor]
          dsimp only
          split
          · exact .inl (hfinish _ _ hready.pOutbuf)
          · rename_i peerOwn hown
            rw [hpoint, hscalar]
            dsimp only
            split
            · exact .inl (hfinish _ _ hready.pOutbuf)
            · rename_i k hk
              split
              · exact .inl (hfinish _ _ hready.pOutbuf)
              · rename_i resp hresp
                rw [hready.pPrep] at hpassword
                rw [hready.pIdServer, hready.pToken] at hpwe
                exact .inr ⟨password', pwe', peerOwn, k, resp, rfl, hresp, pwdOwnCommit_lt hown,
                  ⟨rfl, rfl, hready.pGroup, rfl, rfl, rfl, rfl, rfl, hpassword, ⟨rand, hpwe⟩, ⟨rand, hown⟩, hk⟩⟩

/-- What a server has after a Commit response it goes on with. -/
structure ServerCommitted (ec : CryptoEc P) (pwe : P) (own peerOwn : PwdOwn P) (k : Nat) (s : PwdServer P) :
    Prop where
  state : s.state = .confirmReq
  pos : s.outFragPos = 0
  outbuf : s.outbuf = none
  grp : s.grp = some { ec, pwe := some pwe }
  myScalar : s.myScalar = some own.scalar
  myElement : s.myElement = some own.element
  peerScalar : s.peerScalar = some peerOwn.scalar
  peerElement : s.peerElement = some peerOwn.element
  k_eq : s.k = some k
  shared : pwdSharedKey ec 1 pwe own.privateValue peerOwn.scalar peerOwn.element = some k

theorem processCommitResp [AddCommGroup P] {s : PwdServer P} {ec : CryptoEc P} {pwe : P}
    {own peerOwn : PwdOwn P} {resp : Bytes} (hec : lib.EncodesEc ec)
    (hgrp : s.grp = some { ec, pwe := some pwe }) (hpos : s.outFragPos = 0) (houtbuf : s.outbuf = none)
    (hprivate : s.privateValue = some own.privateValue) (hscalar : s.myScalar = some own.scalar)
    (helement : s.myElement = some own.element) (hlt : peerOwn.scalar < ec.order)
    (hresp : commitOctets ec peerOwn.scalar peerOwn.element = some resp) :
    ∃ s₁, eapPwdProcessCommitResp lib {} resp s = .ok s₁ ∧
      (s₁.state = .failure ∨ ∃ k, ServerCommitted ec pwe own peerOwn k s₁) := by
  obtain ⟨hlen, hpoint, hpeerScalar⟩ := commitOctets_parts hec hlt hresp
  cases hk : pwdSharedKey ec 1 pwe own.privateValue peerOwn.scalar peerOwn.element with
  | none =>
    refine ⟨{ s with peerElement := some peerOwn.element, peerScalar := some peerOwn.scalar, k := some 0,
                     state := .failure }, ?_, .inl rfl⟩
    simp [eapPwdProcessCommitResp, hgrp, pwdDeref, hlen, hec.cofactor, hpoint, hpeerScalar, hprivate, hk,
      bind, Except.bind, pure, Except.pure]
  | some k =>
    refine ⟨{ s with peerElement := some peerOwn.element, peerScalar := some peerOwn.scalar, k := some k,
                     state := .confirmReq }, ?_,
      .inr ⟨k, ⟨rfl, hpos, houtbuf, hgrp, hscalar, helement, rfl, rfl, rfl, hk⟩⟩⟩
    simp [eapPwdProcessCommitResp, hgrp, pwdDeref, hlen, hec.cofactor, hpoint, hpeerScalar, hprivate, hk,
      bind, Except.bind, pure, Except.pure]

/-- Both sides after the Commit exchange: neither is done, and if the server goes on both have the other's
Commit. -/
def CommitDone (lib : PwdLib P) (sconf : PwdServerConf) (pconf : PwdPeerConf) (r : PwdDraws)
    (ec : CryptoEc P) (prep : Nat) (pwe : P) (s : PwdServer P) (p : PwdPeer P) : Prop :=
  s.state ≠ .success ∧ p.state ≠ .success ∧
    (s.state = .confirmReq → ∃ own peerOwn k k' password' pwe',
      pwdOwnCommit ec pwe r.serverCommit = some own ∧ ServerCommitted ec pwe own peerOwn k s ∧
      PeerCommitted lib sconf pconf r ec prep own p password' pwe' peerOwn k' ∧ p.outbuf = none)

theorem CommitDone.failure {r : PwdDraws} {s : PwdServer P} {p : PwdPeer P} {ec : CryptoEc P} {prep : Nat}
    {pwe : P} (hs : s.state ≠ .success) (hs' : s.state ≠ .confirmReq) (hp : p.state ≠ .success) :
    CommitDone lib sconf pconf r ec prep pwe s p :=
  ⟨hs, hp, fun h => absurd h hs'⟩

theorem PwdServer.takeRequest_failure {d : PwdServer P} (h : d.state = .failure) : d.takeRequest = none := by
  unfold PwdServer.takeRequest
  rw [if_pos h]

theorem commitRound_answered [AddCommGroup P] {r : PwdDraws} {s s₁ s₂ : PwdServer P} {p : PwdPeer P}
    {ec : CryptoEc P} {prep : Nat} {password octets : Bytes} {pwe : P} {own : PwdOwn P}
    (hec : lib.EncodesEc ec) (hready : CommitReady lib sconf pconf r s p ec prep password pwe)
    (hbuild : buildExchangeReq lib sconf { rand := r.serverCommit } s = .ok s₁)
    (hreq : s₁.takeRequest = some ((if sconf.salt.length ≠ 0 then
      UInt8.ofNat sconf.salt.length :: sconf.salt else []) ++ octets, s₂))
    (hown : pwdOwnCommit ec pwe r.serverCommit = some own)
    (hoctets : commitOctets ec own.scalar own.element = some octets)
    (hstate : s₂.state = .commitReq)
    (hgrp : s₂.grp = some { ec, pwe := some pwe }) (hpos : s₂.outFragPos = 0) (houtbuf : s₂.outbuf = none)
    (hprivate : s₂.privateValue = some own.privateValue) (hscalar : s₂.myScalar = some own.scalar)
    (helement : s₂.myElement = some own.element) :
    ∃ s' p', pwdRound lib sconf pconf { rand := r.serverCommit } { rand := r.peer } {} s p = .ok (s', p') ∧
      CommitDone lib sconf pconf r ec prep pwe s' p' := by
  have hexch : s.state.exchange = .commit := by
    rw [hready.sState]
    rfl
  have hperform : ∀ req, peerExchange lib pconf { rand := r.peer } s.state.exchange req p =
      .ok (eapPwdPerformCommitExchange lib pconf { rand := r.peer } req p) := by
    intro req
    rw [hexch]
    rfl
  rcases performCommitReq hec hready (pwdOwnCommit_lt hown) hoctets with ⟨hnone, hfail⟩ |
    ⟨password', pwe', peerOwn, k', resp, hout, hresp, hlt, hpeer⟩
  · refine ⟨_, _, pwdRound_noResponse hbuild hreq (hperform _) ?_, .failure ?_ ?_ ?_⟩
    · unfold PwdPeer.takeResponse
      rw [hnone]
      rfl
    · rw [hstate]
      decide
    · rw [hstate]
      decide
    · rw [hfail]
      decide
  · obtain ⟨s₃, hprocess, hs₃⟩ := processCommitResp hec hgrp hpos houtbuf hprivate hscalar helement hlt hresp
    have hprocess' : serverExchange lib sconf {} s.state.exchange resp s₂ = .ok s₃ := by
      rw [hexch]
      exact hprocess
    -- the peer is not done with its Commit, so sending it leaves the rest as it is
    have htake : ∀ d : PwdPeer P, d.state = .confirmReq → d.outbuf = some resp →
        d.takeResponse = some (resp, { d with outbuf := none }) := by
      intro d hd hd'
      unfold PwdPeer.takeResponse PwdPeer.complete
      rw [hd', if_neg (by rw [hd]; decide)]
      rfl
    refine ⟨_, _, pwdRound_done hbuild hreq (hperform _) (htake _ hpeer.state hout) hprocess', ?_⟩
    have hnotDone : ∀ d : PwdPeer P, d.state = .confirmReq →
        ({ d with outbuf := none } : PwdPeer P).state ≠ .success := by
      intro d hd
      rw [show ({ d with outbuf := none } : PwdPeer P).state = d.state from rfl, hd]
      decide
    rcases hs₃ with hs₃ | ⟨k, hs₃⟩
    · refine .failure ?_ ?_ (hnotDone _ hpeer.state)
      · rw [hs₃]
        decide
      · rw [hs₃]
        decide
    · refine ⟨?_, hnotDone _ hpeer.state, fun _ => ?_⟩
      · rw [hs₃.state]
        decide
      · exact ⟨own, peerOwn, k, k', password', pwe', hown, hs₃,
          ⟨hpeer.state, hpeer.grp, hpeer.groupNum, hpeer.myScalar, hpeer.myElement, hpeer.serverScalar,
            hpeer.serverElement, hpeer.k_eq, hpeer.password_eq, hpeer.pwe_eq, hpeer.own_eq, hpeer.shared⟩,
          rfl⟩

theorem commitRound_spec [AddCommGroup P] {r : PwdDraws} {s : PwdServer P} {p : PwdPeer P} {ec : CryptoEc P}
    {prep : Nat} {password : Bytes} {pwe : P} (hec : lib.EncodesEc ec)
    (hready : CommitReady lib sconf pconf r s p ec prep password pwe) :
    ∃ s' p', pwdRound lib sconf pconf { rand := r.serverCommit } { rand := r.peer } {} s p = .ok (s', p') ∧
      CommitDone lib sconf pconf r ec prep pwe s' p' := by
  have hbuild : ∀ s₁, eapPwdBuildCommitReq sconf { rand := r.serverCommit } s = .ok s₁ →
      buildExchangeReq lib sconf { rand := r.serverCommit } s = .ok s₁ := by
    intro s₁ h
    unfold buildExchangeReq
    rw [hready.sState]
    exact h
  -- where the server fails to build there is no request
  have hstop : ∀ s₁, eapPwdBuildCommitReq sconf { rand := r.serverCommit } s = .ok s₁ →
      s₁.state = .failure → ∃ s' p', pwdRound lib sconf pconf { rand := r.serverCommit } { rand := r.peer }
        {} s p = .ok (s', p') ∧ CommitDone lib sconf pconf r ec prep pwe s' p' := by
    intro s₁ h hfail
    refine ⟨s₁, p, pwdRound_noRequest (hbuild s₁ h) (PwdServer.takeRequest_failure hfail), .failure ?_ ?_ ?_⟩
    · rw [hfail]
      decide
    · rw [hfail]
      decide
    · rw [hready.pState]
      decide
  cases hown : pwdOwnCommit ec pwe r.serverCommit with
  | none =>
    refine hstop { s with state := .failure } ?_ rfl
    simp [eapPwdBuildCommitReq, hready.sPos, hready.sGrp, pwdDeref, hown, bind, Except.bind, pure,
      Except.pure]
  | some own =>
    cases hoctets : commitOctets ec own.scalar own.element with
    | none =>
      refine hstop { s with
        privateValue := some own.privateValue
        myScalar := some own.scalar
        myElement := some own.element
        state := .failure } ?_ rfl
      simp [eapPwdBuildCommitReq, hready.sPos, hready.sGrp, pwdDeref, hown, hoctets, PwdServer.buildFailed,
        hready.sOutbuf, bind, Except.bind, pure, Except.pure]
    | some octets =>
      have hreq : eapPwdBuildCommitReq sconf { rand := r.serverCommit } s = .ok { s with
          privateValue := some own.privateValue
          myScalar := some own.scalar
          myElement := some own.element
          outbuf := some ((if sconf.salt.length ≠ 0 then
            UInt8.ofNat sconf.salt.length :: sconf.salt else []) ++ octets) } := by
        simp only [eapPwdBuildCommitReq, hready.sPos, hready.sGrp, pwdDeref, hown, hoctets, bind, Except.bind,
          pure, Except.pure, ne_eq, not_true_eq_false, if_false]
      have htake : ∀ d : PwdServer P, d.state = .commitReq → ∀ req, d.outbuf = some req →
          d.takeRequest = some (req, { d with outbuf := none }) := by
        intro d hd req hreq
        unfold PwdServer.takeRequest
        rw [if_neg (by rw [hd]; decide), hreq]
        rfl
      refine commitRound_answered hec hready (hbuild _ hreq) (htake _ ?_ _ rfl) hown hoctets ?_ ?_ ?_ rfl rfl
        rfl rfl
      · exact hready.sState
      · exact hready.sState
      · exact hready.sGrp
      · exact hready.sPos

/-! ### The Confirm exchange -/

def PwdPeer.ownConfirm (lib : PwdLib P) (p : PwdPeer P) : Option Bytes := do
  let grp ← p.grp
  pwdConfirm lib grp.ec p.groupNum (← p.k) (← p.myElement) (← p.myScalar) (← p.serverElement)
    (← p.serverScalar)

/-- Both sides have verified the Confirm of the other and have the same keys. -/
structure PwdAgreed (lib : PwdLib P) (s : PwdServer P) (p : PwdPeer P) : Prop where
  server : s.state = .success
  peer : p.state = .success
  serverConfirm : p.verified = some s.myConfirm
  peerConfirm : s.verified = p.ownConfirm lib ∧ s.verified.isSome
  k : s.k = p.k ∧ s.k.isSome
  msk : s.keys.msk = p.keys.msk
  emsk : s.keys.emsk = p.keys.emsk
  sessionId : s.keys.sessionId = p.keys.sessionId

theorem confirmRound_agree {r : PwdDraws} {s : PwdServer P} {p : PwdPeer P} {ec : CryptoEc P}
    {prep : Nat} {pwe pwe' : P} {own peerOwn : PwdOwn P} {k k' : Nat} {password' : Bytes}
    (hs : ServerCommitted ec pwe own peerOwn k s)
    (hp : PeerCommitted lib sconf pconf r ec prep own p password' pwe' peerOwn k') (houtbuf : p.outbuf = none)
    (hk : ∀ c, pwdConfirm lib ec sconf.groupNum k own.element own.scalar peerOwn.element peerOwn.scalar = some c →
      pwdConfirm lib ec sconf.groupNum k' own.element own.scalar peerOwn.element peerOwn.scalar = some c →
      k = k') :
    ∃ s' p', pwdRound lib sconf pconf {} {} {} s p = .ok (s', p') ∧
      (s'.state ≠ .success ∧ p'.state ≠ .success ∨ PwdAgreed lib s' p') := by
  have hbuild : ∀ s₁, eapPwdBuildConfirmReq lib sconf {} s = .ok s₁ →
      buildExchangeReq lib sconf {} s = .ok s₁ := by
    intro s₁ h
    unfold buildExchangeReq
    rw [hs.state]
    exact h
  have hexch : s.state.exchange = .confirm := by
    rw [hs.state]
    rfl
  have hconfirmLen : ∀ {k : Nat} {e₁ e₂ : P} {s₁ s₂ : Nat} {c : Bytes},
      pwdConfirm lib ec sconf.groupNum k e₁ s₁ e₂ s₂ = some c → c.length = sha256MacLen := by
    intro k e₁ e₂ s₁ s₂ c h
    obtain ⟨octets, -, rfl⟩ := Option.map_eq_some_iff.1 h
    exact lib.hmacSha256_length _ _
  have hperform : ∀ req p₁, eapPwdPerformConfirmExchange lib {} req p = .ok p₁ →
      peerExchange lib pconf {} s.state.exchange req p = .ok p₁ := by
    intro req p₁ h
    rw [hexch]
    exact h
  cases hc : pwdConfirm lib ec sconf.groupNum k own.element own.scalar peerOwn.element peerOwn.scalar with
  | none =>
    have hreq : eapPwdBuildConfirmReq lib sconf {} s = .ok { s with state := .failure } := by
      simp [eapPwdBuildConfirmReq, hs.pos, hs.grp, hs.k_eq, hs.myElement, hs.myScalar, hs.peerElement,
        hs.peerScalar, pwdDeref, hc, PwdServer.buildFailed, hs.outbuf, bind, Except.bind, pure, Except.pure]
    refine ⟨_, _, pwdRound_noRequest (hbuild _ hreq) (PwdServer.takeRequest_failure rfl), .inl ⟨?_, ?_⟩⟩
    · intro h
      cases h
    · rw [hp.state]
      decide
  | some c =>
    have hreq : eapPwdBuildConfirmReq lib sconf {} s =
        .ok { s with myConfirm := c, outbuf := some c } := by
      simp [eapPwdBuildConfirmReq, hs.pos, hs.grp, hs.k_eq, hs.myElement, hs.myScalar, hs.peerElement,
        hs.peerScalar, pwdDeref, hc, bind, Except.bind, pure, Except.pure]
    have htake : ({ s with myConfirm := c, outbuf := some c } : PwdServer P).takeRequest =
        some (c, { s with myConfirm := c, outbuf := none }) := by
      unfold PwdServer.takeRequest
      rw [if_neg]
      · rfl
      · intro h
        exact absurd (hs.state.symm.trans h) (by decide)
    -- a Confirm the peer does not answer ends it on both sides
    have hstop : eapPwdPerformConfirmExchange lib {} c p = .ok { p with state := .failure } →
        ∃ s' p', pwdRound lib sconf pconf {} {} {} s p = .ok (s', p') ∧
          (s'.state ≠ .success ∧ p'.state ≠ .success ∨ PwdAgreed lib s' p') := by
      intro hfail
      refine ⟨_, _, pwdRound_noResponse (hbuild _ hreq) htake (hperform _ _ hfail) ?_, .inl ⟨?_, ?_⟩⟩
      · unfold PwdPeer.takeResponse
        rw [show ({ p with state := .failure } : PwdPeer P).outbuf = none from houtbuf]
        rfl
      · intro h
        exact absurd (hs.state.symm.trans h) (by decide)
      · intro h
        cases h
    have hfinish : p.finish .successOnFragCompletion = { p with state := .failure } := by
      unfold PwdPeer.finish
      rw [houtbuf]
      rfl
    cases hc' : pwdConfirm lib ec sconf.groupNum k' own.element own.scalar peerOwn.element peerOwn.scalar with
    | none =>
      refine hstop ?_
      simp [eapPwdPerformConfirmExchange, hp.state, hconfirmLen hc, hp.grp, hp.k_eq, hp.serverElement,
        hp.serverScalar, hp.myElement, hp.myScalar, hp.groupNum, pwdDeref, hc', hfinish, bind, Except.bind,
        pure, Except.pure]
    | some c' =>
      by_cases heq : c' = c
      · subst heq
        have hkEq := hk c' hc hc'
        subst hkEq
        cases hresp : pwdConfirm lib ec sconf.groupNum k peerOwn.element peerOwn.scalar own.element own.scalar with
        | none =>
          refine hstop ?_
          simp [eapPwdPerformConfirmExchange, hp.state, hconfirmLen hc, hp.grp, hp.k_eq, hp.serverElement,
            hp.serverScalar, hp.myElement, hp.myScalar, hp.groupNum, pwdDeref, hc', hresp, hfinish, bind,
            Except.bind, pure, Except.pure]
        | some resp =>
          have hperformed : eapPwdPerformConfirmExchange lib {} c' p = .ok { p with
              keys := computeKeys lib ec sconf.groupNum k peerOwn.scalar own.scalar resp c'
              outbuf := some resp
              verified := some c'
              state := .successOnFragCompletion } := by
            simp [eapPwdPerformConfirmExchange, hp.state, hconfirmLen hc, hp.grp, hp.k_eq, hp.serverElement,
              hp.serverScalar, hp.myElement, hp.myScalar, hp.groupNum, pwdDeref, hc', hresp, PwdPeer.finish,
              bind, Except.bind, pure, Except.pure]
          have hprocessed : serverExchange lib sconf {} s.state.exchange resp
              { s with myConfirm := c', outbuf := none } = .ok { s with
                myConfirm := c'
                outbuf := none
                keys := computeKeys lib ec sconf.groupNum k peerOwn.scalar own.scalar resp c'
                state := .success
                verified := some resp } := by
            rw [hexch]
            simp [serverExchange, eapPwdProcessConfirmResp, hconfirmLen hresp, hs.grp, hs.k_eq, hs.peerElement,
              hs.peerScalar, hs.myElement, hs.myScalar, pwdDeref, hresp, bind, Except.bind, pure, Except.pure]
          refine ⟨_, _, pwdRound_done (hbuild _ hreq) htake (hperform _ _ hperformed) rfl hprocessed, .inr ?_⟩
          have hown : PwdPeer.ownConfirm lib { p with
              keys := computeKeys lib ec sconf.groupNum k peerOwn.scalar own.scalar resp c'
              outbuf := none
              verified := some c'
              state := .success } = some resp := by
            simp only [PwdPeer.ownConfirm, hp.grp, hp.k_eq, hp.serverElement, hp.serverScalar, hp.myElement,
              hp.myScalar, hp.groupNum, Option.bind_eq_bind, Option.bind_some, hresp]
          exact ⟨rfl, rfl, rfl, ⟨hown.symm, rfl⟩, ⟨hs.k_eq.trans hp.k_eq.symm, by rw [hs.k_eq]; rfl⟩, rfl, rfl,
            rfl⟩
      · refine hstop ?_
        simp [eapPwdPerformConfirmExchange, hp.state, hconfirmLen hc, hp.grp, hp.k_eq, hp.serverElement,
          hp.serverScalar, hp.myElement, hp.myScalar, hp.groupNum, pwdDeref, hc', heq, hfinish, bind,
          Except.bind, pure, Except.pure]

end Exchange

/-! ## Agreement -/

/-- The peer has the password of which the server has what it stores: the password itself, its NT hash,
or a salted hash. A peer may have the NT hash as well. -/
inductive SamePassword (lib : PwdLib P) (sconf : PwdServerConf) (pconf : PwdPeerConf) : Prop
  | plain (salt : sconf.salt = []) (hash : sconf.passwordHash = false)
      (password : sconf.password = pconf.password)
  | ntHash (salt : sconf.salt = []) (hash : sconf.passwordHash = true) (peerHash : pconf.passwordHash = false)
    (password : lib.ntPasswordHash pconf.password = some sconf.password)
  | ntHashes (salt : sconf.salt = []) (hash : sconf.passwordHash = true) (peerHash : pconf.passwordHash = true)
    (password : sconf.password = pconf.password)
  | sha1 (salt : sconf.salt ≠ []) (length : sconf.password.length = 20)
    (password : lib.sha1Vector (pconf.password ++ sconf.salt) = some sconf.password)
  | sha256 (salt : sconf.salt ≠ []) (length : sconf.password.length = 32)
    (password : lib.sha256Vector (pconf.password ++ sconf.salt) = some sconf.password)
  | sha512 (salt : sconf.salt ≠ []) (length : sconf.password.length = 64)
    (password : lib.sha512Vector (pconf.password ++ sconf.salt) = some sconf.password)

/-- No number that blinds the test for a residue is zero, on either side. -/
def PwdDraws.BlindingNonzero (lib : PwdLib P) (sconf : PwdServerConf) (pconf : PwdPeerConf) (ec : CryptoEc P)
    (r : PwdDraws) : Prop :=
  ∀ prep password, serverPrep sconf = some prep → serverPassword lib sconf prep = some password →
    PweDrawsNonzero lib ec (pwdSeed password sconf.idServer pconf.idPeer r.token) r.serverPwe ∧
    PweDrawsNonzero lib ec (pwdSeed password sconf.idServer pconf.idPeer r.token) r.peer

section Agreement

variable {lib : PwdLib P} {sconf : PwdServerConf} {pconf : PwdPeerConf}

theorem SamePassword.prepared {prep : Nat} (h : SamePassword lib sconf pconf)
    (hprep : serverPrep sconf = some prep) :
    serverPassword lib sconf prep = peerPassword lib pconf prep sconf.salt := by
  cases h with
  | plain salt hash password =>
    simp only [serverPrep, salt, hash, length_nil, ne_eq, not_true_eq_false, if_false,
      Bool.false_eq_true, Option.some.injEq] at hprep
    subst hprep
    exact congrArg some password
  | ntHash salt hash peerHash password =>
    simp only [serverPrep, salt, hash, length_nil, ne_eq, not_true_eq_false, if_false, if_true,
      Option.some.injEq] at hprep
    subst hprep
    simp only [serverPassword, peerPassword, peerHash, password, Option.bind_some, Bool.false_eq_true,
      if_true, if_false]
  | ntHashes salt hash peerHash password =>
    simp only [serverPrep, salt, hash, length_nil, ne_eq, not_true_eq_false, if_false, if_true,
      Option.some.injEq] at hprep
    subst hprep
    simp only [serverPassword, peerPassword, peerHash, password, if_true]
  | sha1 salt length password =>
    have hsalt : sconf.salt.length ≠ 0 := fun h => salt (length_eq_zero_iff.1 h)
    simp only [serverPrep, if_pos hsalt, length, Option.some.injEq] at hprep
    subst hprep
    exact password.symm
  | sha256 salt length password =>
    have hsalt : sconf.salt.length ≠ 0 := fun h => salt (length_eq_zero_iff.1 h)
    simp only [serverPrep, if_pos hsalt, length, Option.some.injEq] at hprep
    subst hprep
    exact password.symm
  | sha512 salt length password =>
    have hsalt : sconf.salt.length ≠ 0 := fun h => salt (length_eq_zero_iff.1 h)
    simp only [serverPrep, if_pos hsalt, length, Option.some.injEq] at hprep
    subst hprep
    exact password.symm

theorem pwdSharedKey_comm [AddCommGroup P] {ec : CryptoEc P} (hec : ec.Lawful) {pwe : P}
    {own peerOwn : PwdOwn P} {rand rand' : PwdRand} {k k' : Nat} (hown : pwdOwnCommit ec pwe rand = some own)
    (hpeer : pwdOwnCommit ec pwe rand' = some peerOwn)
    (hk : pwdSharedKey ec 1 pwe own.privateValue peerOwn.scalar peerOwn.element = some k)
    (hk' : pwdSharedKey ec 1 pwe peerOwn.privateValue own.scalar own.element = some k') : k = k' := by
  obtain ⟨y, hy⟩ := pwdSharedKey_eq hec hk
  obtain ⟨y', hy'⟩ := pwdSharedKey_eq hec hk'
  obtain ⟨hs, he⟩ := pwdOwnCommit_eq hec hown
  obtain ⟨hs', he'⟩ := pwdOwnCommit_eq hec hpeer
  have hpoint : own.privateValue • (peerOwn.scalar • pwe + peerOwn.element) =
      peerOwn.privateValue • (own.scalar • pwe + own.element) := by
    rw [hs, he, hs', he']
    exact Dragonfly.shared_comm (hec.order_nsmul pwe) own.privateValue own.mask peerOwn.privateValue
      peerOwn.mask
  rw [hpoint, hy'] at hy
  cases hy
  rfl

theorem sharedKeys_eq [AddCommGroup P] {r : PwdDraws} {s s' : PwdServer P} {p p' : PwdPeer P} {ec : CryptoEc P}
    {prep k k' : Nat} {password password' : Bytes} {pwe pwe' : P} {own peerOwn : PwdOwn P}
    (hec : lib.EncodesEc ec)
    (hagree : lib.LawfulEc sconf.groupNum ec ∨
      SamePassword lib sconf pconf ∧ r.BlindingNonzero lib sconf pconf ec)
    (hready : CommitReady lib sconf pconf r s p ec prep password pwe)
    (hown : pwdOwnCommit ec pwe r.serverCommit = some own) (hs : ServerCommitted ec pwe own peerOwn k s')
    (hp : PeerCommitted lib sconf pconf r ec prep own p' password' pwe' peerOwn k') {c : Bytes}
    (hc : pwdConfirm lib ec sconf.groupNum k own.element own.scalar peerOwn.element peerOwn.scalar = some c)
    (hc' : pwdConfirm lib ec sconf.groupNum k' own.element own.scalar peerOwn.element peerOwn.scalar = some c) :
    k = k' := by
  obtain ⟨rand, hpeerOwn⟩ := hp.own_eq
  have hlt := pwdOwnCommit_lt hown
  have hlt' := pwdOwnCommit_lt hpeerOwn
  rcases hagree with hlib | ⟨hsame, hnonzero⟩
  · obtain ⟨y, hy⟩ := pwdSharedKey_eq hec.group hs.shared
    obtain ⟨y', hy'⟩ := pwdSharedKey_eq hec.group hp.shared
    exact (pwdConfirm_inj hlib hc hc' (hec.affine_lt _ _ _ hy).1 (hec.affine_lt _ _ _ hy').1 hlt hlt hlt'
      hlt').1
  · have hpassword : password = password' := by
      have hprepared := hsame.prepared hready.prep_eq
      rw [hready.password_eq, hp.password_eq] at hprepared
      exact Option.some.inj hprepared
    subst hpassword
    obtain ⟨hz, hz'⟩ := hnonzero prep password hready.prep_eq hready.password_eq
    obtain ⟨rand₁, hpwe⟩ := hready.pwe_eq
    obtain ⟨rand₂, hpwe'⟩ := hp.pwe_eq
    have : Fact ec.prime.Prime := ⟨hec.group.prime⟩
    have hpweEq := computePasswordElement_unique hz hz' hpwe hpwe'
    subst hpweEq
    exact pwdSharedKey_comm hec.group hown hpeerOwn hs.shared hp.shared

end Agreement

theorem smallPwdLib_encodes {ec : CryptoEc (ZMod 5)} (h : smallPwdLib.ecInit 19 = some ec) :
    smallPwdLib.EncodesEc ec := by
  have hlawful := smallPwdLib_lawful h
  cases h
  have hpoint : ∀ p : ZMod 5, ∀ c ∈ smallCurveCoordinates p, smallCurvePoint c.1 c.2 = some p := by decide
  exact ⟨hlawful.group, hlawful.cofactor, hlawful.affine_lt, fun p x y hp => hpoint p (x, y) hp⟩

def smallPwdDraws : PwdDraws where
  token := [1, 2, 3, 4]
  token_length := rfl
  serverPwe := smallPweDraws
  serverCommit := [some 1, some 1]
  peer := smallPweDraws ++ [some 2, some 2]

theorem smallPwdDraws_nonzero {ec : CryptoEc (ZMod 5)} (h : smallPwdLib.ecInit 19 = some ec) :
    smallPwdDraws.BlindingNonzero smallPwdLib smallPwdServerConf smallPwdPeerConf ec := by
  cases h
  intro prep password hprep hpassword
  have hprepEq : prep = 0 := (Option.some.inj hprep).symm
  subst hprepEq
  have hpasswordEq : password = [0x70] := (Option.some.inj hpassword).symm
  subst hpasswordEq
  unfold PweDrawsNonzero BlindingNonzero
  exact ⟨by decide +kernel, by decide +kernel⟩

end Hostap
