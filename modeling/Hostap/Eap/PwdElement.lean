import Hostap.Eap.PwdAgreement
import Hostap.Sae.LeastCounter

/-!
# The password element of EAP-pwd

`compute_password_element()` runs through forty counters and takes the point of the first whose KDF
value is an x coordinate of the curve. Whether it is one is decided on a square that a random number
and a random residue or nonresidue blind.

The comments ask for a blinding number between 1 and p-1. The code draws one between 0 and p-2, and with
zero the test says no to every candidate. So the least counter decides the password element
(`DeterminedByLeast`) only in the runs where it is also the one taken, or the one taken in its place has
the same point (`TakesLeast`).
-/

namespace Hostap

open Octets List

variable {P : Type}

/-! ## Counters -/

/-- The KDF value of a counter: the first bits of the KDF output, as many as the prime has. -/
def counterValue (lib : PwdLib P) (ec : CryptoEc P) (seed : Bytes) (ctr : Nat) : Nat :=
  firstBits ec.primeLenBits
    (eapPwdKdf lib (eapPwdH lib (seed ++ [UInt8.ofNat ctr])) huntLabel ec.primeLenBits)

/-- The point with an x coordinate and a parity, on the curve, multiplied by the cofactor and finite. -/
def usablePoint (ec : CryptoEc P) (cofactor x : Nat) (isOdd : Bool) : Option P :=
  (ec.pointSolveYCoord x isOdd).bind fun p =>
    if ¬ ec.pointIsOnCurve p then none
    else if cofactor = 1 then some p
    else (ec.pointMul p cofactor).bind fun q => if ec.pointIsAtInfinity q then none else some q

/-- The point of a counter; the parity is that of its pwd-seed. -/
def counterPoint (lib : PwdLib P) (ec : CryptoEc P) (seed : Bytes) (ctr : Nat) : Option P :=
  (lib.ecCofactor ec).bind fun cofactor =>
    usablePoint ec cofactor (counterValue lib ec seed ctr)
      (beNat (eapPwdH lib (seed ++ [UInt8.ofNat ctr])) % 2 = 1)

/-- The KDF value of a counter is below the prime and the x coordinate of a point. -/
def CounterHits (lib : PwdLib P) (ec : CryptoEc P) [Fact ec.prime.Prime] (seed : Bytes) (ctr : Nat) :
    Prop :=
  ec.IsAbscissa (counterValue lib ec seed ctr)

/-- The least of the counters of the loop that passes a test. -/
structure LeastOf40 (p : Nat → Prop) (ctr : Nat) : Prop where
  pos : 1 ≤ ctr
  le : ctr ≤ 40
  hit : p ctr
  least : ∀ i, 1 ≤ i → i < ctr → ¬ p i

/-- The password element is the point of the least counter, and is missing only if there is none. -/
def DeterminedByLeast (lib : PwdLib P) (ec : CryptoEc P) [Fact ec.prime.Prime] (seed : Bytes)
    (pwe : Option P) : Prop :=
  (∀ ctr, LeastOf40 (CounterHits lib ec seed) ctr → pwe = counterPoint lib ec seed ctr) ∧
    (pwe = none ↔ ∀ ctr, ¬ LeastOf40 (CounterHits lib ec seed) ctr)

/-- The generator does not fail, and draws `blind ctr` in the iteration of each counter whose KDF value
is below the prime. -/
def DrawsBlinds (lib : PwdLib P) (ec : CryptoEc P) (seed : Bytes) (rand : PwdRand) (blind : Nat → Nat) :
    Prop :=
  ∃ qr qnr more, getQrQnr ec.prime none none rand = some (qr, qnr,
    ((List.range' 1 40).filter (liveRound lib ec seed)).map (fun ctr => some (blind ctr)) ++ more)

/-- The loop takes this counter if it takes none before: its blinding number is not zero and its point
is usable. -/
def CounterTaken (lib : PwdLib P) (ec : CryptoEc P) [Fact ec.prime.Prime] (seed : Bytes)
    (blind : Nat → Nat) (ctr : Nat) : Prop :=
  CounterHits lib ec seed ctr ∧ blind ctr % (ec.prime - 1) ≠ 0 ∧ (counterPoint lib ec seed ctr).isSome

/-- If there is a least counter, then the generator does not fail and the first counter the loop takes
has the point of the least. -/
def TakesLeast (lib : PwdLib P) (ec : CryptoEc P) [Fact ec.prime.Prime] (seed : Bytes) (rand : PwdRand) :
    Prop :=
  ∀ ctr, LeastOf40 (CounterHits lib ec seed) ctr → ∃ blind, DrawsBlinds lib ec seed rand blind ∧
    ∃ ctr', LeastOf40 (CounterTaken lib ec seed blind) ctr' ∧
      counterPoint lib ec seed ctr' = counterPoint lib ec seed ctr

theorem exists_leastOf40 {p : Nat → Prop} {i : Nat} (hpos : 1 ≤ i) (hle : i ≤ 40) (hp : p i) :
    ∃ ctr, LeastOf40 p ctr := by
  classical
  have hex : ∃ j, 1 ≤ j ∧ p j := ⟨i, hpos, hp⟩
  have hmin : Nat.find hex ≤ i := Nat.find_min' hex ⟨hpos, hp⟩
  refine ⟨Nat.find hex, (Nat.find_spec hex).1, by omega, (Nat.find_spec hex).2, fun j hj hlt hpj => ?_⟩
  exact Nat.find_min hex hlt ⟨hj, hpj⟩

theorem findSome_leastOf40 {f : Nat → Option P} {p : P} :
    (List.range' 1 40).findSome? f = some p ↔
      ∃ ctr, LeastOf40 (fun i => (f i).isSome) ctr ∧ f ctr = some p := by
  rw [findSome?_eq_some_iff]
  constructor
  · rintro ⟨l₁, ctr, l₂, hsplit, hctr, hnone⟩
    obtain ⟨k, hk, rfl, hrest⟩ := range'_eq_append_iff.1 hsplit
    obtain ⟨hstart, hpos, -⟩ := range'_eq_cons_iff.1 hrest.symm
    obtain rfl : 1 + k = ctr := by omega
    refine ⟨1 + k, ⟨by omega, by omega, Option.isSome_of_eq_some hctr, fun i hi hlt => ?_⟩, hctr⟩
    rw [hnone i (mem_range'_1.2 ⟨hi, hlt⟩)]
    exact Bool.false_ne_true
  · rintro ⟨ctr, ⟨hpos, hle, -, hleast⟩, hctr⟩
    refine ⟨List.range' 1 (ctr - 1), ctr, List.range' (ctr + 1) (40 - ctr), ?_, hctr, fun i hi => ?_⟩
    · apply range'_eq_append_iff.2
      refine ⟨ctr - 1, by omega, rfl, (range'_eq_cons_iff.2 ⟨by omega, by omega, ?_⟩).symm⟩
      rw [show 40 - (ctr - 1) - 1 = 40 - ctr by omega]
    · obtain ⟨hi, hlt⟩ := mem_range'_1.1 hi
      exact Option.not_isSome_iff_eq_none.1 (hleast i hi (by omega))

/-! ## A round of the loop -/

section Round

variable {lib : PwdLib P} {ec : CryptoEc P} {seed : Bytes}

theorem eapPwdKdfLoop_length {hmac : Bytes → Bytes → Bytes} (hhmac : ∀ key data, 0 < (hmac key data).length)
    {key label : Bytes} {bits fuel ctr : Nat} {digest : Bytes} {left : Nat} (hleft : left ≤ fuel) :
    (eapPwdKdfLoop hmac key label bits fuel ctr digest left).length = left := by
  induction fuel generalizing ctr digest left with
  | zero =>
    show 0 = left
    omega
  | succ fuel ih =>
    unfold eapPwdKdfLoop
    split
    · rename_i hzero
      exact hzero.symm
    · have hpos := hhmac key (digest ++ be16 ctr ++ label ++ be16 (bits % 65536))
      rw [length_append, ih (by omega), length_take]
      omega

theorem eapPwdKdf_length (lib : PwdLib P) (key label : Bytes) (bits : Nat) :
    (eapPwdKdf lib key label bits).length = (bits + 7) / 8 := by
  have hloop : (eapPwdKdfLoop lib.hmacSha256 key label bits ((bits + 7) / 8) 1 []
      ((bits + 7) / 8)).length = (bits + 7) / 8 := by
    apply eapPwdKdfLoop_length _ le_rfl
    intro key data
    rw [lib.hmacSha256_length]
    decide
  show (maskLastOctet bits _).length = _
  unfold maskLastOctet
  split
  · exact hloop
  · rw [length_append, length_dropLast, hloop, length_singleton]
    omega

theorem xCandidate_eq (ctr : Nat) :
    xCandidate lib ec (eapPwdH lib (seed ++ [UInt8.ofNat ctr])) = counterValue lib ec seed ctr := by
  unfold counterValue firstBits
  rw [eapPwdKdf_length]
  show (if ec.primeLenBits % 8 = 0 then _ else _ >>> _) = _
  split
  · rw [show 8 * ((ec.primeLenBits + 7) / 8) - ec.primeLenBits = 0 by omega, pow_zero, Nat.div_one]
  · rw [Nat.shiftRight_eq_div_pow, show 8 * ((ec.primeLenBits + 7) / 8) - ec.primeLenBits =
      8 - ec.primeLenBits % 8 by omega]

theorem liveRound_iff {ctr : Nat} :
    liveRound lib ec seed ctr = true ↔ counterValue lib ec seed ctr < ec.prime := by
  unfold liveRound
  rw [xCandidate_eq, decide_eq_true_iff]

theorem cryptoBignumRand_cons (m v : Nat) (rest : PwdRand) :
    cryptoBignumRand m (some v :: rest) = (if m = 0 then none else some (v % m), rest) := rfl

def PwdHunt.element (st : PwdHunt P) : Option P := if st.found then some st.pwe else none

theorem takeCandidate_element (ec : CryptoEc P) (cofactor x : Nat) (isOdd : Bool) (st : PwdHunt P) :
    (takeCandidate ec cofactor x isOdd st).element = st.element.or (usablePoint ec cofactor x isOdd) ∧
      (takeCandidate ec cofactor x isOdd st).rand = st.rand := by
  unfold takeCandidate
  by_cases hfound : st.found
  · rw [if_pos hfound, show st.element = some st.pwe from if_pos hfound]
    exact ⟨rfl, rfl⟩
  rw [if_neg hfound, show st.element = none from if_neg hfound, Option.none_or]
  unfold usablePoint
  cases ec.pointSolveYCoord x isOdd with
  | none => exact ⟨if_neg hfound, rfl⟩
  | some p =>
    dsimp only [Option.bind_some]
    by_cases hon : ec.pointIsOnCurve p
    · rw [if_neg (not_not_intro hon), if_neg (not_not_intro hon)]
      by_cases hone : cofactor = 1
      · rw [if_pos hone, if_pos hone]
        exact ⟨rfl, rfl⟩
      · rw [if_neg hone, if_neg hone]
        cases ec.pointMul p cofactor with
        | none => exact ⟨if_neg hfound, rfl⟩
        | some q =>
          dsimp only [Option.bind_some]
          by_cases hinf : ec.pointIsAtInfinity q
          · rw [if_pos hinf, if_pos hinf]
            exact ⟨if_neg hfound, rfl⟩
          · rw [if_neg hinf, if_neg hinf]
            exact ⟨rfl, rfl⟩
    · rw [if_pos hon, if_pos hon]
      exact ⟨if_neg hfound, rfl⟩

variable [Fact ec.prime.Prime]

instance (ctr : Nat) : Decidable (CounterHits lib ec seed ctr) := inferInstanceAs (Decidable (_ ∧ _))

/-- The point a round has to store when it draws `r`. -/
def blindedPoint (lib : PwdLib P) (ec : CryptoEc P) [Fact ec.prime.Prime] (seed : Bytes) (r ctr : Nat) :
    Option P :=
  if CounterHits lib ec seed ctr ∧ r % (ec.prime - 1) ≠ 0 then counterPoint lib ec seed ctr else none

theorem blindedTest_iff {qr qnr r y : Nat} (hqr : cryptoBignumLegendre qr ec.prime = 1)
    (hqnr : cryptoBignumLegendre qnr ec.prime = -1) (hr : r < ec.prime) :
    (if r % 2 = 1 then
      cryptoBignumLegendre (cryptoBignumMulmod
        (cryptoBignumMulmod (cryptoBignumMulmod y r ec.prime) r ec.prime) qr ec.prime) ec.prime = 1
    else
      cryptoBignumLegendre (cryptoBignumMulmod
        (cryptoBignumMulmod (cryptoBignumMulmod y r ec.prime) r ec.prime) qnr ec.prime) ec.prime = -1) ↔
      cryptoBignumLegendre y ec.prime = 1 ∧ r ≠ 0 := by
  by_cases hzero : r = 0
  · subst hzero
    rw [if_neg (by decide)]
    constructor
    · intro htest
      unfold cryptoBignumMulmod at htest
      rw [Nat.mul_zero, Nat.zero_mod, Nat.zero_mul, Nat.zero_mod,
        cryptoBignumLegendre_eq (odd_of_legendre_neg hqnr), Nat.cast_zero, legendreSym.at_zero] at htest
      cases htest
    · exact fun h => absurd rfl h.2
  · rw [isResidue_iff hqr hqnr hr hzero]
    exact ⟨fun h => ⟨h, hzero⟩, fun h => h.1⟩

omit [Fact ec.prime.Prime] in
theorem huntRound_dead {cofactor qr qnr ctr : Nat} {st : PwdHunt P} (h : liveRound lib ec seed ctr = false) :
    huntRound lib ec cofactor qr qnr seed st ctr = some st :=
  if_pos (Nat.le_of_not_lt (of_decide_eq_false h))

theorem huntRound_live {cofactor qr qnr ctr v : Nat} {rest : PwdRand} {st : PwdHunt P}
    (hcofactor : lib.ecCofactor ec = some cofactor)
    (hqr : cryptoBignumLegendre qr ec.prime = 1) (hqnr : cryptoBignumLegendre qnr ec.prime = -1)
    (hlive : liveRound lib ec seed ctr = true) (hrand : st.rand = some v :: rest) :
    ∃ st₁, huntRound lib ec cofactor qr qnr seed st ctr = some st₁ ∧ st₁.rand = rest ∧
      st₁.element = st.element.or (blindedPoint lib ec seed v ctr) := by
  have hp : 2 ≤ ec.prime := (Fact.out : ec.prime.Prime).two_le
  have hr : v % (ec.prime - 1) < ec.prime := by
    have := Nat.mod_lt v (show 0 < ec.prime - 1 by omega)
    omega
  have hlt := of_decide_eq_true hlive
  have hdraw : cryptoBignumRand (ec.prime - 1) st.rand = (some (v % (ec.prime - 1)), rest) := by
    rw [hrand, cryptoBignumRand_cons, if_neg (by omega)]
  have hpoint : counterPoint lib ec seed ctr = usablePoint ec cofactor (counterValue lib ec seed ctr)
      (beNat (eapPwdH lib (seed ++ [UInt8.ofNat ctr])) % 2 = 1) := by
    unfold counterPoint
    rw [hcofactor]
    rfl
  unfold huntRound blindedPoint
  dsimp only
  rw [if_neg (Nat.not_le.2 hlt), hdraw, hpoint]
  dsimp only
  rw [xCandidate_eq] at hlt ⊢
  by_cases htaken : CounterHits lib ec seed ctr ∧ v % (ec.prime - 1) ≠ 0
  · have hres := (legendre_ySqr_iff (odd_of_legendre_neg hqnr) _).2 htaken.1.2
    rw [if_pos ((blindedTest_iff hqr hqnr hr).2 ⟨hres, htaken.2⟩), if_pos htaken]
    obtain ⟨helement, hrest⟩ := takeCandidate_element ec cofactor (counterValue lib ec seed ctr)
      (beNat (eapPwdH lib (seed ++ [UInt8.ofNat ctr])) % 2 = 1) { st with rand := rest }
    exact ⟨_, rfl, hrest, helement⟩
  · have hnot := mt (blindedTest_iff hqr hqnr hr).1 fun h => htaken
      ⟨⟨hlt, (legendre_ySqr_iff (odd_of_legendre_neg hqnr) _).1 h.1⟩, h.2⟩
    rw [if_neg hnot, if_neg htaken]
    exact ⟨_, rfl, rfl, Option.or_none.symm⟩

omit [Fact ec.prime.Prime] in
theorem rand_of_ite {t : Prop} [Decidable t] {st₁ st₂ st : PwdHunt P}
    (h : (if t then some st₁ else some st₂) = some st) (hrand : st₁.rand = st₂.rand) :
    st.rand = st₂.rand := by
  split at h
  · cases h
    exact hrand
  · cases h
    rfl

omit [Fact ec.prime.Prime] in
theorem huntRound_draw {cofactor qr qnr ctr : Nat} {st st₁ : PwdHunt P}
    (hlive : liveRound lib ec seed ctr = true)
    (h : huntRound lib ec cofactor qr qnr seed st ctr = some st₁) :
    ∃ v, st.rand = some v :: st₁.rand := by
  have hlt := of_decide_eq_true hlive
  unfold huntRound at h
  dsimp only at h
  rw [if_neg (Nat.not_le.2 hlt)] at h
  cases hrand : st.rand with
  | nil =>
    rw [hrand] at h
    cases h
  | cons v rest =>
    rw [hrand] at h
    cases v with
    | none => cases h
    | some v =>
      refine ⟨v, ?_⟩
      rw [cryptoBignumRand_cons] at h
      by_cases hzero : ec.prime - 1 = 0
      · rw [if_pos hzero] at h
        cases h
      · rw [if_neg hzero] at h
        rw [rand_of_ite h (takeCandidate_element _ _ _ _ _).2]

/-! ## The loop -/

theorem huntRounds_element {cofactor qr qnr : Nat} (hcofactor : lib.ecCofactor ec = some cofactor)
    (hqr : cryptoBignumLegendre qr ec.prime = 1) (hqnr : cryptoBignumLegendre qnr ec.prime = -1)
    (blind : Nat → Nat) (more : PwdRand) (ctrs : List Nat) (st : PwdHunt P)
    (hrand : st.rand =
      (ctrs.filter (liveRound lib ec seed)).map (fun ctr => some (blind ctr)) ++ more) :
    ∃ st₁, ctrs.foldlM (huntRound lib ec cofactor qr qnr seed) st = some st₁ ∧ st₁.element =
      st.element.or (ctrs.findSome? fun ctr => blindedPoint lib ec seed (blind ctr) ctr) := by
  induction ctrs generalizing st with
  | nil => exact ⟨st, rfl, Option.or_none.symm⟩
  | cons ctr ctrs ih =>
    rw [foldlM_cons]
    cases hlive : liveRound lib ec seed ctr with
    | false =>
      rw [filter_cons_of_neg (by rw [hlive]; exact Bool.false_ne_true)] at hrand
      have hmiss : blindedPoint lib ec seed (blind ctr) ctr = none :=
        if_neg fun h => Bool.false_ne_true (hlive.symm.trans (liveRound_iff.2 h.1.1))
      rw [huntRound_dead hlive, findSome?_cons_of_isNone (by rw [hmiss]; rfl)]
      exact ih st hrand
    | true =>
      rw [filter_cons_of_pos hlive] at hrand
      obtain ⟨st₁, hround, hrest, helement⟩ := huntRound_live hcofactor hqr hqnr hlive hrand
      obtain ⟨st₂, hloop, hend⟩ := ih st₁ hrest
      refine ⟨st₂, ?_, ?_⟩
      · rw [hround]
        exact hloop
      · rw [hend, helement, Option.or_assoc, findSome?_cons]
        cases blindedPoint lib ec seed (blind ctr) ctr with
        | none => rfl
        | some p => rfl

omit [Fact ec.prime.Prime] in
theorem huntRounds_draws {cofactor qr qnr : Nat} {ctrs : List Nat} {st st₁ : PwdHunt P}
    (hnodup : ctrs.Nodup)
    (h : ctrs.foldlM (huntRound lib ec cofactor qr qnr seed) st = some st₁) :
    ∃ blind : Nat → Nat, st.rand =
      (ctrs.filter (liveRound lib ec seed)).map (fun ctr => some (blind ctr)) ++ st₁.rand := by
  induction ctrs generalizing st with
  | nil =>
    cases h
    exact ⟨fun _ => 0, rfl⟩
  | cons ctr ctrs ih =>
    obtain ⟨hnot, hnodup⟩ := nodup_cons.1 hnodup
    rw [foldlM_cons] at h
    obtain ⟨st₂, hround, hloop⟩ := Option.bind_eq_some_iff.1 h
    obtain ⟨blind, hblind⟩ := ih hnodup hloop
    cases hlive : liveRound lib ec seed ctr with
    | false =>
      rw [huntRound_dead hlive] at hround
      cases hround
      refine ⟨blind, ?_⟩
      rw [filter_cons_of_neg (by rw [hlive]; exact Bool.false_ne_true)]
      exact hblind
    | true =>
      obtain ⟨v, hv⟩ := huntRound_draw hlive hround
      -- what is drawn for this counter is kept apart from what is drawn for the others
      refine ⟨Function.update blind ctr v, ?_⟩
      have hothers : (ctrs.filter (liveRound lib ec seed)).map
          (fun i => some (Function.update blind ctr v i)) =
          (ctrs.filter (liveRound lib ec seed)).map (fun i => some (blind i)) := by
        apply map_congr_left
        intro i hi
        rw [Function.update_of_ne]
        rintro rfl
        exact hnot (mem_of_mem_filter hi)
      rw [filter_cons_of_pos hlive, map_cons, hothers, Function.update_self, hv, hblind]
      rfl

/-- The result of `compute_password_element()`. -/
def pwdElement (lib : PwdLib P) (ec : CryptoEc P) (password idServer idPeer token : Bytes) (rand : PwdRand) :
    Option P :=
  (computePasswordElement lib ec password idServer idPeer token rand).map Prod.fst

omit [Fact ec.prime.Prime] in
theorem pwdElement_of_loop {password idServer idPeer token : Bytes} {rand rest : PwdRand}
    {qr qnr cofactor : Nat} (hcofactor : lib.ecCofactor ec = some cofactor)
    (hdraw : getQrQnr ec.prime none none rand = some (qr, qnr, rest)) :
    pwdElement lib ec password idServer idPeer token rand =
      ((List.range' 1 40).foldlM
        (huntRound lib ec cofactor qr qnr (pwdSeed password idServer idPeer token))
        { pwe := ec.pointInit, rand := rest }).bind PwdHunt.element := by
  have hcounters : (List.range 40).map (· + 1) = List.range' 1 40 := by decide
  unfold pwdElement computePasswordElement
  rw [hcofactor, hcounters]
  dsimp only [Option.bind_eq_bind, Option.bind_some]
  rw [hdraw]
  dsimp only [Option.bind_some]
  show Option.map Prod.fst (Option.bind (List.foldlM _ _ _) _) = Option.bind (List.foldlM _ _ _) _
  rw [Option.map_bind]
  congr 1
  funext st
  show Option.map Prod.fst (if st.found then some (st.pwe, st.rand) else none) = _
  unfold PwdHunt.element
  split
  · rfl
  · rfl

theorem pwdElement_blinds {password idServer idPeer token : Bytes} {rand : PwdRand} {blind : Nat → Nat}
    (h : DrawsBlinds lib ec (pwdSeed password idServer idPeer token) rand blind) :
    pwdElement lib ec password idServer idPeer token rand = (List.range' 1 40).findSome?
      fun ctr => blindedPoint lib ec (pwdSeed password idServer idPeer token) (blind ctr) ctr := by
  obtain ⟨qr, qnr, more, hdraw⟩ := h
  obtain ⟨hqr, hqnr⟩ := getQrQnr_legendre (by simp) (by simp) hdraw
  cases hcofactor : lib.ecCofactor ec with
  | none =>
    have hnone : ∀ ctr ∈ List.range' 1 40,
        blindedPoint lib ec (pwdSeed password idServer idPeer token) (blind ctr) ctr = none := by
      intro ctr _
      unfold blindedPoint counterPoint
      rw [hcofactor]
      exact ite_self none
    rw [findSome?_eq_none_iff.2 hnone]
    unfold pwdElement computePasswordElement
    rw [hcofactor]
    rfl
  | some cofactor =>
    obtain ⟨st₁, hloop, helement⟩ := huntRounds_element hcofactor hqr hqnr blind more
      (List.range' 1 40) { pwe := ec.pointInit, rand := _ } rfl
    rw [pwdElement_of_loop hcofactor hdraw, hloop]
    exact helement

omit [Fact ec.prime.Prime] in
theorem pwdElement_draws {password idServer idPeer token : Bytes} {rand : PwdRand}
    (h : pwdElement lib ec password idServer idPeer token rand ≠ none) :
    ∃ blind, DrawsBlinds lib ec (pwdSeed password idServer idPeer token) rand blind := by
  cases hcofactor : lib.ecCofactor ec with
  | none =>
    refine absurd ?_ h
    unfold pwdElement computePasswordElement
    rw [hcofactor]
    rfl
  | some cofactor =>
    cases hdraw : getQrQnr ec.prime none none rand with
    | none =>
      refine absurd ?_ h
      unfold pwdElement computePasswordElement
      rw [hcofactor, hdraw]
      rfl
    | some drawn =>
      obtain ⟨qr, qnr, rest⟩ := drawn
      rw [pwdElement_of_loop hcofactor hdraw] at h
      obtain ⟨p, hp⟩ := Option.ne_none_iff_exists'.1 h
      obtain ⟨st₁, hloop, -⟩ := Option.bind_eq_some_iff.1 hp
      obtain ⟨blind, hblind⟩ := huntRounds_draws nodup_range' hloop
      refine ⟨blind, qr, qnr, st₁.rand, ?_⟩
      rw [← hblind]
      exact hdraw

theorem pwdElement_taken {password idServer idPeer token : Bytes} {rand : PwdRand} {blind : Nat → Nat} {p : P}
    (h : DrawsBlinds lib ec (pwdSeed password idServer idPeer token) rand blind) :
    pwdElement lib ec password idServer idPeer token rand = some p ↔
      ∃ ctr, LeastOf40 (CounterTaken lib ec (pwdSeed password idServer idPeer token) blind) ctr ∧
        counterPoint lib ec (pwdSeed password idServer idPeer token) ctr = some p := by
  have htaken : ∀ ctr,
      (blindedPoint lib ec (pwdSeed password idServer idPeer token) (blind ctr) ctr).isSome ↔
        CounterTaken lib ec (pwdSeed password idServer idPeer token) blind ctr := by
    intro ctr
    unfold blindedPoint CounterTaken
    split
    · rename_i hhit
      exact ⟨fun hsome => ⟨hhit.1, hhit.2, hsome⟩, fun htaken => htaken.2.2⟩
    · rename_i hmiss
      exact ⟨fun hsome => absurd hsome Bool.false_ne_true, fun htaken => absurd ⟨htaken.1, htaken.2.1⟩ hmiss⟩
  have heq : (fun ctr =>
      (blindedPoint lib ec (pwdSeed password idServer idPeer token) (blind ctr) ctr).isSome = true) =
      CounterTaken lib ec (pwdSeed password idServer idPeer token) blind :=
    funext fun ctr => propext (htaken ctr)
  rw [pwdElement_blinds h, findSome_leastOf40, heq]
  refine exists_congr fun ctr => and_congr_right fun hleast => ?_
  rw [show blindedPoint lib ec (pwdSeed password idServer idPeer token) (blind ctr) ctr =
    counterPoint lib ec (pwdSeed password idServer idPeer token) ctr from
      if_pos ⟨hleast.hit.1, hleast.hit.2.1⟩]

theorem DeterminedByLeast.unique {pwe pwe' : Option P} (h : DeterminedByLeast lib ec seed pwe)
    (h' : DeterminedByLeast lib ec seed pwe') : pwe = pwe' := by
  by_cases hleast : ∃ ctr, LeastOf40 (CounterHits lib ec seed) ctr
  · obtain ⟨ctr, hctr⟩ := hleast
    rw [h.1 ctr hctr, h'.1 ctr hctr]
  · have hnone := not_exists.1 hleast
    rw [h.2.2 hnone, h'.2.2 hnone]

/-- **The least counter decides the password element** exactly in the runs that take its point. All
these runs have the same password element, whatever they draw. -/
theorem compute_password_element_least (lib : PwdLib P) (ec : CryptoEc P) [Fact ec.prime.Prime]
    (password idServer idPeer token : Bytes) (rand : PwdRand) :
    (DeterminedByLeast lib ec (pwdSeed password idServer idPeer token)
        (pwdElement lib ec password idServer idPeer token rand) ↔
      TakesLeast lib ec (pwdSeed password idServer idPeer token) rand) ∧
    ∀ rand', TakesLeast lib ec (pwdSeed password idServer idPeer token) rand →
      TakesLeast lib ec (pwdSeed password idServer idPeer token) rand' →
      pwdElement lib ec password idServer idPeer token rand' =
        pwdElement lib ec password idServer idPeer token rand := by
  have hiff : ∀ rand, DeterminedByLeast lib ec (pwdSeed password idServer idPeer token)
      (pwdElement lib ec password idServer idPeer token rand) ↔
        TakesLeast lib ec (pwdSeed password idServer idPeer token) rand := by
    intro rand
    constructor
    · intro ⟨hpoint, hfail⟩ ctr hctr
      have hsome : pwdElement lib ec password idServer idPeer token rand ≠ none :=
        fun hnone => hfail.1 hnone ctr hctr
      obtain ⟨blind, hblind⟩ := pwdElement_draws hsome
      obtain ⟨p, hp⟩ := Option.ne_none_iff_exists'.1 hsome
      obtain ⟨ctr', hctr', hp'⟩ := (pwdElement_taken hblind).1 hp
      exact ⟨blind, hblind, ctr', hctr', hp'.trans (hp.symm.trans (hpoint ctr hctr))⟩
    · intro htakes
      have hresult : ∀ ctr, LeastOf40 (CounterHits lib ec (pwdSeed password idServer idPeer token)) ctr →
          ∃ p, pwdElement lib ec password idServer idPeer token rand = some p ∧
            counterPoint lib ec (pwdSeed password idServer idPeer token) ctr = some p := by
        intro ctr hctr
        obtain ⟨blind, hblind, ctr', hctr', hpoint⟩ := htakes ctr hctr
        obtain ⟨p, hp⟩ := Option.isSome_iff_exists.1 hctr'.hit.2.2
        exact ⟨p, (pwdElement_taken hblind).2 ⟨ctr', hctr', hp⟩, hpoint.symm.trans hp⟩
      refine ⟨fun ctr hctr => ?_, fun hnone ctr hctr => ?_, fun hnone => ?_⟩
      · obtain ⟨p, hp, hpoint⟩ := hresult ctr hctr
        rw [hp, hpoint]
      · obtain ⟨p, hp, -⟩ := hresult ctr hctr
        rw [hnone] at hp
        cases hp
      · by_contra hsome
        obtain ⟨blind, hblind⟩ := pwdElement_draws hsome
        obtain ⟨p, hp⟩ := Option.ne_none_iff_exists'.1 hsome
        obtain ⟨ctr, hctr, -⟩ := (pwdElement_taken hblind).1 hp
        -- the counter that was taken is one of those that hit, so there is a least of these
        obtain ⟨ctr', hctr'⟩ := exists_leastOf40 hctr.pos hctr.le hctr.hit.1
        exact hnone ctr' hctr'
  exact ⟨hiff rand, fun rand' h h' => ((hiff rand').2 h').unique ((hiff rand).2 h)⟩

theorem takesLeast_of_blind {rand : PwdRand} {blind : Nat → Nat} (hdraws : DrawsBlinds lib ec seed rand blind)
    (h : ∀ ctr, LeastOf40 (CounterHits lib ec seed) ctr →
      blind ctr % (ec.prime - 1) ≠ 0 ∧ (counterPoint lib ec seed ctr).isSome) :
    TakesLeast lib ec seed rand := by
  intro ctr hctr
  refine ⟨blind, hdraws, ctr, ⟨hctr.pos, hctr.le, ⟨hctr.hit, h ctr hctr⟩, fun i hi hlt htaken => ?_⟩, rfl⟩
  exact hctr.least i hi hlt htaken.1

end Round

/-! ## On the small curve -/

def smallPwdSeed : Bytes := pwdSeed [0x70] [0x73] [0x75] [1, 2, 3, 4]

theorem compute_password_element_least_small :
    DeterminedByLeast smallPwdLib smallCurve smallPwdSeed
        (pwdElement smallPwdLib smallCurve [0x70] [0x73] [0x75] [1, 2, 3, 4] smallPweDraws) ∧
      (pwdElement smallPwdLib smallCurve [0x70] [0x73] [0x75] [1, 2, 3, 4] smallPweDraws).isSome := by
  refine ⟨(compute_password_element_least smallPwdLib smallCurve [0x70] [0x73] [0x75] [1, 2, 3, 4]
    smallPweDraws).1.2 ?_, by decide +kernel⟩
  have hpoints : ∀ ctr ∈ List.range' 1 40, (counterPoint smallPwdLib smallCurve smallPwdSeed ctr).isSome := by
    decide +kernel
  have hdraws : DrawsBlinds smallPwdLib smallCurve smallPwdSeed smallPweDraws fun _ => 1 :=
    ⟨1, 3, [], by decide +kernel⟩
  apply takesLeast_of_blind hdraws
  intro ctr hctr
  refine ⟨by decide, hpoints ctr (mem_range'_1.2 ⟨hctr.pos, ?_⟩)⟩
  have hle := hctr.le
  omega

/-- Every counter has the same point, but the blinding numbers are all zero: no point is found. -/
theorem compute_password_element_zero_blind :
    (∃ blind, DrawsBlinds smallPwdLib smallCurve smallPwdSeed
      ([some 1, some 3] ++ List.replicate 40 (some 0)) blind) ∧
    ¬ DeterminedByLeast smallPwdLib smallCurve smallPwdSeed
        (pwdElement smallPwdLib smallCurve [0x70] [0x73] [0x75] [1, 2, 3, 4]
          ([some 1, some 3] ++ List.replicate 40 (some 0))) ∧
    pwdElement smallPwdLib smallCurve [0x70] [0x73] [0x75] [1, 2, 3, 4]
        ([some 1, some 3] ++ List.replicate 40 (some 0)) ≠
      pwdElement smallPwdLib smallCurve [0x70] [0x73] [0x75] [1, 2, 3, 4] smallPweDraws := by
  have hfail : pwdElement smallPwdLib smallCurve [0x70] [0x73] [0x75] [1, 2, 3, 4]
      ([some 1, some 3] ++ List.replicate 40 (some 0)) = none := by decide +kernel
  have hvalue : counterValue smallPwdLib smallCurve smallPwdSeed 1 = 0 := by decide +kernel
  have hfirst : LeastOf40 (CounterHits smallPwdLib smallCurve smallPwdSeed) 1 := by
    refine ⟨le_rfl, by decide, ?_, fun i h1 h2 => by omega⟩
    unfold CounterHits
    rw [hvalue, smallCurve_isAbscissa]
    exact .inl rfl
  refine ⟨⟨fun _ => 0, 1, 3, [], by decide +kernel⟩, fun h => h.2.1 hfail 1 hfirst, ?_⟩
  rw [hfail]
  decide +kernel

end Hostap
