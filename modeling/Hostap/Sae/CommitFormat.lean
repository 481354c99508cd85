import Hostap.Lib.Tlv
import Hostap.Sae.Agreement

/-!
# The body of a Commit, written and read

`sae_write_commit()` puts an anti-clogging token between the group and the scalar, and a Password Identifier
element behind the element. Neither has a length of its own in the frame: `sae_parse_commit_token()` takes
what is left over beside the scalar and the element for optional data, and looks for the header of a
Password Identifier element at the two places where one could be.

With a token of 32 octets the first of these places lies 32 octets before the end of the element. A frame
that has something there that looks like the header of a Password Identifier is read without a token
(`CommitAmbiguous`); every other frame is read back as it was written (`sae_commit_round_trip`).

What is relied on of the library is `SaeGroup.Encodes`.
-/

namespace Hostap

open Octets List

variable {P : Type}

/-! ## Numbers and points as octets -/

theorem cryptoBignumToBin_fits {n len : Nat} (h : n < 256 ^ len) :
    ∃ buf, cryptoBignumToBin n len len = some buf ∧ buf.length = len ∧ beNat buf = n := by
  have hbytes := numBytes_le h
  refine ⟨zeros (len - numBytes n) ++ natBe (numBytes n) n, ?_, ?_, ?_⟩
  · rw [cryptoBignumToBin, if_neg (by omega), if_neg (by omega)]
  · rw [length_append, zeros_length, natBe_length]
    omega
  · rw [beNat_zeros_append, beNat_natBe (lt_pow_numBytes n)]

/-- A point other than the identity has coordinates in the field, and these have it. -/
structure CryptoEc.Encodes (ec : CryptoEc P) : Prop where
  coordinates_lt : ∀ p x y, ec.affineCoordinates p = some (x, y) → x < ec.prime ∧ y < ec.prime
  fromCoordinates : ∀ p x y, ec.affineCoordinates p = some (x, y) → ec.pointFromCoordinates x y = some p
  onCurve : ∀ p x y, ec.affineCoordinates p = some (x, y) → ec.pointIsOnCurve p = true
  order_len : numBytes ec.order ≤ ec.primeLen
  prime_len : ec.primeLen ≤ saeMaxEccPrimeLen

/-- The group of an instance is one of the two kinds, and its numbers fit their fields. -/
def SaeGroup.Encodes : SaeGroup P → Prop
  | .unset => False
  | .ecc ec => ec.Encodes
  | .ffc dh => beNat dh.order ≤ beNat dh.prime

/-- `scalar_elem_len` of `sae_parse_commit_token()`. -/
def SaeGroup.scalarElemLen : SaeGroup P → Nat
  | .ecc ec => 3 * ec.primeLen
  | g => 2 * g.primeLen

/-- An element that a peer accepts: a point other than the identity, or a number of the subgroup other than one.
-/
def SaeGroup.ElementOk : SaeGroup P → SaeElement P → Prop
  | .ecc ec, .point p => (ec.affineCoordinates p).isSome
  | .ffc dh, .number n => 1 < n ∧ n < beNat dh.prime - 1 ∧
      cryptoBignumExptmod n (beNat dh.order) (beNat dh.prime) = 1
  | _, _ => False

def SaeGroup.scalarOctets (g : SaeGroup P) (scalar : Nat) : Bytes :=
  (cryptoBignumToBin scalar g.primeLen g.primeLen).getD (zeros g.primeLen)

def SaeGroup.elementOctets : SaeGroup P → SaeElement P → Bytes
  | .ecc ec, .point p => ((ec.pointToBin p).map fun (x, y) => x ++ y).getD (zeros (2 * ec.primeLen))
  | g, .number n => g.scalarOctets n
  | _, _ => []

/-- An instance with an own commit. -/
structure SaeData.Commits (sae : SaeData P) (t : SaeTemporaryData P) (scalar : Nat) (element : SaeElement P) :
    Prop where
  tmp : sae.tmp = some t
  encodes : t.group.Encodes
  group_nonneg : 0 ≤ sae.group
  group_le : sae.group ≤ 0xffff
  ownScalar : t.ownCommitScalar = some scalar
  ownElement : t.ownElement = some element
  scalar_gt : 1 < scalar
  scalar_lt : scalar < t.group.order
  elementOk : t.group.ElementOk element

theorem SaeGroup.Encodes.order_lt {g : SaeGroup P} (h : g.Encodes) : g.order < 256 ^ g.primeLen := by
  cases g with
  | unset => exact h.elim
  | ecc ec =>
    have hec : ec.Encodes := h
    exact (lt_pow_numBytes ec.order).trans_le (Nat.pow_le_pow_right (by decide) hec.order_len)
  | ffc dh =>
    have hle : beNat dh.order ≤ beNat dh.prime := h
    exact hle.trans_lt (beNat_lt dh.prime)

theorem SaeGroup.scalarOctets_spec {g : SaeGroup P} {n : Nat} (h : n < 256 ^ g.primeLen) :
    (g.scalarOctets n).length = g.primeLen ∧ beNat (g.scalarOctets n) = n := by
  obtain ⟨buf, hbuf, hlen, hval⟩ := cryptoBignumToBin_fits h
  unfold SaeGroup.scalarOctets
  rw [hbuf]
  exact ⟨hlen, hval⟩

theorem ecc_elementOctets {ec : CryptoEc P} {p : P} {x y : Nat} (h : ec.affineCoordinates p = some (x, y)) :
    (SaeGroup.ecc ec).elementOctets (.point p) = natBe ec.primeLen x ++ natBe ec.primeLen y := by
  simp [SaeGroup.elementOctets, CryptoEc.pointToBin, h]

theorem scalarElem_length {g : SaeGroup P} (henc : g.Encodes) {scalar : Nat} {element : SaeElement P}
    (hscalar : scalar < g.order) (helement : g.ElementOk element) :
    (g.scalarOctets scalar ++ g.elementOctets element).length = g.scalarElemLen := by
  have hs := (SaeGroup.scalarOctets_spec (hscalar.trans henc.order_lt)).1
  rw [length_append, hs]
  cases g with
  | unset => exact henc.elim
  | ecc ec =>
    cases element with
    | number n => exact helement.elim
    | point p =>
      obtain ⟨⟨x, y⟩, hxy⟩ := Option.isSome_iff_exists.1 (show (ec.affineCoordinates p).isSome from helement)
      rw [ecc_elementOctets hxy, length_append, natBe_length, natBe_length]
      show ec.primeLen + (ec.primeLen + ec.primeLen) = 3 * ec.primeLen
      omega
  | ffc dh =>
    cases element with
    | point p => exact helement.elim
    | number n =>
      obtain ⟨-, hlt, -⟩ : 1 < n ∧ n < beNat dh.prime - 1 ∧ _ := helement
      have hn : n < 256 ^ dh.prime.length := by
        have hprime := beNat_lt dh.prime
        omega
      have he : ((SaeGroup.ffc dh : SaeGroup P).scalarOctets n).length = dh.prime.length :=
        (SaeGroup.scalarOctets_spec hn).1
      show dh.prime.length + ((SaeGroup.ffc dh : SaeGroup P).scalarOctets n).length = 2 * dh.prime.length
      rw [he]
      omega

/-! ## Reading the fields -/

theorem saeParseCommitScalar_written {g : SaeGroup P} (henc : g.Encodes) {scalar : Nat} (hgt : 1 < scalar)
    (hlt : scalar < g.order) {rx : SaeData P}
    (hfresh : ¬ (rx.state = .accepted ∧ rx.peerCommitScalar = some scalar)) (rest : Bytes) :
    saeParseCommitScalar g rx (g.scalarOctets scalar ++ rest) =
      (wlanStatusSuccess, { rx with peerCommitScalar := some scalar }, rest) := by
  obtain ⟨hlen, hval⟩ := SaeGroup.scalarOctets_spec (hlt.trans henc.order_lt)
  have htake : (g.scalarOctets scalar ++ rest).take g.primeLen = g.scalarOctets scalar := take_left' hlen
  have hdrop : (g.scalarOctets scalar ++ rest).drop g.primeLen = rest := drop_left' hlen
  have henough : ¬ (g.scalarOctets scalar ++ rest).length < g.primeLen := by
    rw [length_append, hlen]
    omega
  unfold saeParseCommitScalar
  rw [if_neg henough]
  dsimp only
  rw [htake, hval, if_neg hfresh, if_neg (by omega), hdrop]

/-- What a received element leaves alone. -/
structure SaeTemporaryData.TakesElement (t t' : SaeTemporaryData P) (element : SaeElement P) : Prop where
  peerElement : t'.peerElement = some element
  pwId : t'.pwId = t.pwId
  ownCommitScalar : t'.ownCommitScalar = t.ownCommitScalar

theorem saeParseCommitElementEcc_written {ec : CryptoEc P} (henc : ec.Encodes) {p : P} {x y : Nat}
    (hxy : ec.affineCoordinates p = some (x, y)) (t : SaeTemporaryData P) (rest : Bytes) :
    saeParseCommitElementEcc ec t (natBe ec.primeLen x ++ natBe ec.primeLen y ++ rest) =
      (wlanStatusSuccess, { t with peerCommitElementEcc := some p }, rest) := by
  obtain ⟨hx, hy⟩ := henc.coordinates_lt p x y hxy
  have hprime := lt_pow_numBytes ec.prime
  have hxlt : x < 256 ^ ec.primeLen := hx.trans hprime
  have hylt : y < 256 ^ ec.primeLen := hy.trans hprime
  have hlen : (natBe ec.primeLen x ++ natBe ec.primeLen y).length = 2 * ec.primeLen := by
    rw [length_append, natBe_length, natBe_length]
    omega
  have htake : (natBe ec.primeLen x ++ natBe ec.primeLen y ++ rest).take ec.primeLen = natBe ec.primeLen x := by
    rw [append_assoc]
    exact take_left' (natBe_length ..)
  have hslice : slice (natBe ec.primeLen x ++ natBe ec.primeLen y ++ rest) ec.primeLen ec.primeLen =
      natBe ec.primeLen y := by
    rw [append_assoc]
    exact slice_middle (natBe_length ..) (natBe_length ..)
  have hbin : cryptoBignumToBin ec.prime saeMaxEccPrimeLen ec.primeLen = some (natBe ec.primeLen ec.prime) := by
    have hle := henc.prime_len
    have hbytes : numBytes ec.prime = ec.primeLen := rfl
    rw [cryptoBignumToBin, if_neg (by omega), if_neg (by omega), hbytes, Nat.sub_self]
    rfl
  have hltx : memcmp (natBe ec.primeLen x) (natBe ec.primeLen ec.prime) = .lt :=
    memcmp_of_beNat_lt (by rw [natBe_length, natBe_length])
      (by rw [beNat_natBe hxlt, beNat_natBe (show ec.prime < 256 ^ ec.primeLen from hprime)]; exact hx)
  have hlty : memcmp (natBe ec.primeLen y) (natBe ec.primeLen ec.prime) = .lt :=
    memcmp_of_beNat_lt (by rw [natBe_length, natBe_length])
      (by rw [beNat_natBe hylt, beNat_natBe (show ec.prime < 256 ^ ec.primeLen from hprime)]; exact hy)
  have hpoint : ec.pointFromBin (natBe ec.primeLen x ++ natBe ec.primeLen y ++ rest) = some p := by
    unfold CryptoEc.pointFromBin
    rw [htake, hslice, beNat_natBe hxlt, beNat_natBe hylt]
    exact henc.fromCoordinates p x y hxy
  have henough : ¬ (natBe ec.primeLen x ++ natBe ec.primeLen y ++ rest).length < 2 * ec.primeLen := by
    rw [length_append, hlen]
    omega
  unfold saeParseCommitElementEcc
  rw [if_neg henough, hbin]
  dsimp only
  rw [htake, hslice, hltx, hlty, if_neg (by simp), hpoint]
  dsimp only
  rw [if_pos (henc.onCurve p x y hxy), drop_left' hlen]

theorem saeParseCommitElementFfc_written {dh : DhGroup} {n : Nat} (hgt : 1 < n) (hlt : n < beNat dh.prime - 1)
    (hsub : cryptoBignumExptmod n (beNat dh.order) (beNat dh.prime) = 1) (t : SaeTemporaryData P) {buf : Bytes}
    (hlen : buf.length = dh.prime.length) (hval : beNat buf = n) (rest : Bytes) :
    saeParseCommitElementFfc dh t (buf ++ rest) =
      (wlanStatusSuccess, { t with peerCommitElementFfc := some n }, rest) := by
  have henough : ¬ (buf ++ rest).length < dh.prime.length := by
    rw [length_append, hlen]
    omega
  unfold saeParseCommitElementFfc
  rw [if_neg henough]
  dsimp only
  rw [take_left' hlen, hval, if_neg (by omega), if_neg (by rw [hsub]; simp), drop_left' hlen]

theorem saeParseCommitElement_written {t : SaeTemporaryData P} (henc : t.group.Encodes) {element : SaeElement P}
    (helement : t.group.ElementOk element) (rest : Bytes) :
    ∃ t', saeParseCommitElement t (t.group.elementOctets element ++ rest) = (wlanStatusSuccess, t', rest) ∧
      t.TakesElement t' element := by
  unfold saeParseCommitElement
  cases hg : t.group with
  | unset =>
    rw [hg] at henc
    exact henc.elim
  | ecc ec =>
    rw [hg] at henc helement
    cases element with
    | number n => exact helement.elim
    | point p =>
      obtain ⟨⟨x, y⟩, hxy⟩ := Option.isSome_iff_exists.1 (show (ec.affineCoordinates p).isSome from helement)
      refine ⟨{ t with peerCommitElementEcc := some p }, ?_, ⟨?_, rfl, rfl⟩⟩
      · rw [ecc_elementOctets hxy]
        exact saeParseCommitElementEcc_written henc hxy t rest
      · simp [SaeTemporaryData.peerElement, SaeGroup.element, hg]
  | ffc dh =>
    rw [hg] at henc helement
    cases element with
    | point p => exact helement.elim
    | number n =>
      obtain ⟨hgt, hlt, hsub⟩ : 1 < n ∧ n < beNat dh.prime - 1 ∧ _ := helement
      have hn : n < 256 ^ (SaeGroup.ffc dh : SaeGroup P).primeLen := by
        show n < 256 ^ dh.prime.length
        have hprime := beNat_lt dh.prime
        omega
      obtain ⟨hlen, hval⟩ := SaeGroup.scalarOctets_spec hn
      refine ⟨{ t with peerCommitElementFfc := some n }, ?_, ⟨?_, rfl, rfl⟩⟩
      · exact saeParseCommitElementFfc_written hgt hlt hsub t hlen hval rest
      · simp [SaeTemporaryData.peerElement, SaeGroup.element, hg]

/-! ## The Password Identifier element -/

def IdentifierOk (identifier : Option Bytes) : Prop := ∀ id, identifier = some id → id.length ≤ 254 ∧ 0 ∉ id

theorem cString_of_not_mem {bs : Bytes} (h : 0 ∉ bs) : cString bs = bs := by
  induction bs with
  | nil => rfl
  | cons b bs ih =>
    have hne : b ≠ 0 := fun h0 => h (h0 ▸ mem_cons_self)
    have htail : cString bs = bs := ih fun hmem => h (mem_cons_of_mem _ hmem)
    unfold cString at htail ⊢
    rw [takeWhile_cons, if_pos (by simpa using hne), htail]

theorem saePasswordIdElem_some {id : Bytes} (h : id.length ≤ 254 ∧ 0 ∉ id) :
    saePasswordIdElem (some id) = 255 :: UInt8.ofNat (1 + id.length) :: 33 :: id := by
  unfold saePasswordIdElem
  dsimp only
  rw [cString_of_not_mem h.2]
  rfl

theorem saeIsPasswordIdElem_some {id : Bytes} (h : id.length ≤ 254 ∧ 0 ∉ id) :
    saeIsPasswordIdElem (saePasswordIdElem (some id)) = true ∧
      ((saePasswordIdElem (some id)).getD 1 0).toNat = 1 + id.length := by
  have hlen : (UInt8.ofNat (1 + id.length)).toNat = 1 + id.length := by
    have hbound := h.1
    exact UInt8.toNat_ofNat_of_lt' (show 1 + id.length < 256 by omega)
  rw [saePasswordIdElem_some h]
  refine ⟨?_, hlen⟩
  simp only [saeIsPasswordIdElem, getD_cons_zero, getD_cons_succ, hlen, length_cons]
  simp
  omega

theorem saeParsePasswordIdentifier_written {t : SaeTemporaryData P} (hnone : t.pwId = none)
    {identifier : Option Bytes} (hid : IdentifierOk identifier) :
    saeParsePasswordIdentifier t (saePasswordIdElem identifier) =
      (wlanStatusSuccess, { t with pwId := identifier }) := by
  unfold saeParsePasswordIdentifier
  cases identifier with
  | none =>
    have hno : saeIsPasswordIdElem (saePasswordIdElem none) = false := rfl
    rw [hno, hnone]
    rfl
  | some id =>
    have hid := hid id rfl
    obtain ⟨hyes, hlen⟩ := saeIsPasswordIdElem_some hid
    have hslice : slice (saePasswordIdElem (some id)) 3 (1 + id.length - 1) = id := by
      rw [saePasswordIdElem_some hid, Nat.add_sub_cancel_left]
      show (id.take id.length) = id
      exact take_length
    rw [hyes, hlen]
    dsimp only
    rw [hslice, hnone]
    rfl

/-! ## The token -/

/-- 32 octets before the end of the scalar and the element there is what looks like the header of a Password
Identifier element. -/
def CommitAmbiguous (token : Option Bytes) (fields : Bytes) (identifier : Option Bytes) : Prop :=
  ∃ tk, token = some tk ∧
    saeIsPasswordIdElem ((tk ++ (fields ++ saePasswordIdElem identifier)).drop fields.length) = true

theorem commitAmbiguous_iff {tk scalar element : Bytes} {identifier : Option Bytes} (htk : tk.length = 32)
    (hlen : 32 ≤ element.length) :
    CommitAmbiguous (some tk) (scalar ++ element) identifier ↔
      saeIsPasswordIdElem (element.drop (element.length - 32) ++ saePasswordIdElem identifier) = true := by
  have hdrop : (tk ++ ((scalar ++ element) ++ saePasswordIdElem identifier)).drop (scalar ++ element).length =
      element.drop (element.length - 32) ++ saePasswordIdElem identifier := by
    have hpos : (scalar ++ element).length = (tk ++ scalar).length + (element.length - 32) := by
      rw [length_append, length_append, htk]
      omega
    have hassoc : tk ++ ((scalar ++ element) ++ saePasswordIdElem identifier) =
        (tk ++ scalar) ++ (element ++ saePasswordIdElem identifier) := by
      simp only [append_assoc]
    rw [hassoc, hpos, drop_length_add_append, drop_append_of_le_length (by omega)]
  constructor
  · rintro ⟨tk', heq, h⟩
    cases heq
    rwa [hdrop] at h
  · intro h
    exact ⟨tk, rfl, by rwa [hdrop]⟩

theorem saeParseCommitToken_len (g : SaeGroup P) (pos : Bytes) :
    saeParseCommitToken g pos =
      if pos.length ≤ g.scalarElemLen then (none, pos)
      else if pos.length - g.scalarElemLen < sha256MacLen then (none, pos)
      else if saeIsPasswordIdElem (pos.drop g.scalarElemLen) then (none, pos)
      else
        (some (pos.take (if saeIsPasswordIdElem ((pos.drop g.scalarElemLen).drop sha256MacLen) then
            pos.length - g.scalarElemLen - (2 + (((pos.drop g.scalarElemLen).drop sha256MacLen).getD 1 0).toNat)
          else pos.length - g.scalarElemLen)),
          pos.drop (if saeIsPasswordIdElem ((pos.drop g.scalarElemLen).drop sha256MacLen) then
            pos.length - g.scalarElemLen - (2 + (((pos.drop g.scalarElemLen).drop sha256MacLen).getD 1 0).toNat)
          else pos.length - g.scalarElemLen)) := by
  cases g <;> rfl

theorem saeParseCommitToken_none {g : SaeGroup P} {fields : Bytes} (hfields : fields.length = g.scalarElemLen)
    {identifier : Option Bytes} (hid : IdentifierOk identifier) :
    saeParseCommitToken g (fields ++ saePasswordIdElem identifier) =
      (none, fields ++ saePasswordIdElem identifier) := by
  rw [saeParseCommitToken_len]
  cases identifier with
  | none =>
    rw [if_pos]
    rw [length_append, hfields]
    exact Nat.le_refl _
  | some id =>
    -- a Password Identifier element takes all that is left
    obtain ⟨hyes, -⟩ := saeIsPasswordIdElem_some (hid id rfl)
    rw [← hfields, drop_left, hyes]
    split
    · rfl
    · split <;> rfl

theorem saeParseCommitToken_some {g : SaeGroup P} {fields : Bytes} (hfields : fields.length = g.scalarElemLen)
    {identifier : Option Bytes} (hid : IdentifierOk identifier) {tk : Bytes} (htk : tk.length = 32)
    (hclear : ¬ CommitAmbiguous (some tk) fields identifier) :
    saeParseCommitToken g (tk ++ (fields ++ saePasswordIdElem identifier)) =
      (some tk, fields ++ saePasswordIdElem identifier) := by
  have hlen : (tk ++ (fields ++ saePasswordIdElem identifier)).length =
      g.scalarElemLen + (32 + (saePasswordIdElem identifier).length) := by
    rw [length_append, length_append, htk, hfields]
    omega
  have hno : ¬ saeIsPasswordIdElem ((tk ++ (fields ++ saePasswordIdElem identifier)).drop g.scalarElemLen) =
    true := by
    rw [← hfields]
    exact fun h => hclear ⟨tk, rfl, h⟩
  have helem : ((tk ++ (fields ++ saePasswordIdElem identifier)).drop g.scalarElemLen).drop sha256MacLen =
      saePasswordIdElem identifier := by
    have hpos : g.scalarElemLen + sha256MacLen = (tk ++ fields).length := by
      rw [length_append, htk, hfields, Nat.add_comm]
      rfl
    rw [drop_drop, hpos, ← append_assoc, drop_left]
  -- the length of the element is taken off what is left
  have htlen : (if saeIsPasswordIdElem (saePasswordIdElem identifier) then
      (tk ++ (fields ++ saePasswordIdElem identifier)).length - g.scalarElemLen -
        (2 + ((saePasswordIdElem identifier).getD 1 0).toNat)
      else (tk ++ (fields ++ saePasswordIdElem identifier)).length - g.scalarElemLen) = tk.length := by
    rw [hlen, htk]
    cases identifier with
    | none =>
      rw [if_neg (by decide)]
      show g.scalarElemLen + (32 + 0) - g.scalarElemLen = 32
      omega
    | some id =>
      obtain ⟨hyes, hidlen⟩ := saeIsPasswordIdElem_some (hid id rfl)
      have hidelem : (saePasswordIdElem (some id)).length = 3 + id.length := by
        rw [saePasswordIdElem_some (hid id rfl)]
        simp only [length_cons]
        omega
      rw [if_pos hyes, hidlen, hidelem]
      omega
  have hmore : ¬ (tk ++ (fields ++ saePasswordIdElem identifier)).length ≤ g.scalarElemLen := by
    omega
  have henough : ¬ (tk ++ (fields ++ saePasswordIdElem identifier)).length - g.scalarElemLen < sha256MacLen := by
    show ¬ _ < 32
    omega
  rw [saeParseCommitToken_len, helem, htlen, if_neg hmore, if_neg henough, if_neg hno, take_left,
    drop_left]

theorem saeParseCommitToken_ambiguous {g : SaeGroup P} {fields : Bytes}
    (hfields : fields.length = g.scalarElemLen)
    {identifier : Option Bytes} {tk : Bytes} (hambiguous : CommitAmbiguous (some tk) fields identifier) :
    (saeParseCommitToken g (tk ++ (fields ++ saePasswordIdElem identifier))).1 = none := by
  obtain ⟨tk', heq, hyes⟩ := hambiguous
  cases heq
  rw [saeParseCommitToken_len, ← hfields, if_pos hyes]
  split
  · rfl
  · split <;> rfl

/-! ## The round trip -/

/-- The receiver is in the group of the sender, which its configuration allows, and has an own commit of another
scalar, no expected identifier and no finished exchange with this scalar. -/
structure SaeData.Receives (rx : SaeData P) (t' : SaeTemporaryData P) (allowedGroups : Option (List Int))
    (sae : SaeData P) (t : SaeTemporaryData P) (scalar : Nat) : Prop where
  tmp : rx.tmp = some t'
  sameGroup : rx.group = sae.group
  group_eq : t'.group = t.group
  allowed : (allowedGroups.any fun gs => !allowedGroupsHave sae.group.toNat gs) = false
  ffcListed : ∀ dh, t.group = .ffc dh → allowedGroups.isSome
  noPwId : t'.pwId = none
  otherScalar : t'.ownCommitScalar ≠ some scalar
  fresh : ¬ (rx.state = .accepted ∧ rx.peerCommitScalar = some scalar)

/-- What was written is what was read. -/
structure ParsedCommit.Recovers (r : ParsedCommit P) (token : Option Bytes) (scalar : Nat)
    (element : SaeElement P) (identifier : Option Bytes) : Prop where
  status : r.status = wlanStatusSuccess
  token : r.token = token
  scalar : r.sae.peerCommitScalar = some scalar
  element : (r.sae.tmp.bind (·.peerElement)) = some element
  identifier : (r.sae.tmp.bind (·.pwId)) = identifier

theorem saeGroupAllowed_same (c : CryptoLib P) {rx sae : SaeData P} {t t' : SaeTemporaryData P}
    {allowedGroups : Option (List Int)} {scalar : Nat} {element : SaeElement P}
    (hs : sae.Commits t scalar element) (hr : rx.Receives t' allowedGroups sae t scalar) :
    saeGroupAllowed c allowedGroups sae.group.toNat rx = (wlanStatusSuccess, rx) := by
  have hgroup : (sae.group.toNat : Int) = rx.group := by
    rw [Int.toNat_of_nonneg hs.group_nonneg, hr.sameGroup]
  unfold saeGroupAllowed
  rw [if_neg (by rw [hr.allowed]; simp), if_neg (fun h => h.2 hgroup), if_neg (not_not.2 hgroup)]
  simp only [hr.tmp, hr.group_eq]
  cases hg : t.group with
  | unset => exact absurd hs.encodes (by rw [hg]; exact id)
  | ecc ec => rfl
  | ffc dh =>
    obtain ⟨gs, rfl⟩ := Option.isSome_iff_exists.1 (hr.ffcListed dh hg)
    rfl

theorem getLe16_group {sae : SaeData P} {t : SaeTemporaryData P} {scalar : Nat} {element : SaeElement P}
    (hs : sae.Commits t scalar element) (rest : Bytes) :
    getLe16 (le16 sae.group.toNat ++ rest) = sae.group.toNat := by
  have hlt : sae.group.toNat ≤ 0xffff := by
    have hle := hs.group_le
    omega
  exact Tlv.getLe16_le16_append hlt rest

theorem saeWriteCommit_eq {sae : SaeData P} {t : SaeTemporaryData P} {scalar : Nat} {element : SaeElement P}
    (hs : sae.Commits t scalar element) (token identifier : Option Bytes) :
    saeWriteCommit sae token identifier =
      .ok (le16 sae.group.toNat ++ (token.getD [] ++
        ((t.group.scalarOctets scalar ++ t.group.elementOctets element) ++ saePasswordIdElem identifier))) := by
  have helement : saeWriteCommitElement t = .ok (t.group.elementOctets element) := by
    have hown := hs.ownElement
    have hok := hs.elementOk
    unfold SaeTemporaryData.ownElement at hown
    unfold saeWriteCommitElement
    cases hg : t.group with
    | unset => exact absurd hs.encodes (by rw [hg]; exact id)
    | ecc ec =>
      rw [hg] at hown hok
      obtain ⟨p, hp, rfl⟩ := Option.map_eq_some_iff.1
        (show t.ownCommitElementEcc.map SaeElement.point = some element from hown)
      simp only [hp]
      rfl
    | ffc dh =>
      rw [hg] at hown hok
      obtain ⟨n, hn, rfl⟩ := Option.map_eq_some_iff.1
        (show t.ownCommitElementFfc.map SaeElement.number = some element from hown)
      simp only [hn]
      rfl
  simp only [saeWriteCommit, hs.tmp, hs.ownScalar, helement, append_assoc]
  rfl

theorem saeParseCommitBody_written {rx sae : SaeData P} {t t' : SaeTemporaryData P}
    {allowedGroups : Option (List Int)} {scalar : Nat} {element : SaeElement P} {identifier : Option Bytes}
    (hs : sae.Commits t scalar element) (hr : rx.Receives t' allowedGroups sae t scalar)
    (hid : IdentifierOk identifier) {token : Option Bytes} {pos : Bytes}
    (htoken : saeParseCommitToken t.group pos =
      (token, (t.group.scalarOctets scalar ++ t.group.elementOctets element) ++ saePasswordIdElem identifier)) :
    (saeParseCommitBody rx t' pos).Recovers token scalar element identifier := by
  have hscalar := saeParseCommitScalar_written hs.encodes hs.scalar_gt hs.scalar_lt hr.fresh
    (t.group.elementOctets element ++ saePasswordIdElem identifier)
  have henc' : t'.group.Encodes := by
    rw [hr.group_eq]
    exact hs.encodes
  have hok' : t'.group.ElementOk element := by
    rw [hr.group_eq]
    exact hs.elementOk
  obtain ⟨t₂, helement, htakes⟩ := saeParseCommitElement_written henc' hok' (saePasswordIdElem identifier)
  rw [hr.group_eq] at helement
  have hnone : t₂.pwId = none := htakes.pwId.trans hr.noPwId
  have hident := saeParsePasswordIdentifier_written hnone hid
  -- an own scalar that differs is no reflection
  have hreflection : saeIsReflection { t₂ with pwId := identifier } (some scalar) = false := by
    unfold saeIsReflection
    dsimp only
    rw [htakes.ownCommitScalar]
    cases hown : t'.ownCommitScalar with
    | none => rfl
    | some own =>
      have hne : own ≠ scalar := fun h => hr.otherScalar (by rw [hown, h])
      simp [hne]
  have htail : saeParseCommitBody rx t' pos =
      ⟨wlanStatusSuccess, { rx with
        peerCommitScalar := some scalar
        tmp := some { t₂ with pwId := identifier } }, token⟩ := by
    simp only [saeParseCommitBody, hr.group_eq, htoken, append_assoc, hscalar, helement,
      saeParseCommitTail, hident, hreflection]
    rfl
  rw [htail]
  refine ⟨rfl, rfl, rfl, ?_, rfl⟩
  exact htakes.peerElement

theorem saeParseCommitBody_token (sae : SaeData P) (t : SaeTemporaryData P) (pos : Bytes) :
    (saeParseCommitBody sae t pos).token = (saeParseCommitToken t.group pos).1 := by
  unfold saeParseCommitBody saeParseCommitTail
  dsimp only
  split
  · rfl
  · split
    · rfl
    · split
      · rfl
      · split <;> rfl

/-- A frame that `sae_write_commit()` wrote is read back by `sae_parse_commit()`, token, scalar, element and
identifier, exactly when it is not ambiguous; and with a token and an element of 32 octets or more the last
32 octets of the element say which it is. -/
theorem sae_commit_round_trip (c : CryptoLib P) {sae rx : SaeData P} {t t' : SaeTemporaryData P}
    {allowedGroups : Option (List Int)} {scalar : Nat} {element : SaeElement P}
    {token identifier : Option Bytes}
    (hs : sae.Commits t scalar element) (hr : rx.Receives t' allowedGroups sae t scalar)
    (htoken : ∀ tk, token = some tk → tk.length = 32) (hid : IdentifierOk identifier) :
    (∃ data, saeWriteCommit sae token identifier = .ok data ∧
      ((saeParseCommit c allowedGroups data rx).Recovers token scalar element identifier ↔
        ¬ CommitAmbiguous token (t.group.scalarOctets scalar ++ t.group.elementOctets element) identifier)) ∧
    (token.isSome → 32 ≤ (t.group.elementOctets element).length →
      (CommitAmbiguous token (t.group.scalarOctets scalar ++ t.group.elementOctets element) identifier ↔
        saeIsPasswordIdElem ((t.group.elementOctets element).drop ((t.group.elementOctets element).length - 32) ++
          saePasswordIdElem identifier) = true)) := by
  have hfields := scalarElem_length hs.encodes hs.scalar_lt hs.elementOk
  constructor
  · refine ⟨_, saeWriteCommit_eq hs token identifier, ?_⟩
    have hlong : ¬ (le16 sae.group.toNat ++ (token.getD [] ++
        ((t.group.scalarOctets scalar ++ t.group.elementOctets element) ++ saePasswordIdElem identifier))).length <
        2 := by
      rw [length_append]
      show ¬ 2 + _ < 2
      omega
    have hparse : saeParseCommit c allowedGroups (le16 sae.group.toNat ++ (token.getD [] ++
        ((t.group.scalarOctets scalar ++ t.group.elementOctets element) ++ saePasswordIdElem identifier))) rx =
        saeParseCommitBody rx t' (token.getD [] ++
          ((t.group.scalarOctets scalar ++ t.group.elementOctets element) ++ saePasswordIdElem identifier)) := by
      unfold saeParseCommit
      rw [if_neg hlong, getLe16_group hs]
      simp only [saeGroupAllowed_same c hs hr, hr.tmp]
      rfl
    rw [hparse]
    constructor
    · intro hrec hambiguous
      have htk := hrec.token
      rw [saeParseCommitBody_token, hr.group_eq] at htk
      cases token with
      | none =>
        obtain ⟨tk, heq, -⟩ := hambiguous
        cases heq
      | some tk =>
        rw [show (some tk).getD [] = tk from rfl, saeParseCommitToken_ambiguous hfields hambiguous] at htk
        cases htk
    · intro hclear
      refine saeParseCommitBody_written hs hr hid ?_
      cases token with
      | none => exact saeParseCommitToken_none hfields hid
      | some tk => exact saeParseCommitToken_some hfields hid (htoken tk rfl) hclear
  · intro hsome hlen
    obtain ⟨tk, rfl⟩ := Option.isSome_iff_exists.1 hsome
    exact commitAmbiguous_iff (htoken tk rfl) hlen

theorem smallCurve_encodes : smallCurve.Encodes where
  coordinates_lt := by
    intro p x y h
    have hall : ∀ p : ZMod 5, (smallCurveCoordinates p).all (fun xy => xy.1 < 7 && xy.2 < 7) = true := by decide
    have hxy := hall p
    rw [show smallCurveCoordinates p = some (x, y) from h] at hxy
    show x < 7 ∧ y < 7
    simpa using hxy
  fromCoordinates := by
    intro p x y h
    have hall : ∀ p : ZMod 5,
        (smallCurveCoordinates p).all (fun xy => smallCurvePoint xy.1 xy.2 = some p) = true := by decide
    have hxy := hall p
    rw [show smallCurveCoordinates p = some (x, y) from h] at hxy
    show smallCurvePoint x y = some p
    simpa using hxy
  onCurve := fun _ _ _ _ => rfl
  order_len := by decide
  prime_len := by decide

theorem smallOwnEcc_commits :
    (smallOwnEcc 2 4 1).Commits ((smallOwnEcc 2 4 1).tmp.getD {}) 4 (.point 1) where
  tmp := rfl
  encodes := smallCurve_encodes
  group_nonneg := by decide
  group_le := by decide
  ownScalar := rfl
  ownElement := rfl
  scalar_gt := by decide
  scalar_lt := by decide
  elementOk := rfl

theorem smallOwnFfc_commits :
    (smallOwnFfc 5 12 37).Commits ((smallOwnFfc 5 12 37).tmp.getD {}) 12 (.number 37) where
  tmp := rfl
  encodes := by
    show beNat smallField.order ≤ beNat smallField.prime
    decide
  group_nonneg := by decide
  group_le := by decide
  ownScalar := rfl
  ownElement := rfl
  scalar_gt := by decide
  scalar_lt := by decide
  elementOk := by
    show 1 < 37 ∧ 37 < beNat smallField.prime - 1 ∧ _
    decide

/-- On the small curve with a token and an identifier, and in the small field with neither. -/
theorem sae_commit_round_trip_small :
    (∃ data, saeWriteCommit (smallOwnEcc 2 4 1) (some (zeros 32)) (some [0x69, 0x64]) = .ok data ∧
      (saeParseCommit smallLib none data (smallOwnEcc 3 2 2)).Recovers (some (zeros 32)) 4 (.point 1)
        (some [0x69, 0x64])) ∧
    ∃ data, saeWriteCommit (smallOwnFfc 5 12 37) none none = .ok data ∧
      (saeParseCommit smallLib (some [0]) data (smallOwnFfc 11 10 75)).Recovers none 12 (.number 37) none := by
  have hecc : (smallOwnEcc 3 2 2).Receives ((smallOwnEcc 3 2 2).tmp.getD {}) none (smallOwnEcc 2 4 1)
      ((smallOwnEcc 2 4 1).tmp.getD {}) 4 :=
    { tmp := rfl
      sameGroup := rfl
      group_eq := rfl
      allowed := rfl
      ffcListed := by
        intro dh h
        cases h
      noPwId := rfl
      otherScalar := by decide
      fresh := by decide }
  have hffc : (smallOwnFfc 11 10 75).Receives ((smallOwnFfc 11 10 75).tmp.getD {}) (some [0])
    (smallOwnFfc 5 12 37)
      ((smallOwnFfc 5 12 37).tmp.getD {}) 12 :=
    { tmp := rfl
      sameGroup := rfl
      group_eq := rfl
      allowed := rfl
      ffcListed := fun _ _ => rfl
      noPwId := rfl
      otherScalar := by decide
      fresh := by decide }
  have hid : IdentifierOk (some [0x69, 0x64]) := by
    intro id h
    cases h
    decide
  have hnoId : IdentifierOk none := by
    intro id h
    cases h
  have htoken : ∀ tk, some (zeros 32) = some tk → tk.length = 32 := by
    intro tk h
    cases h
    rfl
  have hnoToken : ∀ tk, (none : Option Bytes) = some tk → tk.length = 32 := by
    intro tk h
    cases h
  constructor
  · obtain ⟨⟨data, hwrite, hread⟩, -⟩ := sae_commit_round_trip smallLib smallOwnEcc_commits hecc htoken hid
    refine ⟨data, hwrite, hread.2 ?_⟩
    rintro ⟨tk, htk, hyes⟩
    cases htk
    exact absurd hyes (by decide)
  · obtain ⟨⟨data, hwrite, hread⟩, -⟩ := sae_commit_round_trip smallLib smallOwnFfc_commits hffc hnoToken hnoId
    refine ⟨data, hwrite, hread.2 ?_⟩
    rintro ⟨tk, htk, -⟩
    cases htk

/-- Without a list of groups a group over a finite field is refused, also between stations that both use it. -/
theorem sae_commit_not_read_back :
    ∃ data, saeWriteCommit { smallOwnFfc 5 12 37 with group := 22 } none none = .ok data ∧
      (saeParseCommit smallLib none data { smallOwnFfc 11 10 75 with group := 22 }).status =
        wlanStatusFiniteCyclicGroupNotSupported := by
  refine ⟨[22, 0, 12, 37], by decide +kernel, by decide +kernel⟩

end Hostap
