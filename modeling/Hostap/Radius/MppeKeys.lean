import Hostap.Lib.Buffer
import Hostap.Lib.Feedback
import Hostap.Radius.Message

/-!
# MS-MPPE keys

A RADIUS server sends the two session keys in vendor attributes of their own, encrypted with the secret
it shares with the access point. `encrypt_ms_key()` encrypts in the buffer of the attribute, and reads the
octets it has just written there as the block before; `decrypt_ms_key()` reads what it was sent and
writes to another buffer. Both are the two directions of `Feedback`, over the digest of the secret and
the block before (`keyStream`).

The access point looks for the keys among all attributes of the message (`radiusMsgGetVendorAttr`).
-/

namespace Hostap

open Octets Prog Buffer List

/-! ## Encryption -/

/-- `RADIUS_ATTR_VENDOR_SPECIFIC`. -/
abbrev radiusAttrVendorSpecific : UInt8 := 26

/-- `RADIUS_VENDOR_ID_MICROSOFT`. -/
abbrev radiusVendorIdMicrosoft : Nat := 311

/-- `RADIUS_VENDOR_ATTR_MS_MPPE_SEND_KEY`. -/
abbrev radiusVendorAttrMsMppeSendKey : UInt8 := 16

/-- `RADIUS_VENDOR_ATTR_MS_MPPE_RECV_KEY`. -/
abbrev radiusVendorAttrMsMppeRecvKey : UInt8 := 17

/-- `hlen` of `radius_msg_add_mppe_keys()`: the vendor, the header of the sub-attribute and the salt. -/
abbrev mppeHdrLen : Nat := 8

section Keys

variable (lib : Md5Lib) (secret : Bytes) (reqAuthenticator : Authenticator)

/-- The block of the key stream that follows a block of the ciphertext. -/
def keyStream (prev : Bytes) : Bytes := lib.md5 (secret ++ prev)

/-- What the digest is made over besides the secret: `start` for the first block, and the 16 octets in
front of the block for the others. -/
def blockBefore (start : Bytes) (first : Bool) (pos : Nat) : BufferM Bytes :=
  if first then pure start else load (pos - md5MacLen) md5MacLen

/-- The loop of `encrypt_ms_key()`, on `n` blocks from `pos` on. -/
def encryptMsKeyLoop (saltbuf : Bytes) : (n pos : Nat) → (first : Bool) → BufferM Unit
  | 0, _, _ => pure ()
  | n + 1, pos, first => do
    let prev ← blockBefore (reqAuthenticator.val ++ saltbuf) first pos
    let block ← load pos md5MacLen
    store pos (Feedback.xor block (keyStream lib secret prev))
    encryptMsKeyLoop saltbuf n (pos + md5MacLen) false

/-- The length `encrypt_ms_key()` fills up to, for a key with its length octet. -/
def mppePad (len : Nat) : Nat := if len &&& 0x0f ≠ 0 then (len &&& 0xf0) + 16 else len

/-- `encrypt_ms_key()`, to the part of the buffer from `ebuf` on: the length of what it wrote. -/
def encryptMsKey (key : Bytes) (salt : UInt16) (ebuf : Nat) : BufferM Nat := do
  let len := mppePad (1 + key.length)
  store ebuf (zeros len)
  store ebuf [UInt8.ofNat key.length]
  store (ebuf + 1) key
  encryptMsKeyLoop lib secret reqAuthenticator (natBe 2 salt.toNat) ((len + 15) / 16) ebuf true
  pure len

/-- One of the two halves of `radius_msg_add_mppe_keys()`: the value of the attribute. -/
def mppeKeyAttr (subtype : UInt8) (key : Bytes) (salt : UInt16) : BufferM Bytes := do
  store 0 (natBe 4 radiusVendorIdMicrosoft)
  store 4 [subtype]
  store 6 (natBe 2 salt.toNat)
  let elen ← encryptMsKey lib secret reqAuthenticator key salt mppeHdrLen
  store 5 [UInt8.ofNat (mppeHdrLen + elen - 4)]
  load 0 (mppeHdrLen + elen)

/-- Memory of `n` octets that nothing was written to. -/
def osMalloc (heap : Nat → UInt8) (n : Nat) : Bytes := (List.range n).map heap

/-- `radius_msg_add_mppe_keys()`: whether both attributes were added. `heap₁` and `heap₂` are what the
two buffers hold before. -/
def radiusMsgAddMppeKeys (sendKey recvKey : Bytes) (random : UInt16) (heap₁ heap₂ : Nat → UInt8)
    (m : RadiusMsg) : Except OutOfBounds (Bool × RadiusMsg) := do
  let salt := random ||| 0x8000
  let send ← (mppeKeyAttr lib secret reqAuthenticator radiusVendorAttrMsMppeSendKey sendKey salt).run
    (osMalloc heap₁ (mppeHdrLen + sendKey.length + 16))
  match radiusMsgAddAttr radiusAttrVendorSpecific send.1 m with
  | none => pure (false, m)
  | some m => do
    let recv ← (mppeKeyAttr lib secret reqAuthenticator radiusVendorAttrMsMppeRecvKey recvKey
      (salt ^^^ 1)).run (osMalloc heap₂ (mppeHdrLen + recvKey.length + 16))
    match radiusMsgAddAttr radiusAttrVendorSpecific recv.1 m with
    | none => pure (false, m)
    | some m => pure (true, m)

/-! ## Decryption -/

/-- The loop of `decrypt_ms_key()`, on `n` blocks from `pos` on. -/
def decryptMsKeyLoop (key : Bytes) : (n pos : Nat) → (first : Bool) → Bytes
  | 0, _, _ => []
  | n + 1, pos, first =>
    let prev := if first then reqAuthenticator.val ++ key.take 2 else slice key (pos - md5MacLen) md5MacLen
    Feedback.xor (slice key pos md5MacLen) (keyStream lib secret prev) ++
      decryptMsKeyLoop key n (pos + md5MacLen) false

/-- `decrypt_ms_key()`. -/
def decryptMsKey (key : Bytes) : Option Bytes :=
  if key.length < 2 + 16 then
    none
  else if (key.length - 2) % 16 ≠ 0 then
    none
  else
    let plain := decryptMsKeyLoop lib secret reqAuthenticator key ((key.length - 2) / 16) 2 true
    let n := (plain.getD 0 0).toNat
    if n = 0 ∨ plain.length - 1 < n then none else some (slice plain 1 n)

/-- The sub-attributes of one vendor attribute in `radius_msg_get_vendor_attr()`; `fuel` is at least the
number of octets left. -/
def findVendorType (subtype : UInt8) : (fuel : Nat) → Bytes → Option Bytes
  | 0, _ => none
  | fuel + 1, pos =>
    match pos with
    | vendorType :: vendorLength :: _ =>
      if pos.length < vendorLength.toNat ∨ vendorLength.toNat < 2 then
        none
      else if vendorType ≠ subtype then
        findVendorType subtype fuel (pos.drop vendorLength.toNat)
      else
        some (slice pos 2 (vendorLength.toNat - 2))
    | _ => none

/-- What `radius_msg_get_vendor_attr()` finds in one attribute. -/
def vendorAttrValue (vendor : Nat) (subtype : UInt8) (attr : UInt8 × Bytes) : Option Bytes :=
  if attr.1 ≠ radiusAttrVendorSpecific then
    none
  else if attr.2.length < 4 then
    none
  else if beNat (attr.2.take 4) ≠ vendor then
    none
  else
    findVendorType subtype attr.2.length (attr.2.drop 4)

/-- `radius_msg_get_vendor_attr()`. -/
def radiusMsgGetVendorAttr (vendor : Nat) (subtype : UInt8) (m : RadiusMsg) : Option Bytes :=
  m.attrs.findSome? (vendorAttrValue vendor subtype)

/-- `struct radius_ms_mppe_keys`. -/
structure RadiusMsMppeKeys where
  send : Option Bytes
  recv : Option Bytes
  deriving DecidableEq, Repr

/-- `radius_msg_get_ms_keys()`, for the authenticator of the request. -/
def radiusMsgGetMsKeys (m : RadiusMsg) : RadiusMsMppeKeys where
  send := (radiusMsgGetVendorAttr radiusVendorIdMicrosoft radiusVendorAttrMsMppeSendKey m).bind
    (decryptMsKey lib secret reqAuthenticator)
  recv := (radiusMsgGetVendorAttr radiusVendorIdMicrosoft radiusVendorAttrMsMppeRecvKey m).bind
    (decryptMsKey lib secret reqAuthenticator)

end Keys

/-! ## Both directions -/

section Directions

variable (lib : Md5Lib) (secret : Bytes) (reqAuthenticator : Authenticator)

theorem keyStream_length (prev : Bytes) : (keyStream lib secret prev).length = 16 :=
  lib.md5_length _

/-- What comes before the block at the end of `pre`: the request and the salt, or the block before. -/
def FeedsFrom (start pre prev : Bytes) (first : Bool) : Prop :=
  (first = true ∧ prev = start) ∨ (first = false ∧ ∃ before, pre = before ++ prev ∧ prev.length = 16)

theorem encryptMsKeyLoop_run {saltbuf prev pre plain : Bytes} {n : Nat} {first : Bool}
    (hprev : FeedsFrom (reqAuthenticator.val ++ saltbuf) pre prev first)
    (hplain : plain.length = 16 * n) (post : Bytes) :
    encryptMsKeyLoop lib secret reqAuthenticator saltbuf n pre.length first (pre ++ (plain ++ post)) =
      .ok ((), pre ++ (Feedback.encrypt (keyStream lib secret) 16 n prev plain ++ post)) := by
  induction n generalizing prev pre plain first with
  | zero =>
    rw [eq_nil_of_length_eq_zero hplain]
    rfl
  | succ n ih =>
    obtain ⟨block, rest, rfl, hblock, hrest⟩ := exists_front (show 16 ≤ plain.length by omega)
    have hstream := keyStream_length lib secret prev
    have hcipher : (Feedback.xor block (keyStream lib secret prev)).length = 16 :=
      (Feedback.xor_length (hblock.trans hstream.symm)).trans hblock
    have hload : blockBefore (reqAuthenticator.val ++ saltbuf) first pre.length
        (pre ++ (block ++ rest ++ post)) = .ok (prev, pre ++ (block ++ rest ++ post)) := by
      rcases hprev with ⟨rfl, rfl⟩ | ⟨rfl, before, rfl, hlen⟩
      · rfl
      · unfold blockBefore
        rw [if_neg Bool.false_ne_true, append_assoc]
        exact load_middle (by rw [length_append, hlen]; exact (Nat.add_sub_cancel _ _).symm) hlen
    unfold encryptMsKeyLoop
    rw [bind_ok hload, append_assoc block, bind_ok (load_middle rfl hblock),
      bind_ok (store_middle rfl (hblock.trans hcipher.symm))]
    -- the block that was just written is the one the next round reads
    have hfeeds : FeedsFrom (reqAuthenticator.val ++ saltbuf)
        (pre ++ Feedback.xor block (keyStream lib secret prev))
        (Feedback.xor block (keyStream lib secret prev)) false := .inr ⟨rfl, pre, rfl, hcipher⟩
    have hnext := ih hfeeds (show rest.length = 16 * n by omega)
    rw [length_append, hcipher, append_assoc, append_assoc] at hnext
    unfold Feedback.encrypt
    rw [take_left' hblock, drop_left' hblock, append_assoc]
    exact hnext

theorem decryptMsKeyLoop_eq {key prev pre cipher : Bytes} {n : Nat} {first : Bool}
    (hkey : key = pre ++ cipher)
    (hprev : FeedsFrom (reqAuthenticator.val ++ key.take 2) pre prev first)
    (hcipher : cipher.length = 16 * n) :
    decryptMsKeyLoop lib secret reqAuthenticator key n pre.length first =
      Feedback.decrypt (keyStream lib secret) 16 n prev cipher := by
  induction n generalizing prev pre cipher first with
  | zero => rfl
  | succ n ih =>
    obtain ⟨block, rest, rfl, hblock, hrest⟩ := exists_front (show 16 ≤ cipher.length by omega)
    have hslice : slice key pre.length md5MacLen = block := by
      rw [hkey]
      exact slice_middle rfl hblock
    have hread : (if first then reqAuthenticator.val ++ key.take 2 else
        slice key (pre.length - md5MacLen) md5MacLen) = prev := by
      rcases hprev with ⟨rfl, rfl⟩ | ⟨rfl, before, rfl, hlen⟩
      · rfl
      · rw [if_neg Bool.false_ne_true, hkey, append_assoc]
        exact slice_middle (by rw [length_append, hlen]; exact (Nat.add_sub_cancel _ _).symm) hlen
    have hkey' : key = (pre ++ block) ++ rest := by rw [hkey, append_assoc]
    have hnext := ih hkey' (.inr ⟨rfl, pre, rfl, hblock⟩) (by omega)
    rw [length_append, hblock] at hnext
    unfold decryptMsKeyLoop Feedback.decrypt
    dsimp only
    rw [hread, hslice, take_left' hblock, drop_left' hblock, hnext]

def mppePlain (key : Bytes) : Bytes :=
  [UInt8.ofNat key.length] ++ (key ++ zeros (mppePad (1 + key.length) - (1 + key.length)))

theorem mppePad_bounds {n : Nat} (h1 : 1 ≤ n) (h239 : n ≤ 239) :
    mppePad (1 + n) % 16 = 0 ∧ 1 + n ≤ mppePad (1 + n) ∧ mppePad (1 + n) ≤ n + 16 ∧
      mppePad (1 + n) ≤ 240 := by
  have hall : ∀ n < 240, 1 ≤ n → mppePad (1 + n) % 16 = 0 ∧ 1 + n ≤ mppePad (1 + n) ∧
      mppePad (1 + n) ≤ n + 16 ∧ mppePad (1 + n) ≤ 240 := by decide +kernel
  exact hall n (by omega) h1

theorem mppePlain_length {key : Bytes} (h1 : 1 ≤ key.length) (h239 : key.length ≤ 239) :
    (mppePlain key).length = 16 * (mppePad (1 + key.length) / 16) := by
  obtain ⟨hmod, hle, -⟩ := mppePad_bounds h1 h239
  unfold mppePlain
  rw [length_append, length_append, zeros_length, length_singleton]
  omega

def mppeCipher (lib : Md5Lib) (secret : Bytes) (reqAuthenticator : Authenticator) (key : Bytes)
    (salt : UInt16) : Bytes :=
  natBe 2 salt.toNat ++ Feedback.encrypt (keyStream lib secret) 16 (mppePad (1 + key.length) / 16)
    (reqAuthenticator.val ++ natBe 2 salt.toNat) (mppePlain key)

theorem mppeCipher_length {key : Bytes} (h1 : 1 ≤ key.length) (h239 : key.length ≤ 239)
    (salt : UInt16) :
    (mppeCipher lib secret reqAuthenticator key salt).length = 2 + mppePad (1 + key.length) := by
  obtain ⟨hmod, -⟩ := mppePad_bounds h1 h239
  unfold mppeCipher
  rw [length_append, natBe_length,
    Feedback.encrypt_length (keyStream_length lib secret) _ (mppePlain_length h1 h239)]
  omega

theorem encryptMsKey_run (pre : Bytes) {key body : Bytes} (h1 : 1 ≤ key.length) (h239 : key.length ≤ 239)
    (hbody : body.length = mppePad (1 + key.length)) (salt : UInt16) (post : Bytes) :
    encryptMsKey lib secret reqAuthenticator key salt pre.length (pre ++ (body ++ post)) =
      .ok (mppePad (1 + key.length), pre ++ (Feedback.encrypt (keyStream lib secret) 16
        (mppePad (1 + key.length) / 16) (reqAuthenticator.val ++ natBe 2 salt.toNat) (mppePlain key) ++
          post)) := by
  obtain ⟨hmod, hle, -⟩ := mppePad_bounds h1 h239
  -- the zeros are split where the length and the key go
  have hzeros : zeros (mppePad (1 + key.length)) = [0] ++ (zeros key.length ++
      zeros (mppePad (1 + key.length) - (1 + key.length))) := by
    have hsum : mppePad (1 + key.length) =
        1 + (key.length + (mppePad (1 + key.length) - (1 + key.length))) := by omega
    conv_lhs => rw [hsum]
    unfold zeros
    rw [← replicate_append_replicate, ← replicate_append_replicate]
    rfl
  have hclear : store pre.length (zeros (mppePad (1 + key.length))) (pre ++ (body ++ post)) =
      .ok ((), pre ++ ([0] ++ ((zeros key.length ++
        zeros (mppePad (1 + key.length) - (1 + key.length))) ++ post))) := by
    rw [store_middle rfl (by rw [hbody, zeros_length]), hzeros, append_assoc]
  have hlength : store pre.length [UInt8.ofNat key.length] (pre ++ ([0] ++ ((zeros key.length ++
      zeros (mppePad (1 + key.length) - (1 + key.length))) ++ post))) =
      .ok ((), (pre ++ [UInt8.ofNat key.length]) ++ (zeros key.length ++
        (zeros (mppePad (1 + key.length) - (1 + key.length)) ++ post))) := by
    rw [store_middle (b := [0]) rfl (by rfl), append_assoc, append_assoc]
  have hkey : store (pre.length + 1) key ((pre ++ [UInt8.ofNat key.length]) ++ (zeros key.length ++
      (zeros (mppePad (1 + key.length) - (1 + key.length)) ++ post))) =
      .ok ((), pre ++ (mppePlain key ++ post)) := by
    rw [store_middle (by rw [length_append, length_singleton]) (zeros_length _)]
    unfold mppePlain
    simp only [append_assoc]
  have hround : (mppePad (1 + key.length) + 15) / 16 = mppePad (1 + key.length) / 16 := by omega
  have hloop := encryptMsKeyLoop_run lib secret reqAuthenticator (.inl ⟨rfl, rfl⟩ :
    FeedsFrom (reqAuthenticator.val ++ natBe 2 salt.toNat) pre _ true) (mppePlain_length h1 h239) post
  unfold encryptMsKey
  rw [bind_ok hclear, bind_ok hlength, bind_ok hkey, hround, bind_ok hloop]
  rfl

def mppeValue (lib : Md5Lib) (secret : Bytes) (reqAuthenticator : Authenticator) (subtype : UInt8)
    (key : Bytes) (salt : UInt16) : Bytes :=
  natBe 4 radiusVendorIdMicrosoft ++ Tlv.encode radiusAttrFormat
    (subtype, mppeCipher lib secret reqAuthenticator key salt)

theorem mppeValue_eq {key : Bytes} (h1 : 1 ≤ key.length) (h239 : key.length ≤ 239) (subtype : UInt8)
    (salt : UInt16) :
    mppeValue lib secret reqAuthenticator subtype key salt = natBe 4 radiusVendorIdMicrosoft ++ ([subtype] ++
      ([UInt8.ofNat (mppeHdrLen + mppePad (1 + key.length) - 4)] ++
        mppeCipher lib secret reqAuthenticator key salt)) := by
  have hlen : (mppeCipher lib secret reqAuthenticator key salt).length + 2 =
      mppeHdrLen + mppePad (1 + key.length) - 4 := by
    rw [mppeCipher_length lib secret reqAuthenticator h1 h239]
    show _ = 8 + _ - 4
    omega
  unfold mppeValue
  rw [← hlen]
  rfl

theorem mppeValue_length {key : Bytes} (h1 : 1 ≤ key.length) (h239 : key.length ≤ 239) (subtype : UInt8)
    (salt : UInt16) :
    (mppeValue lib secret reqAuthenticator subtype key salt).length =
      mppeHdrLen + mppePad (1 + key.length) := by
  unfold mppeValue
  rw [length_append, natBe_length, Tlv.encode_length]
  show 4 + (2 + (mppeCipher lib secret reqAuthenticator key salt).length) = 8 + _
  rw [mppeCipher_length lib secret reqAuthenticator h1 h239]
  omega

theorem mppeKeyAttr_run {key buf : Bytes} (h1 : 1 ≤ key.length) (h239 : key.length ≤ 239)
    (hbuf : buf.length = mppeHdrLen + key.length + 16) (subtype : UInt8) (salt : UInt16) :
    ∃ buf', mppeKeyAttr lib secret reqAuthenticator subtype key salt buf =
      .ok (mppeValue lib secret reqAuthenticator subtype key salt, buf') := by
  obtain ⟨hmod, hle, hroom, hmax⟩ := mppePad_bounds h1 h239
  have hbuf' : buf.length = 8 + key.length + 16 := hbuf
  -- vendor, type, length, salt, encrypted key, and what is left of the buffer
  obtain ⟨vendor, r₁, rfl, hvendor, hr₁⟩ := exists_front (show 4 ≤ buf.length by omega)
  obtain ⟨type, r₂, rfl, htype, hr₂⟩ := exists_front (show 1 ≤ r₁.length by omega)
  obtain ⟨len, r₃, rfl, hlen, hr₃⟩ := exists_front (show 1 ≤ r₂.length by omega)
  obtain ⟨saltbuf, r₄, rfl, hsalt, hr₄⟩ := exists_front (show 2 ≤ r₃.length by omega)
  obtain ⟨body, post, rfl, hbody, hpost⟩ :=
    exists_front (show mppePad (1 + key.length) ≤ r₄.length by omega)
  have hid : (natBe 4 radiusVendorIdMicrosoft).length = 4 := natBe_length _ _
  have hsalt' : (natBe 2 salt.toNat).length = 2 := natBe_length _ _
  have hvalue := mppeValue_eq lib secret reqAuthenticator h1 h239 subtype salt
  have hload := mppeValue_length lib secret reqAuthenticator h1 h239 subtype salt
  unfold mppeCipher at hvalue
  generalize hc : Feedback.encrypt (keyStream lib secret) 16 (mppePad (1 + key.length) / 16)
    (reqAuthenticator.val ++ natBe 2 salt.toNat) (mppePlain key) = cipher at hvalue
  generalize hi : natBe 4 radiusVendorIdMicrosoft = id at hid hvalue
  have hstore₁ : store 0 id (vendor ++ (type ++ (len ++ (saltbuf ++ (body ++ post))))) =
      .ok ((), id ++ (type ++ (len ++ (saltbuf ++ (body ++ post))))) :=
    store_middle (a := []) rfl (hvendor.trans hid.symm)
  have hstore₂ : store 4 [subtype] (id ++ (type ++ (len ++ (saltbuf ++ (body ++ post))))) =
      .ok ((), id ++ ([subtype] ++ (len ++ (saltbuf ++ (body ++ post))))) := store_middle hid htype
  have hstore₃ : store 6 (natBe 2 salt.toNat) (id ++ ([subtype] ++ (len ++ (saltbuf ++ (body ++ post))))) =
      .ok ((), id ++ ([subtype] ++ (len ++ (natBe 2 salt.toNat ++ (body ++ post))))) := by
    have h := store_middle (a := id ++ ([subtype] ++ len)) (c := body ++ post)
      (by simp only [length_append, hid, hlen, length_singleton] : _ = 6)
      (hsalt.trans hsalt'.symm)
    simpa only [append_assoc] using h
  have hencrypt : encryptMsKey lib secret reqAuthenticator key salt mppeHdrLen
      (id ++ ([subtype] ++ (len ++ (natBe 2 salt.toNat ++ (body ++ post))))) =
      .ok (mppePad (1 + key.length), id ++ ([subtype] ++ (len ++ (natBe 2 salt.toNat ++
        (cipher ++ post))))) := by
    have hpre : (id ++ ([subtype] ++ (len ++ natBe 2 salt.toNat))).length = mppeHdrLen := by
      simp only [length_append, hid, hlen, hsalt', length_singleton]
    have h := encryptMsKey_run lib secret reqAuthenticator (id ++ ([subtype] ++ (len ++ natBe 2 salt.toNat)))
      h1 h239 hbody salt post
    rw [hpre, hc] at h
    simpa only [append_assoc] using h
  have hstore₅ : store 5 [UInt8.ofNat (mppeHdrLen + mppePad (1 + key.length) - 4)]
      (id ++ ([subtype] ++ (len ++ (natBe 2 salt.toNat ++ (cipher ++ post))))) =
      .ok ((), mppeValue lib secret reqAuthenticator subtype key salt ++ post) := by
    have h : store 5 [UInt8.ofNat (mppeHdrLen + mppePad (1 + key.length) - 4)]
        ((id ++ [subtype]) ++ (len ++ (natBe 2 salt.toNat ++ (cipher ++ post)))) = .ok (_, _) :=
      store_middle (by rw [length_append, hid, length_singleton]) hlen
    rw [hvalue]
    simpa only [append_assoc] using h
  refine ⟨mppeValue lib secret reqAuthenticator subtype key salt ++ post, ?_⟩
  unfold mppeKeyAttr
  rw [hi, bind_ok hstore₁, bind_ok hstore₂, bind_ok hstore₃, bind_ok hencrypt, bind_ok hstore₅]
  exact load_middle (a := []) rfl hload

theorem decryptMsKey_mppeCipher {key : Bytes} (h1 : 1 ≤ key.length) (h239 : key.length ≤ 239)
    (salt : UInt16) :
    decryptMsKey lib secret reqAuthenticator (mppeCipher lib secret reqAuthenticator key salt) =
      some key := by
  obtain ⟨hmod, hle, -⟩ := mppePad_bounds h1 h239
  have hlen := mppeCipher_length lib secret reqAuthenticator h1 h239 salt
  have hplain := mppePlain_length h1 h239
  have hsalt : (natBe 2 salt.toNat).length = 2 := natBe_length _ _
  have hblocks : ((mppeCipher lib secret reqAuthenticator key salt).length - 2) / 16 =
      mppePad (1 + key.length) / 16 := by
    rw [hlen]
    omega
  have hstart : FeedsFrom (reqAuthenticator.val ++
      (mppeCipher lib secret reqAuthenticator key salt).take 2) (natBe 2 salt.toNat)
      (reqAuthenticator.val ++ natBe 2 salt.toNat) true := by
    refine .inl ⟨rfl, ?_⟩
    unfold mppeCipher
    rw [take_left' hsalt]
  have hloop := decryptMsKeyLoop_eq lib secret reqAuthenticator rfl hstart
    (Feedback.encrypt_length (keyStream_length lib secret) _ hplain)
  rw [hsalt] at hloop
  have hloop' : decryptMsKeyLoop lib secret reqAuthenticator
      (mppeCipher lib secret reqAuthenticator key salt) (mppePad (1 + key.length) / 16) 2 true =
      mppePlain key := hloop.trans (Feedback.decrypt_encrypt (keyStream_length lib secret) _ hplain)
  have hn : (UInt8.ofNat key.length).toNat = key.length := by
    rw [UInt8.toNat_ofNat']
    omega
  have hfirst : (mppePlain key).getD 0 0 = UInt8.ofNat key.length := rfl
  have hkey : slice (mppePlain key) 1 key.length = key := slice_middle rfl rfl
  unfold decryptMsKey
  rw [if_neg (by omega), if_neg (by omega), hblocks, hloop']
  dsimp only
  rw [hfirst, hn, if_neg (by omega), hkey]

end Directions

/-! ## Among other attributes -/

section Attributes

def vendorAttr (vendor : Nat) (subs : List (UInt8 × Bytes)) : UInt8 × Bytes :=
  (radiusAttrVendorSpecific, natBe 4 vendor ++ Tlv.encodeAll radiusAttrFormat subs)

/-- An attribute that does not carry a key: one of another type, or a well-formed vendor attribute with
sub-attributes of other types or of another vendor. -/
def OtherAttr (attr : UInt8 × Bytes) : Prop :=
  attr.1 ≠ radiusAttrVendorSpecific ∨ ∃ vendor subs, attr = vendorAttr vendor subs ∧
    vendor < 2 ^ 32 ∧ (∀ s ∈ subs, s.2.length ≤ radiusMaxAttrLen) ∧
    (vendor = radiusVendorIdMicrosoft → ∀ s ∈ subs, s.1 ≠ radiusVendorAttrMsMppeSendKey ∧
      s.1 ≠ radiusVendorAttrMsMppeRecvKey)

theorem findVendorType_encode (subtype : UInt8) (fuel : Nat) {s : UInt8 × Bytes}
    (hfits : s.2.length ≤ radiusMaxAttrLen) (rest : Bytes) :
    findVendorType subtype (fuel + 1) (Tlv.encode radiusAttrFormat s ++ rest) =
      if s.1 ≠ subtype then findVendorType subtype fuel rest else some s.2 := by
  have hle : s.2.length ≤ 253 := hfits
  have hcons : Tlv.encode radiusAttrFormat s ++ rest =
      s.1 :: UInt8.ofNat (s.2.length + 2) :: (s.2 ++ rest) := rfl
  have hlen : (UInt8.ofNat (s.2.length + 2)).toNat = s.2.length + 2 := by
    rw [UInt8.toNat_ofNat']
    omega
  rw [hcons]
  conv_lhs => unfold findVendorType
  dsimp only
  rw [hlen, if_neg (by simp only [length_cons, length_append]; omega)]
  congr 1
  · rw [show s.2.length + 2 = s.2.length + 1 + 1 from rfl, drop_succ_cons, drop_succ_cons,
      drop_left]
  · rw [Nat.add_sub_cancel]
    congr 1
    exact slice_middle (a := [s.1, UInt8.ofNat (s.2.length + 2)]) rfl rfl

theorem findVendorType_none {subtype : UInt8} (fuel : Nat) {subs : List (UInt8 × Bytes)}
    (hfits : ∀ s ∈ subs, s.2.length ≤ radiusMaxAttrLen) (hother : ∀ s ∈ subs, s.1 ≠ subtype) :
    findVendorType subtype fuel (Tlv.encodeAll radiusAttrFormat subs) = none := by
  induction subs generalizing fuel with
  | nil => cases fuel <;> rfl
  | cons s subs ih =>
    cases fuel with
    | zero => rfl
    | succ fuel =>
      rw [Tlv.encodeAll_cons, findVendorType_encode subtype fuel (hfits s mem_cons_self),
        if_pos (hother s mem_cons_self)]
      exact ih fuel (fun t ht => hfits t (mem_cons_of_mem s ht))
        fun t ht => hother t (mem_cons_of_mem s ht)

theorem vendorAttrValue_vendorAttr (vendor : Nat) (subtype : UInt8) {vendor' : Nat}
    (hvendor : vendor' < 2 ^ 32) (subs : List (UInt8 × Bytes)) :
    vendorAttrValue vendor subtype (vendorAttr vendor' subs) =
      if vendor' ≠ vendor then none else
        findVendorType subtype (4 + (Tlv.encodeAll radiusAttrFormat subs).length)
          (Tlv.encodeAll radiusAttrFormat subs) := by
  have hlen : (natBe 4 vendor').length = 4 := natBe_length _ _
  have hid : beNat (natBe 4 vendor') = vendor' := beNat_natBe (by omega)
  unfold vendorAttrValue vendorAttr
  dsimp only
  rw [if_neg (not_not.mpr rfl), if_neg (by rw [length_append, hlen]; omega),
    take_left' hlen, drop_left' hlen, hid, length_append, hlen]

theorem OtherAttr.value {attr : UInt8 × Bytes} (h : OtherAttr attr) :
    vendorAttrValue radiusVendorIdMicrosoft radiusVendorAttrMsMppeSendKey attr = none ∧
      vendorAttrValue radiusVendorIdMicrosoft radiusVendorAttrMsMppeRecvKey attr = none := by
  rcases h with htype | ⟨vendor, subs, rfl, hvendor, hfits, hsubs⟩
  · exact ⟨if_pos htype, if_pos htype⟩
  · rw [vendorAttrValue_vendorAttr _ _ hvendor, vendorAttrValue_vendorAttr _ _ hvendor]
    by_cases hms : vendor = radiusVendorIdMicrosoft
    · rw [if_neg (not_not.mpr hms), if_neg (not_not.mpr hms)]
      exact ⟨findVendorType_none _ hfits fun s hs => (hsubs hms s hs).1,
        findVendorType_none _ hfits fun s hs => (hsubs hms s hs).2⟩
    · exact ⟨if_pos hms, if_pos hms⟩

def mppeAttr (lib : Md5Lib) (secret : Bytes) (reqAuthenticator : Authenticator) (subtype : UInt8)
    (key : Bytes) (salt : UInt16) : UInt8 × Bytes :=
  vendorAttr radiusVendorIdMicrosoft [(subtype, mppeCipher lib secret reqAuthenticator key salt)]

variable (lib : Md5Lib) (secret : Bytes) (reqAuthenticator : Authenticator)

theorem vendorAttrValue_mppeAttr {key : Bytes} (h1 : 1 ≤ key.length) (h239 : key.length ≤ 239)
    (salt : UInt16) (subtype subtype' : UInt8) :
    vendorAttrValue radiusVendorIdMicrosoft subtype'
        (mppeAttr lib secret reqAuthenticator subtype key salt) =
      if subtype ≠ subtype' then none else some (mppeCipher lib secret reqAuthenticator key salt) := by
  have hlen := mppeCipher_length lib secret reqAuthenticator h1 h239 salt
  have hpad := mppePad_bounds h1 h239
  have hfits : (mppeCipher lib secret reqAuthenticator key salt).length ≤ radiusMaxAttrLen := by
    show _ ≤ 253
    omega
  have hfuel : 4 + (Tlv.encodeAll radiusAttrFormat
      [(subtype, mppeCipher lib secret reqAuthenticator key salt)]).length =
      (3 + (Tlv.encodeAll radiusAttrFormat
        [(subtype, mppeCipher lib secret reqAuthenticator key salt)]).length) + 1 := by omega
  unfold mppeAttr
  rw [vendorAttrValue_vendorAttr _ _ (by decide), if_neg (not_not.mpr rfl), hfuel, Tlv.encodeAll_cons,
    findVendorType_encode subtype' _ hfits]
  congr 1

theorem radiusMsgGetMsKeys_attrs {sendKey recvKey : Bytes} (hs1 : 1 ≤ sendKey.length)
    (hs239 : sendKey.length ≤ 239) (hr1 : 1 ≤ recvKey.length) (hr239 : recvKey.length ≤ 239)
    (salt salt' : UInt16) {before after : List (UInt8 × Bytes)} (hbefore : ∀ x ∈ before, OtherAttr x)
    {m : RadiusMsg} (hm : m.attrs = before ++
      ([mppeAttr lib secret reqAuthenticator radiusVendorAttrMsMppeSendKey sendKey salt,
        mppeAttr lib secret reqAuthenticator radiusVendorAttrMsMppeRecvKey recvKey salt'] ++ after)) :
    radiusMsgGetMsKeys lib secret reqAuthenticator m = ⟨some sendKey, some recvKey⟩ := by
  have hnone₁ : before.findSome? (vendorAttrValue radiusVendorIdMicrosoft
      radiusVendorAttrMsMppeSendKey) = none :=
    findSome?_eq_none_iff.mpr fun x hx => (hbefore x hx).value.1
  have hnone₂ : before.findSome? (vendorAttrValue radiusVendorIdMicrosoft
      radiusVendorAttrMsMppeRecvKey) = none :=
    findSome?_eq_none_iff.mpr fun x hx => (hbefore x hx).value.2
  have hsend : radiusMsgGetVendorAttr radiusVendorIdMicrosoft radiusVendorAttrMsMppeSendKey m =
      some (mppeCipher lib secret reqAuthenticator sendKey salt) := by
    unfold radiusMsgGetVendorAttr
    rw [hm, findSome?_append, hnone₁, Option.none_or, cons_append, findSome?_cons,
      vendorAttrValue_mppeAttr lib secret reqAuthenticator hs1 hs239, if_neg (not_not.mpr rfl)]
  have hrecv : radiusMsgGetVendorAttr radiusVendorIdMicrosoft radiusVendorAttrMsMppeRecvKey m =
      some (mppeCipher lib secret reqAuthenticator recvKey salt') := by
    unfold radiusMsgGetVendorAttr
    rw [hm, findSome?_append, hnone₂, Option.none_or, cons_append, findSome?_cons,
      vendorAttrValue_mppeAttr lib secret reqAuthenticator hs1 hs239, if_pos (by decide)]
    dsimp only
    rw [cons_append, findSome?_cons,
      vendorAttrValue_mppeAttr lib secret reqAuthenticator hr1 hr239, if_neg (not_not.mpr rfl)]
  unfold radiusMsgGetMsKeys
  rw [hsend, hrecv]
  dsimp only [Option.bind]
  rw [decryptMsKey_mppeCipher lib secret reqAuthenticator hs1 hs239,
    decryptMsKey_mppeCipher lib secret reqAuthenticator hr1 hr239]

theorem mppeAttr_eq (subtype : UInt8) (key : Bytes) (salt : UInt16) :
    mppeAttr lib secret reqAuthenticator subtype key salt =
      (radiusAttrVendorSpecific, mppeValue lib secret reqAuthenticator subtype key salt) := by
  unfold mppeAttr vendorAttr mppeValue
  rw [Tlv.encodeAll_cons, Tlv.encodeAll_nil, append_nil]

theorem mppeValue_length_le {key : Bytes} (h1 : 1 ≤ key.length) (h239 : key.length ≤ 239)
    (subtype : UInt8) (salt : UInt16) :
    (mppeValue lib secret reqAuthenticator subtype key salt).length ≤ radiusMaxAttrLen := by
  have hpad := mppePad_bounds h1 h239
  rw [mppeValue_length lib secret reqAuthenticator h1 h239]
  show 8 + _ ≤ 253
  omega

theorem radiusMsgAddMppeKeys_ok {sendKey recvKey : Bytes} (hs1 : 1 ≤ sendKey.length)
    (hs239 : sendKey.length ≤ 239) (hr1 : 1 ≤ recvKey.length) (hr239 : recvKey.length ≤ 239)
    (random : UInt16) (heap₁ heap₂ : Nat → UInt8) {m : RadiusMsg} {c l a : Bytes}
    {attrs : List (UInt8 × Bytes)} (h : Layout m c l a attrs) :
    ∃ m', radiusMsgAddMppeKeys lib secret reqAuthenticator sendKey recvKey random heap₁ heap₂ m =
        .ok (true, m') ∧
      Layout m' c l a (attrs ++
        [mppeAttr lib secret reqAuthenticator radiusVendorAttrMsMppeSendKey sendKey (random ||| 0x8000),
          mppeAttr lib secret reqAuthenticator radiusVendorAttrMsMppeRecvKey recvKey
            ((random ||| 0x8000) ^^^ 1)]) := by
  have hmalloc : ∀ heap n, (osMalloc heap n).length = n := by
    intro heap n
    unfold osMalloc
    rw [length_map, length_range]
  obtain ⟨b₁, hrun₁⟩ := mppeKeyAttr_run lib secret reqAuthenticator hs1 hs239
    (hmalloc heap₁ (mppeHdrLen + sendKey.length + 16)) radiusVendorAttrMsMppeSendKey (random ||| 0x8000)
  obtain ⟨b₂, hrun₂⟩ := mppeKeyAttr_run lib secret reqAuthenticator hr1 hr239
    (hmalloc heap₂ (mppeHdrLen + recvKey.length + 16)) radiusVendorAttrMsMppeRecvKey
    ((random ||| 0x8000) ^^^ 1)
  obtain ⟨m₁, hadd₁, h₁⟩ := h.addAttr radiusAttrVendorSpecific
    (mppeValue_length_le lib secret reqAuthenticator hs1 hs239 radiusVendorAttrMsMppeSendKey
      (random ||| 0x8000))
  obtain ⟨m₂, hadd₂, h₂⟩ := h₁.addAttr radiusAttrVendorSpecific
    (mppeValue_length_le lib secret reqAuthenticator hr1 hr239 radiusVendorAttrMsMppeRecvKey
      ((random ||| 0x8000) ^^^ 1))
  refine ⟨m₂, ?_, ?_⟩
  · unfold radiusMsgAddMppeKeys
    dsimp only [StateT.run]
    rw [hrun₁]
    show (match radiusMsgAddAttr radiusAttrVendorSpecific _ m with | none => _ | some m => _) = _
    rw [hadd₁]
    dsimp only
    rw [hrun₂]
    show (match radiusMsgAddAttr radiusAttrVendorSpecific _ m₁ with | none => _ | some m => _) = _
    rw [hadd₂]
    rfl
  · rw [mppeAttr_eq, mppeAttr_eq]
    rw [append_assoc] at h₂
    exact h₂

/-- **The keys come back.** They are added within the buffers made for them, and the receiver of the
message finds exactly them: behind other well-formed attributes, and in front of any. -/
theorem ms_mppe_keys_round_trip {sendKey recvKey : Bytes} (hs1 : 1 ≤ sendKey.length)
    (hs239 : sendKey.length ≤ 239) (hr1 : 1 ≤ recvKey.length) (hr239 : recvKey.length ≤ 239)
    (random : UInt16) (heap₁ heap₂ : Nat → UInt8) {m : RadiusMsg} {c l a : Bytes}
    {before : List (UInt8 × Bytes)} (hm : Layout m c l a before) (hbefore : ∀ x ∈ before, OtherAttr x) :
    ∃ m₁, radiusMsgAddMppeKeys lib secret reqAuthenticator sendKey recvKey random heap₁ heap₂ m =
        .ok (true, m₁) ∧
      ∀ (after : List (UInt8 × Bytes)) (m₂ : RadiusMsg) (c' l' a' : Bytes),
        Layout m₂ c' l' a' (m₁.attrs ++ after) →
        radiusMsgGetMsKeys lib secret reqAuthenticator m₂ = ⟨some sendKey, some recvKey⟩ := by
  obtain ⟨m₁, hadd, h₁⟩ := radiusMsgAddMppeKeys_ok lib secret reqAuthenticator hs1 hs239 hr1 hr239
    random heap₁ heap₂ hm
  refine ⟨m₁, hadd, fun after m₂ c' l' a' h₂ => ?_⟩
  have hattrs := h₂.attrs_eq
  rw [h₁.attrs_eq, append_assoc] at hattrs
  exact radiusMsgGetMsKeys_attrs lib secret reqAuthenticator hs1 hs239 hr1 hr239 _ _ hbefore hattrs

end Attributes

def smallMd5Lib : Md5Lib where
  md5 data := List.replicate 16 (UInt8.ofNat (data.foldl (fun s b => s + b.toNat) 0))
  md5_length _ := rfl

/-- Two short keys in a new message, and an attribute of another vendor behind them. -/
theorem ms_mppe_keys_round_trip_small :
    ∃ m₁, radiusMsgAddMppeKeys smallMd5Lib [0x73] ⟨zeros 16, rfl⟩ [1, 2, 3] (zeros 17) 7 (fun _ => 0xff)
        (fun _ => 0xee) (radiusMsgNew 2 9) = .ok (true, m₁) ∧
      ∀ m₂ c l a, Layout m₂ c l a (m₁.attrs ++ [vendorAttr 9 [(16, [5])]]) →
        radiusMsgGetMsKeys smallMd5Lib [0x73] ⟨zeros 16, rfl⟩ m₂ = ⟨some [1, 2, 3], some (zeros 17)⟩ := by
  have hs1 : 1 ≤ List.length [1, 2, (3 : UInt8)] := by decide
  have hs239 : List.length [1, 2, (3 : UInt8)] ≤ 239 := by decide
  have hr1 : 1 ≤ (zeros 17).length := by decide
  have hr239 : (zeros 17).length ≤ 239 := by decide
  obtain ⟨m₁, hadd, hget⟩ := ms_mppe_keys_round_trip smallMd5Lib [0x73] ⟨zeros 16, rfl⟩ hs1 hs239 hr1
    hr239 7 (fun _ => 0xff) (fun _ => 0xee) (layout_new 2 9) fun x hx => absurd hx not_mem_nil
  exact ⟨m₁, hadd, fun m₂ c l a h₂ => hget _ m₂ c l a h₂⟩

end Hostap
