import Hostap.Crypto.Omac1
import Hostap.Lib.Aead

/-!
# SIV and EAX

`aes_siv_encrypt` and `aes_siv_decrypt` (`crypto/aes-siv.c`), and `aes_128_eax_encrypt` and
`aes_128_eax_decrypt` (`crypto/aes-eax.c`). Both are counter mode with a MAC made of several `omac1`
values. In SIV the MAC is of the text and gives the counter, in EAX it is of the ciphertext.

The MACs are computed with vectors of one element, so that no octet outside is read
(`omac1AesVector_single`).
-/

namespace Hostap

open Octets Feedback BlockCipher Aead

/-- `xorend()`, whose length is an `int`. -/
def xorend (a : Bytes) (alen : Int) (b : Bytes) : Bytes :=
  if alen < b.length then
    a
  else
    let off := (alen - b.length).toNat
    a.take off ++ xor (slice a off b.length) b ++ a.drop (off + b.length)

/-- A `size_t` as an `int`. -/
def toInt (n : Nat) : Int := if n % 2 ^ 32 < 2 ^ 31 then n % 2 ^ 32 else (n % 2 ^ 32 : Int) - 2 ^ 32

variable (aes : Bytes → BlockFn 16)

/-- The loop of `aes_s2v()` over all elements but the last one. -/
def aesS2vLoop (key : Bytes) : (elems : List Bytes) → (tmp : Bytes) → Except MacError Bytes
  | [], tmp => .ok tmp
  | elem :: elems, tmp => do
    let tmp2 ← omac1AesVector aes key [elem]
    aesS2vLoop key elems (xor (gfMulx tmp) tmp2)

/-- `aes_s2v()`. The function `dbl()` of this file is `gf_mulx()` under another name, and `pad_block()` is
`padBlock`. -/
def aesS2v (key : Bytes) (elems : List Bytes) : Except MacError Bytes :=
  match elems.getLast? with
  | none => omac1AesVector aes key [zeros 15 ++ [1]]
  | some final => do
    let tmp ← omac1AesVector aes key [zeros 16]
    let tmp ← aesS2vLoop aes key elems.dropLast tmp
    if 16 ≤ final.length then
      omac1AesVector aes key [xorend final (toInt final.length) tmp]
    else
      omac1AesVector aes key [xor (gfMulx tmp) (padBlock final)]

/-- `v[8] &= 0x7f; v[12] &= 0x7f;` -/
def sivCounter (v : Bytes) : Bytes := (v.modify 8 (· &&& 0x7f)).modify 12 (· &&& 0x7f)

/-- The test of the arguments, with at most five elements of associated data. -/
def SivArgs (key : Bytes) (elems : List Bytes) : Prop :=
  elems.length ≤ 5 ∧ (key.length = 32 ∨ key.length = 48 ∨ key.length = 64)

instance (key : Bytes) (elems : List Bytes) : Decidable (SivArgs key elems) :=
  inferInstanceAs (Decidable (_ ∧ _))

/-- `aes_siv_encrypt()`: the synthetic IV and the ciphertext. -/
def aesSivEncrypt (key : Bytes) (elems : List Bytes) (pw : Bytes) : Except MacError Bytes :=
  if SivArgs key elems then do
    let k1 := key.take (key.length / 2)
    let k2 := key.drop (key.length / 2)
    let v ← aesS2v aes k1 (elems ++ [pw])
    match aesCtrEncrypt aes k2 (sivCounter v) pw with
    | none => .error .failed
    | some crypt => .ok (v ++ crypt)
  else
    .error .failed

/-- `aes_siv_decrypt()` -/
def aesSivDecrypt (key : Bytes) (elems : List Bytes) (ivCrypt : Bytes) : Except MacError Bytes :=
  if 16 ≤ ivCrypt.length ∧ SivArgs key elems then do
    let k1 := key.take (key.length / 2)
    let k2 := key.drop (key.length / 2)
    let iv := ivCrypt.take 16
    match aesCtrEncrypt aes k2 (sivCounter iv) (ivCrypt.drop 16) with
    | none => .error .failed
    | some out =>
      let check ← aesS2v aes k1 (elems ++ [out])
      if check = iv then .ok out else .error .failed
  else
    .error .failed

/-- The text in front of which EAX puts a block with the number of the MAC. -/
def eaxInput (number : UInt8) (data : Bytes) : Bytes := zeros 15 ++ [number] ++ data

/-- `aes_128_eax_encrypt()`: the ciphertext and the tag. -/
def aes128EaxEncrypt (key nonce hdr data : Bytes) : Except MacError (Bytes × Bytes) := do
  let nonceMac ← omac1Aes128 aes key (eaxInput 0 nonce)
  let hdrMac ← omac1Aes128 aes key (eaxInput 1 hdr)
  match aesCtrEncrypt aes key nonceMac data with
  | none => .error .failed
  | some crypt =>
    let dataMac ← omac1Aes128 aes key (eaxInput 2 crypt)
    .ok (crypt, xor (xor nonceMac dataMac) hdrMac)

/-- `aes_128_eax_decrypt()` -/
def aes128EaxDecrypt (key nonce hdr : Bytes) (crypt : Bytes × Bytes) : Except MacError Bytes := do
  let nonceMac ← omac1Aes128 aes key (eaxInput 0 nonce)
  let hdrMac ← omac1Aes128 aes key (eaxInput 1 hdr)
  let dataMac ← omac1Aes128 aes key (eaxInput 2 crypt.1)
  if crypt.2 ≠ xor (xor nonceMac dataMac) hdrMac then
    .error .mismatch
  else
    match aesCtrEncrypt aes key nonceMac crypt.1 with
    | none => .error .failed
    | some data => .ok data

variable {aes} {key nonce hdr : Bytes} {elems : List Bytes}

theorem aesS2vLoop_ok (aes : Bytes → BlockFn 16) (hkey : AesKeyLen key) (elems : List Bytes) (tmp : Bytes) :
    ∃ tmp', aesS2vLoop aes key elems tmp = .ok tmp' := by
  induction elems generalizing tmp with
  | nil => exact ⟨tmp, rfl⟩
  | cons elem elems ih =>
    rw [aesS2vLoop, bind_of_ok (omac1AesVector_single hkey elem)]
    exact ih _

theorem aesS2v_ok (aes : Bytes → BlockFn 16) (hkey : AesKeyLen key) (elems : List Bytes) :
    ∃ v, aesS2v aes key elems = .ok v ∧ v.length = 16 := by
  unfold aesS2v
  cases elems.getLast? with
  | none => exact ⟨_, omac1AesVector_single hkey _, cmac_length _⟩
  | some final =>
    obtain ⟨tmp, htmp⟩ := aesS2vLoop_ok aes hkey elems.dropLast (cmac (aes key) (zeros 16))
    simp only []
    rw [bind_of_ok (omac1AesVector_single hkey _), bind_of_ok htmp]
    split
    · exact ⟨_, omac1AesVector_single hkey _, cmac_length _⟩
    · exact ⟨_, omac1AesVector_single hkey _, cmac_length _⟩

theorem SivArgs.keys (h : SivArgs key elems) :
    AesKeyLen (key.take (key.length / 2)) ∧ AesKeyLen (key.drop (key.length / 2)) := by
  obtain ⟨-, h⟩ := h
  unfold AesKeyLen
  rw [List.length_take, List.length_drop]
  omega

theorem aesSiv_roundTrips (hargs : SivArgs key elems) :
    RoundTrips (fun _ => True) (fun _ => True) (fun pw => (aesSivEncrypt aes key elems pw).toOption)
      (fun ivCrypt => (aesSivDecrypt aes key elems ivCrypt).toOption) := by
  obtain ⟨hk1, hk2⟩ := hargs.keys
  constructor
  · intro pw _
    obtain ⟨v, hv, hlen⟩ := aesS2v_ok aes hk1 (elems ++ [pw])
    obtain ⟨crypt, hcrypt, -, hback⟩ := aesCtrEncrypt_twice aes hk2 (sivCounter v) pw
    have henc : aesSivEncrypt aes key elems pw = .ok (v ++ crypt) := by
      rw [aesSivEncrypt, if_pos hargs]
      simp only []
      rw [bind_of_ok hv, hcrypt]
    refine ⟨v ++ crypt, congrArg Except.toOption henc, ?_⟩
    have hsize : 16 ≤ (v ++ crypt).length ∧ SivArgs key elems := by
      refine ⟨?_, hargs⟩
      rw [List.length_append]
      omega
    have hdec : aesSivDecrypt aes key elems (v ++ crypt) = .ok pw := by
      rw [aesSivDecrypt, if_pos hsize]
      simp only []
      rw [List.take_left' hlen, List.drop_left' hlen, hback]
      simp only []
      rw [bind_of_ok hv, if_pos rfl]
    exact congrArg Except.toOption hdec
  · intro ivCrypt pw _ h
    have h : (aesSivDecrypt aes key elems ivCrypt).toOption = some pw := h
    cases hdec : aesSivDecrypt aes key elems ivCrypt with
    | error e =>
      rw [hdec] at h
      cases h
    | ok out =>
      rw [hdec] at h
      cases h
      unfold aesSivDecrypt at hdec
      split at hdec
      · obtain ⟨v, hv, hlen⟩ := aesS2v_ok aes hk1 (elems ++ [pw])
        obtain ⟨out, hout, -, hback⟩ := aesCtrEncrypt_twice aes hk2
          (sivCounter (ivCrypt.take 16)) (ivCrypt.drop 16)
        simp only [] at hdec
        rw [hout] at hdec
        obtain ⟨check, hcheck, hdec⟩ := except_bind_ok hdec
        split at hdec
        · rename_i hmatch
          cases hdec
          subst hmatch
          show (aesSivEncrypt aes key elems pw).toOption = _
          rw [aesSivEncrypt, if_pos hargs]
          simp only []
          rw [bind_of_ok hcheck, hback]
          show some (ivCrypt.take 16 ++ ivCrypt.drop 16) = _
          rw [List.take_append_drop]
        · cases hdec
      · cases hdec

theorem aes128Eax_roundTrips (hkey : AesKeyLen key) :
    RoundTrips (fun _ => True) (fun crypt => crypt.2.length = 16)
      (fun data => (aes128EaxEncrypt aes key nonce hdr data).toOption)
      (fun crypt => (aes128EaxDecrypt aes key nonce hdr crypt).toOption) := by
  have hmac : ∀ data, omac1Aes128 aes key data = .ok (cmac (aes key) data) :=
    fun data => omac1AesVector_single hkey data
  constructor
  · intro data _
    obtain ⟨crypt, hcrypt, -, hback⟩ := aesCtrEncrypt_twice aes hkey
      (cmac (aes key) (eaxInput 0 nonce)) data
    refine ⟨(crypt, xor (xor (cmac (aes key) (eaxInput 0 nonce)) (cmac (aes key) (eaxInput 2 crypt)))
      (cmac (aes key) (eaxInput 1 hdr))), ?_, ?_⟩
    · show (aes128EaxEncrypt aes key nonce hdr data).toOption = _
      rw [aes128EaxEncrypt, bind_of_ok (hmac _), bind_of_ok (hmac _), hcrypt]
      simp only []
      rw [bind_of_ok (hmac _)]
      rfl
    · show (aes128EaxDecrypt aes key nonce hdr _).toOption = _
      rw [aes128EaxDecrypt, bind_of_ok (hmac _), bind_of_ok (hmac _), bind_of_ok (hmac _),
        if_neg (fun hne => hne rfl), hback]
      rfl
  · rintro ⟨crypt, tag⟩ data - h
    obtain ⟨out, hout, -, hback⟩ := aesCtrEncrypt_twice aes hkey
      (cmac (aes key) (eaxInput 0 nonce)) crypt
    have h : (aes128EaxDecrypt aes key nonce hdr (crypt, tag)).toOption = some data := h
    rw [aes128EaxDecrypt, bind_of_ok (hmac _), bind_of_ok (hmac _), bind_of_ok (hmac _)] at h
    split at h
    · cases h
    · rename_i htag
      rw [hout] at h
      obtain rfl : out = data := Option.some.inj h
      show (aes128EaxEncrypt aes key nonce hdr out).toOption = _
      rw [aes128EaxEncrypt, bind_of_ok (hmac _), bind_of_ok (hmac _), hback]
      simp only []
      rw [bind_of_ok (hmac _)]
      show some (crypt, _) = _
      rw [← Decidable.not_not.1 htag]

end Hostap
