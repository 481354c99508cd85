import Hostap.Crypto.Aes
import Hostap.Lib.Aead

/-!
# CCM

`aes_ccm_ae` and `aes_ccm_ad` (`crypto/aes-ccm.c`), for a length field of two octets. The last block of the
key stream is written to the output as a whole before it is combined with what is left of the text, so that
`aes_ccm_encr` writes a multiple of sixteen octets; the caller's text are the first of them.
-/

namespace Hostap

open Octets Feedback BlockCipher Aead

/-- The first octet of `B_0`, computed in the 64 bits of a `size_t`. -/
def ccmFlags (m aadLen : Nat) : UInt8 :=
  (if aadLen ≠ 0 then 0x40 else 0) ||| UInt8.ofNat ((2 ^ 64 + m - 2) % 2 ^ 64 / 2 * 8) ||| 1

/-- `aes_ccm_auth_start()` -/
def aesCcmAuthStart (ctx : BlockFn 16) (m : Nat) (nonce aad : Bytes) (plainLen : Nat) : Bytes :=
  let x := ctx (ccmFlags m aad.length :: nonce.take 13 ++ natBe 2 plainLen)
  if aad.length = 0 then
    x
  else
    let aadBuf := natBe 2 aad.length ++ aad ++ zeros (30 - aad.length)
    let x := ctx (xor (aadBuf.take 16) x)
    if 14 < aad.length then ctx (xor (aadBuf.drop 16) x) else x

/-- `aes_ccm_auth()`, with the number of full blocks. -/
def aesCcmAuth (ctx : BlockFn 16) : (blocks : Nat) → (data x : Bytes) → Bytes
  | 0, data, x =>
    if data.length = 0 then x else ctx (xor (x.take data.length) data ++ x.drop data.length)
  | blocks + 1, data, x => aesCcmAuth ctx blocks (data.drop 16) (ctx (xor x (data.take 16)))

/-- The counter block `A_i`. -/
def ccmCounter (nonce : Bytes) (i : Nat) : Bytes := 1 :: nonce.take 13 ++ natBe 2 i

/-- The loop of `aes_ccm_encr()` from block `i` on. What it writes to the output, all of it. -/
def aesCcmEncr (ctx : BlockFn 16) (nonce : Bytes) : (blocks i : Nat) → (input : Bytes) → Bytes
  | 0, i, input =>
    if input.length = 0 then
      []
    else
      let out := ctx (ccmCounter nonce i)
      xor (out.take input.length) input ++ out.drop input.length
  | blocks + 1, i, input =>
    xor (ctx (ccmCounter nonce i)) (input.take 16) ++ aesCcmEncr ctx nonce blocks (i + 1) (input.drop 16)

/-- `aes_ccm_encr_auth()` and `aes_ccm_decr_auth()` -/
def aesCcmMask (ctx : BlockFn 16) (m : Nat) (nonce x : Bytes) : Bytes :=
  xor (x.take m) ((ctx (ccmCounter nonce 0)).take m)

variable (aes : Bytes → BlockFn 16) (key nonce : Bytes) (m : Nat) (aad : Bytes)

/-- `aes_ccm_ae()`: the ciphertext and the tag of `m` octets. -/
def aesCcmAe (plain : Bytes) : Option (Bytes × Bytes) :=
  if 30 < aad.length ∨ 16 < m then
    none
  else
    match aesInit aes key with
    | none => none
    | some ctx =>
      let x := aesCcmAuth ctx (plain.length / 16) plain (aesCcmAuthStart ctx m nonce aad plain.length)
      some ((aesCcmEncr ctx nonce (plain.length / 16) 1 plain).take plain.length, aesCcmMask ctx m nonce x)

/-- `aes_ccm_ad()`, on the ciphertext and the tag. -/
def aesCcmAd (crypt : Bytes × Bytes) : Option Bytes :=
  if 30 < aad.length ∨ 16 < m then
    none
  else
    match aesInit aes key with
    | none => none
    | some ctx =>
      let t := aesCcmMask ctx m nonce crypt.2
      let plain := (aesCcmEncr ctx nonce (crypt.1.length / 16) 1 crypt.1).take crypt.1.length
      let x := aesCcmAuth ctx (crypt.1.length / 16) plain
        (aesCcmAuthStart ctx m nonce aad crypt.1.length)
      if x.take m ≠ t then none else some plain

variable {aes key nonce m aad}

theorem aesCcmEncr_eq (ctx : BlockFn 16) (nonce input : Bytes) :
    (aesCcmEncr ctx nonce (input.length / 16) 1 input).take input.length =
      stream 16 (· + 1) (fun i => ctx (ccmCounter nonce i)) (input.length / 16 + 1) 1 input := by
  apply stream_of_loop (f := aesCcmEncr ctx nonce) (fun i => ctx.run_length _) _ _ 1 rfl
  · intro i data hshort
    rw [aesCcmEncr]
    by_cases hnil : data.length = 0
    · rw [List.eq_nil_of_length_eq_zero hnil]
      rfl
    · have hfront : (xor ((ctx (ccmCounter nonce i)).take data.length) data).length = data.length := by
        rw [length_xor, List.length_take, ctx.run_length]
        omega
      rw [if_neg hnil]
      show (xor _ data ++ _).take data.length = _
      rw [List.take_left' hfront, xor_take_left, xor_swap]
  · intro k i data
    rw [aesCcmEncr, xor_swap]

theorem aesCcmMask_twice (ctx : BlockFn 16) (nonce : Bytes) (hm : m ≤ 16) {x : Bytes} (hx : m ≤ x.length) :
    aesCcmMask ctx m nonce (aesCcmMask ctx m nonce x) = x.take m := by
  have hmask : (aesCcmMask ctx m nonce x).length = m := by
    unfold aesCcmMask
    rw [length_xor, List.length_take, List.length_take, ctx.run_length]
    omega
  show xor ((aesCcmMask ctx m nonce x).take m) _ = _
  rw [List.take_of_length_le hmask.le]
  exact xor_xor_of_le (by rw [List.length_take, List.length_take, ctx.run_length]; omega)

theorem aesCcmAuth_length (ctx : BlockFn 16) (blocks : Nat) (data : Bytes) {x : Bytes}
    (hx : x.length = 16) : (aesCcmAuth ctx blocks data x).length = 16 := by
  induction blocks generalizing data x with
  | zero =>
    rw [aesCcmAuth]
    split
    · exact hx
    · exact ctx.run_length _
  | succ blocks ih => exact ih _ (ctx.run_length _)

theorem aesCcmAuthStart_length (ctx : BlockFn 16) (m : Nat) (nonce aad : Bytes) (plainLen : Nat) :
    (aesCcmAuthStart ctx m nonce aad plainLen).length = 16 := by
  unfold aesCcmAuthStart
  simp only []
  split
  · exact ctx.run_length _
  · split
    · exact ctx.run_length _
    · exact ctx.run_length _

theorem aesCcm_roundTrips (hkey : AesKeyLen key) (haad : aad.length ≤ 30) (hm : m ≤ 16) :
    RoundTrips (fun _ => True) (fun crypt => crypt.2.length = m) (aesCcmAe aes key nonce m aad)
      (aesCcmAd aes key nonce m aad) := by
  have hlimits : ¬ (30 < aad.length ∨ 16 < m) := by omega
  constructor
  · intro plain _
    have hlen := stream_length (· + 1) (fun i => (aes key).run_length (ccmCounter nonce i)) 1
      (length_le_blocks plain)
    have hback := stream_stream (· + 1) (fun i => (aes key).run_length (ccmCounter nonce i)) 1
      (length_le_blocks plain)
    have hx := aesCcmAuth_length (aes key) (plain.length / 16) plain
      (aesCcmAuthStart_length (aes key) m nonce aad plain.length)
    refine ⟨_, by rw [aesCcmAe, if_neg hlimits, aesInit_eq hkey], ?_⟩
    rw [aesCcmAd, if_neg hlimits, aesInit_eq hkey]
    simp only []
    rw [aesCcmEncr_eq, aesCcmEncr_eq, hlen, hback, aesCcmMask_twice (aes key) nonce hm (by omega),
      if_neg (fun hne => hne rfl)]
  · rintro ⟨crypt, auth⟩ plain hauth h
    have hauth : auth.length = m := hauth
    rw [aesCcmAd, if_neg hlimits, aesInit_eq hkey] at h
    simp only [] at h
    split at h
    · cases h
    · rename_i hmac
      obtain rfl := Option.some.inj h
      have hmac := Decidable.not_not.1 hmac
      have hlen := stream_length (· + 1) (fun i => (aes key).run_length (ccmCounter nonce i)) 1
        (length_le_blocks crypt)
      have hback := stream_stream (· + 1) (fun i => (aes key).run_length (ccmCounter nonce i)) 1
        (length_le_blocks crypt)
      rw [aesCcmEncr_eq] at hmac ⊢
      rw [aesCcmAe, if_neg hlimits, aesInit_eq hkey]
      simp only []
      rw [aesCcmEncr_eq, hlen, hback]
      -- the tag is the masked MAC
      have htag : aesCcmMask (aes key) m nonce
          (aesCcmAuth (aes key) (crypt.length / 16)
            (stream 16 (· + 1) (fun i => aes key (ccmCounter nonce i)) (crypt.length / 16 + 1) 1 crypt)
            (aesCcmAuthStart (aes key) m nonce aad crypt.length)) = auth := by
        have htwice := aesCcmMask_twice (aes key) nonce hm hauth.ge
        rw [List.take_of_length_le hauth.le] at htwice
        rw [← hmac] at htwice
        conv => rhs; rw [← htwice]
        unfold aesCcmMask
        rw [List.take_take, Nat.min_self]
      rw [htag]

end Hostap
