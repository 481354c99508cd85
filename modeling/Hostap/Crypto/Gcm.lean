import Hostap.Crypto.Aes
import Hostap.Lib.Aead

/-!
# GCM

`aes_gcm_ae` and `aes_gcm_ad` (`crypto/aes-gcm.c`). The hash multiplies in the field of `2 ^ 128` elements
bit by bit, on blocks whose words are read and written most significant octet first.
-/

namespace Hostap

open Octets Feedback BlockCipher Aead

/-- `WPA_GET_BE32()` -/
def getBe32At (block : Bytes) (off : Nat) : UInt32 := UInt32.ofNat (beNat (slice block off 4))

/-- `WPA_PUT_BE32()` -/
def be32 (val : UInt32) : Bytes := natBe 4 val.toNat

/-- `inc32()` -/
def inc32 (block : Bytes) : Bytes := block.take 12 ++ be32 (getBe32At block 12 + 1)

/-- One of the words `shift_right_block()` shifts, with the last bit of the octet in front of it. -/
def shiftRightWord (v : Bytes) (off : Nat) : Bytes :=
  be32 ((getBe32At v off >>> 1) |||
    if 0 < off ∧ v.getD (off - 1) 0 &&& 0x01 ≠ 0 then 0x80000000 else 0)

/-- `shift_right_block()`. The words are shifted from the last one to the first one, so that each of them
is shifted before the octet in front of it changes. -/
def shiftRightBlock (v : Bytes) : Bytes :=
  shiftRightWord v 0 ++ shiftRightWord v 4 ++ shiftRightWord v 8 ++ shiftRightWord v 12

/-- The body of the loops of `gf_mult()`, on `z` and `v`, for the bit of `x`. -/
def gfMultStep (zv : Bytes × Bytes) (bit : Bool) : Bytes × Bytes :=
  (if bit then xor zv.1 zv.2 else zv.1,
    if zv.2.getD 15 0 &&& 0x01 ≠ 0 then
      (shiftRightBlock zv.2).modify 0 (· ^^^ 0xe1)
    else
      shiftRightBlock zv.2)

/-- The bits of a block in the order of `gf_mult()`. -/
def gfBits (x : Bytes) : List Bool :=
  x.flatMap fun octet => (List.range 8).map fun j => octet &&& UInt8.ofNat (2 ^ (7 - j)) ≠ 0

/-- `gf_mult()` -/
def gfMult (x y : Bytes) : Bytes := ((gfBits x).foldl gfMultStep (zeros 16, y)).1

/-- `ghash()`, with the number of full blocks, on the value so far. -/
def ghash (h : Bytes) : (blocks : Nat) → (x y : Bytes) → Bytes
  | 0, x, y =>
    if x.length = 0 then y else gfMult (xor y (x ++ zeros (16 - x.length))) h
  | blocks + 1, x, y => ghash h blocks (x.drop 16) (gfMult (xor y (x.take 16)) h)

/-- `aes_gctr()`, with the number of full blocks. -/
def aesGctr (ctx : BlockFn 16) : (blocks : Nat) → (cb x : Bytes) → Bytes
  | 0, cb, x => if x.length = 0 then [] else xor x (ctx cb)
  | blocks + 1, cb, x => xor (ctx cb) (x.take 16) ++ aesGctr ctx blocks (inc32 cb) (x.drop 16)

/-- A length in bits, in the 64 bits of a `size_t`. -/
def bitLength (len : Nat) : Bytes := natBe 8 (len * 8 % 2 ^ 64)

/-- `aes_gcm_prepare_j0()` -/
def aesGcmPrepareJ0 (iv h : Bytes) : Bytes :=
  if iv.length = 12 then
    iv ++ [0, 0, 0, 1]
  else
    ghash h 1 (zeros 8 ++ bitLength iv.length) (ghash h (iv.length / 16) iv (zeros 16))

/-- `aes_gcm_gctr()` -/
def aesGcmGctr (ctx : BlockFn 16) (j0 input : Bytes) : Bytes :=
  if input.length = 0 then [] else aesGctr ctx (input.length / 16) (inc32 j0) input

/-- `aes_gcm_ghash()` -/
def aesGcmGhash (h aad crypt : Bytes) : Bytes :=
  let s := ghash h (aad.length / 16) aad (zeros 16)
  let s := ghash h (crypt.length / 16) crypt s
  ghash h 1 (bitLength aad.length ++ bitLength crypt.length) s

variable (aes : Bytes → BlockFn 16) (key iv aad : Bytes)

/-- `aes_gcm_ae()`: the ciphertext and the tag. -/
def aesGcmAe (plain : Bytes) : Option (Bytes × Bytes) :=
  match aesInit aes key with
  | none => none
  | some ctx =>
    let h := ctx (zeros 16)
    let j0 := aesGcmPrepareJ0 iv h
    let crypt := aesGcmGctr ctx j0 plain
    let s := aesGcmGhash h aad crypt
    some (crypt, aesGctr ctx (s.length / 16) j0 s)

/-- `aes_gcm_ad()`, on the ciphertext and the tag. -/
def aesGcmAd (crypt : Bytes × Bytes) : Option Bytes :=
  match aesInit aes key with
  | none => none
  | some ctx =>
    let h := ctx (zeros 16)
    let j0 := aesGcmPrepareJ0 iv h
    let plain := aesGcmGctr ctx j0 crypt.1
    let s := aesGcmGhash h aad crypt.1
    if crypt.2 ≠ aesGctr ctx (s.length / 16) j0 s then none else some plain

variable {aes key iv aad}

theorem aesGctr_eq (ctx : BlockFn 16) (cb x : Bytes) :
    aesGctr ctx (x.length / 16) cb x = stream 16 inc32 ctx (x.length / 16 + 1) cb x := by
  have hlen : ∀ (blocks : Nat) (cb x : Bytes), blocks = x.length / 16 →
      (aesGctr ctx blocks cb x).length = x.length := by
    intro blocks
    induction blocks with
    | zero =>
      intro cb x hx
      rw [aesGctr]
      split
      · rename_i hnil
        exact hnil.symm
      · rw [length_xor, ctx.run_length]
        omega
    | succ blocks ih =>
      intro cb x hx
      have hrest : (x.drop 16).length = x.length - 16 := List.length_drop
      rw [aesGctr, List.length_append, length_xor, ctx.run_length, List.length_take,
        ih _ _ (by rw [hrest]; omega), hrest]
      omega
  rw [← stream_of_loop (f := aesGctr ctx) ctx.run_length _ _ cb rfl,
    List.take_of_length_le (hlen _ _ _ rfl).le]
  · intro s data hshort
    rw [List.take_of_length_le (hlen 0 s data (by omega)).le, aesGctr]
    split
    · rename_i hnil
      rw [List.eq_nil_of_length_eq_zero hnil]
      rfl
    · rfl
  · intro k s data
    rw [aesGctr, xor_swap]

theorem aesGcmGctr_twice (ctx : BlockFn 16) (j0 input : Bytes) :
    aesGcmGctr ctx j0 (aesGcmGctr ctx j0 input) = input := by
  have hlen := stream_length inc32 ctx.run_length (inc32 j0) (length_le_blocks input)
  unfold aesGcmGctr
  by_cases hnil : input.length = 0
  · rw [if_pos hnil]
    exact (List.eq_nil_of_length_eq_zero hnil).symm
  · rw [if_neg hnil, aesGctr_eq, if_neg (by rw [hlen]; exact hnil), aesGctr_eq, hlen,
      stream_stream inc32 ctx.run_length _ (length_le_blocks input)]

theorem aesGcm_roundTrips (hkey : AesKeyLen key) :
    RoundTrips (fun _ => True) (fun crypt => crypt.2.length = 16) (aesGcmAe aes key iv aad)
      (aesGcmAd aes key iv aad) := by
  constructor
  · intro plain _
    refine ⟨_, by rw [aesGcmAe, aesInit_eq hkey], ?_⟩
    rw [aesGcmAd, aesInit_eq hkey]
    simp only []
    rw [if_neg (fun hne => hne rfl), aesGcmGctr_twice]
  · rintro ⟨crypt, tag⟩ plain - h
    rw [aesGcmAd, aesInit_eq hkey] at h
    simp only [] at h
    split at h
    · cases h
    · rename_i htag
      obtain rfl := Option.some.inj h
      rw [aesGcmAe, aesInit_eq hkey]
      simp only []
      rw [aesGcmGctr_twice, ← Decidable.not_not.1 htag]

end Hostap
