import Hostap.Lib.BlockCipher

/-!
# AES as its modes use it

What AES computes of a block with a key is a parameter, `Bytes → BlockFn 16`, or `Bytes → BlockPerm 16`
where blocks are also decrypted. A context is the function that belongs to a key, and memory for it is
there, so that `aes_encrypt_init` fails only on the length of the key.

`aesCtrEncrypt` is the counter mode that two of the other modes are built on.
-/

namespace Hostap

open Octets Feedback BlockCipher

/-- The lengths of a key that `rijndaelKeySetupEnc()` knows. -/
def AesKeyLen (key : Bytes) : Prop := key.length = 16 ∨ key.length = 24 ∨ key.length = 32

instance (key : Bytes) : Decidable (AesKeyLen key) := inferInstanceAs (Decidable (_ ∨ _ ∨ _))

/-- `aes_encrypt_init()` and `aes_decrypt_init()`, which differ in what the context does. -/
def aesInit (aes : Bytes → BlockFn 16) (key : Bytes) : Option (BlockFn 16) :=
  if AesKeyLen key then some (aes key) else none

theorem aesInit_eq {aes : Bytes → BlockFn 16} {key : Bytes} (h : AesKeyLen key) :
    aesInit aes key = some (aes key) := if_pos h

/-- `for (i = AES_BLOCK_SIZE - 1; i >= 0; i--) { counter[i]++; if (counter[i]) break; }`, on the octets
from the last one on. -/
def incOctets : Bytes → Bytes
  | [] => []
  | c :: cs => if c + 1 ≠ 0 then (c + 1) :: cs else (c + 1) :: incOctets cs

def incCounter (counter : Bytes) : Bytes := (incOctets counter.reverse).reverse

example : incCounter [7, 0xfe, 0xff] = [7, 0xff, 0] := by decide

/-- The loop of `aes_ctr_encrypt()`, which takes at least one octet in each round. -/
def aesCtrLoop (ctx : BlockFn 16) : (rounds : Nat) → (counter pos : Bytes) → Bytes
  | 0, _, _ => []
  | rounds + 1, counter, pos =>
    if pos.length = 0 then
      []
    else
      xor (pos.take 16) (ctx counter) ++ aesCtrLoop ctx rounds (incCounter counter) (pos.drop 16)

/-- `aes_ctr_encrypt()` -/
def aesCtrEncrypt (aes : Bytes → BlockFn 16) (key nonce data : Bytes) : Option Bytes :=
  match aesInit aes key with
  | none => none
  | some ctx => some (aesCtrLoop ctx data.length nonce data)

variable {key : Bytes}

theorem aesCtrLoop_eq (ctx : BlockFn 16) (rounds : Nat) (counter pos : Bytes) :
    aesCtrLoop ctx rounds counter pos = stream 16 incCounter ctx rounds counter pos := by
  induction rounds generalizing counter pos with
  | zero => rfl
  | succ rounds ih =>
    rw [aesCtrLoop, stream, ih]
    split
    · rename_i hnil
      -- nothing is left, and the rest of the stream is not used
      rw [List.eq_nil_of_length_eq_zero hnil]
      have hdone : stream 16 incCounter ctx rounds (incCounter counter) [] = [] :=
        List.eq_nil_of_length_eq_zero (stream_length incCounter ctx.run_length _ (Nat.zero_le _))
      show [] = xor [] (ctx counter) ++ stream 16 incCounter ctx rounds (incCounter counter) []
      rw [hdone]
      rfl
    · rfl

theorem aesCtrEncrypt_twice (aes : Bytes → BlockFn 16) (hkey : AesKeyLen key) (nonce data : Bytes) :
    ∃ crypt, aesCtrEncrypt aes key nonce data = some crypt ∧ crypt.length = data.length ∧
      aesCtrEncrypt aes key nonce crypt = some data := by
  have hle : data.length ≤ 16 * data.length := by omega
  have hlen := stream_length incCounter (aes key).run_length nonce hle
  refine ⟨stream 16 incCounter (aes key) data.length nonce data, ?_, hlen, ?_⟩
  · rw [aesCtrEncrypt, aesInit_eq hkey]
    show some _ = _
    rw [aesCtrLoop_eq]
  · rw [aesCtrEncrypt, aesInit_eq hkey]
    show some _ = _
    rw [aesCtrLoop_eq, hlen, stream_stream incCounter (aes key).run_length nonce hle]

/-! ## A small cipher -/

/-- The first `n` octets, with zeros behind a shorter text. -/
def blockOf (n : Nat) (b : Bytes) : Bytes := (b ++ zeros n).take n

theorem blockOf_length (n : Nat) (b : Bytes) : (blockOf n b).length = n := by
  unfold blockOf
  rw [List.length_take, List.length_append, zeros_length]
  omega

theorem blockOf_eq {n : Nat} {b : Bytes} (h : b.length = n) : blockOf n b = b := List.take_left' h

theorem xor_blockOf_length (n : Nat) (key b : Bytes) : (xor (blockOf n b) (blockOf n key)).length = n := by
  rw [length_xor, blockOf_length, blockOf_length, Nat.min_self]

def smallFn (n : Nat) (key : Bytes) : BlockFn n :=
  ⟨fun b => xor (blockOf n b) (blockOf n key), xor_blockOf_length n key⟩

theorem smallFn_twice (n : Nat) (key b : Bytes) (hb : b.length = n) : smallFn n key (smallFn n key b) = b := by
  show xor (blockOf n (xor (blockOf n b) (blockOf n key))) (blockOf n key) = b
  rw [blockOf_eq (xor_blockOf_length n key b), blockOf_eq hb,
    xor_xor (hb.trans (blockOf_length n key).symm)]

def smallPerm (n : Nat) (key : Bytes) : BlockPerm n := ⟨smallFn n key, smallFn n key, smallFn_twice n key⟩

end Hostap
