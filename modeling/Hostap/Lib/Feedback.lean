import Hostap.Lib.Octets

/-!
# Encryption with feedback

A text is taken in blocks of `n` octets. Each of them is combined with a block of the key stream, which
a function makes from the block of the ciphertext before it, or for the first one from some starting
value. Since the reader has that ciphertext too, it can make the same key stream.
-/

namespace Feedback

open Octets List

/-- Two texts are combined octet by octet. -/
def xor (a b : Bytes) : Bytes := List.zipWith (· ^^^ ·) a b

variable (f : Bytes → Bytes) (n : Nat)

/-- The ciphertext of `k` blocks. -/
def encrypt : (k : Nat) → (prev plain : Bytes) → Bytes
  | 0, _, _ => []
  | k + 1, prev, plain =>
    xor (plain.take n) (f prev) ++ encrypt k (xor (plain.take n) (f prev)) (plain.drop n)

/-- The text of `k` blocks of ciphertext. -/
def decrypt : (k : Nat) → (prev cipher : Bytes) → Bytes
  | 0, _, _ => []
  | k + 1, prev, cipher => xor (cipher.take n) (f prev) ++ decrypt k (cipher.take n) (cipher.drop n)

theorem xor_length {a b : Bytes} (h : a.length = b.length) : (xor a b).length = a.length := by
  unfold xor
  rw [length_zipWith]
  omega

theorem xor_xor {a b : Bytes} (h : a.length = b.length) : xor (xor a b) b = a := by
  unfold xor
  apply ext_getElem
  · rw [length_zipWith, length_zipWith]
    omega
  · intro i h₁ h₂
    rw [getElem_zipWith, getElem_zipWith, UInt8.xor_assoc, UInt8.xor_self, UInt8.xor_zero]

variable {f n}

theorem encrypt_length (hf : ∀ prev, (f prev).length = n) {k : Nat} (prev : Bytes) {plain : Bytes}
    (hlen : plain.length = n * k) : (encrypt f n k prev plain).length = n * k := by
  induction k generalizing prev plain with
  | zero => rfl
  | succ k ih =>
    have hn : n ≤ plain.length := by
      rw [hlen, Nat.mul_succ]
      omega
    have htake : (plain.take n).length = n := length_take_of_le hn
    unfold encrypt
    rw [length_append, xor_length (htake.trans (hf prev).symm), htake,
      ih _ (by rw [length_drop, hlen, Nat.mul_succ]; omega), Nat.mul_succ]
    omega

/-- **The text comes back.** -/
theorem decrypt_encrypt (hf : ∀ prev, (f prev).length = n) {k : Nat} (prev : Bytes) {plain : Bytes}
    (hlen : plain.length = n * k) : decrypt f n k prev (encrypt f n k prev plain) = plain := by
  induction k generalizing prev plain with
  | zero => exact (eq_nil_of_length_eq_zero hlen).symm
  | succ k ih =>
    have hn : n ≤ plain.length := by
      rw [hlen, Nat.mul_succ]
      omega
    have htake : (plain.take n).length = n := length_take_of_le hn
    have hblock : (plain.take n).length = (f prev).length := htake.trans (hf prev).symm
    have hcipher : (xor (plain.take n) (f prev)).length = n := (xor_length hblock).trans htake
    unfold decrypt encrypt
    rw [take_left' hcipher, drop_left' hcipher, xor_xor hblock,
      ih _ (by rw [length_drop, hlen, Nat.mul_succ]; omega), take_append_drop]

end Feedback
