import Hostap.Lib.Cmac

/-!
# Authenticated encryption

`RoundTrips` is what two functions that encrypt and decrypt owe one another: what was encrypted is
decrypted to the same text, and what decryption accepts is what encryption makes of the text it returns.
The functions may fail, and the text and the ciphertext are those of the sizes the functions are for.
-/

namespace Aead

open Octets Feedback BlockCipher

/-- Encryption `ae` and decryption `ad` of texts with `P` and ciphertexts with `C`. -/
def RoundTrips {γ : Type} (P : Bytes → Prop) (C : γ → Prop) (ae : Bytes → Option γ) (ad : γ → Option Bytes) :
    Prop :=
  (∀ plain, P plain → ∃ crypt, ae plain = some crypt ∧ ad crypt = some plain) ∧
    ∀ crypt plain, C crypt → ad crypt = some plain → ae plain = some crypt

theorem length_le_blocks (data : Bytes) : data.length ≤ 16 * (data.length / 16 + 1) := by omega

section Tail

variable {σ : Type} {next : σ → σ} {out : σ → Bytes} {f : Nat → σ → Bytes → Bytes}

/-- A loop over full blocks that combines a rest with the front of one more block is a stream, for as many
octets as the text has. -/
theorem stream_of_loop (hout : ∀ s, (out s).length = 16)
    (hlast : ∀ s data, data.length < 16 → (f 0 s data).take data.length = xor data (out s))
    (hstep : ∀ k s data, f (k + 1) s data = xor (data.take 16) (out s) ++ f k (next s) (data.drop 16))
    {k : Nat} (s : σ) {data : Bytes} (hk : k = data.length / 16) :
    (f k s data).take data.length = stream 16 next out (k + 1) s data := by
  induction k generalizing s data with
  | zero =>
    have hshort : data.length < 16 := by omega
    rw [hlast s data hshort, stream, stream, List.append_nil, List.take_of_length_le hshort.le]
  | succ k ih =>
    have hblock : (xor (data.take 16) (out s)).length = 16 := by
      rw [length_xor, List.length_take, hout]
      omega
    have hrest : (data.drop 16).length = data.length - 16 := List.length_drop
    have hsplit : data.length = (xor (data.take 16) (out s)).length + (data.drop 16).length := by omega
    have hih := @ih (next s) (data.drop 16) (by rw [hrest]; omega)
    rw [hstep, stream, hsplit, List.take_length_add_append, hih]

end Tail

end Aead
