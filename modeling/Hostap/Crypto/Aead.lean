import Hostap.Crypto.Ccm
import Hostap.Crypto.Gcm
import Hostap.Crypto.SivEax

/-!
# The four modes with authentication

CCM, GCM, SIV and EAX as they are used: a text of any length that was encrypted is decrypted to itself, and
a ciphertext that is accepted is the one encryption makes of the text that is returned. Of the cipher only
the function from blocks to blocks is used, in one direction.
-/

namespace Hostap

open Octets BlockCipher Aead

/-- **Authenticated encryption.** -/
theorem aead_roundTrips (aes : Bytes → BlockFn 16) :
    (∀ key nonce m aad, AesKeyLen key → aad.length ≤ 30 → m ≤ 16 →
      RoundTrips (fun _ => True) (fun crypt => crypt.2.length = m) (aesCcmAe aes key nonce m aad)
        (aesCcmAd aes key nonce m aad)) ∧
    (∀ key iv aad, AesKeyLen key →
      RoundTrips (fun _ => True) (fun crypt => crypt.2.length = 16) (aesGcmAe aes key iv aad)
        (aesGcmAd aes key iv aad)) ∧
    (∀ key elems, SivArgs key elems →
      RoundTrips (fun _ => True) (fun _ => True) (fun pw => (aesSivEncrypt aes key elems pw).toOption)
        (fun ivCrypt => (aesSivDecrypt aes key elems ivCrypt).toOption)) ∧
    (∀ key nonce hdr, key.length = 16 →
      RoundTrips (fun _ => True) (fun crypt => crypt.2.length = 16)
        (fun data => (aes128EaxEncrypt aes key nonce hdr data).toOption)
        (fun crypt => (aes128EaxDecrypt aes key nonce hdr crypt).toOption)) := by
  refine ⟨?_, ?_, ?_, ?_⟩
  · intro key nonce m aad hkey haad hm
    exact aesCcm_roundTrips hkey haad hm
  · intro key iv aad hkey
    exact aesGcm_roundTrips hkey
  · intro key elems hargs
    exact aesSiv_roundTrips hargs
  · intro key nonce hdr hkey
    exact aes128Eax_roundTrips (.inl hkey)

/-- A text of three octets in each of the modes. -/
theorem aead_roundTrips_small :
    (∃ crypt, aesCcmAe (smallFn 16) (zeros 16) (zeros 13) 8 [5] [1, 2, 3] = some crypt ∧
      aesCcmAd (smallFn 16) (zeros 16) (zeros 13) 8 [5] crypt = some [1, 2, 3]) ∧
    (∃ crypt, aesGcmAe (smallFn 16) (zeros 16) (zeros 12) [5] [1, 2, 3] = some crypt ∧
      aesGcmAd (smallFn 16) (zeros 16) (zeros 12) [5] crypt = some [1, 2, 3]) ∧
    (∃ crypt, (aesSivEncrypt (smallFn 16) (zeros 32) [[5]] [1, 2, 3]).toOption = some crypt ∧
      (aesSivDecrypt (smallFn 16) (zeros 32) [[5]] crypt).toOption = some [1, 2, 3]) ∧
    (∃ crypt, (aes128EaxEncrypt (smallFn 16) (zeros 16) [7] [5] [1, 2, 3]).toOption = some crypt ∧
      (aes128EaxDecrypt (smallFn 16) (zeros 16) [7] [5] crypt).toOption = some [1, 2, 3]) := by
  obtain ⟨hccm, hgcm, hsiv, heax⟩ := aead_roundTrips (smallFn 16)
  refine ⟨?_, ?_, ?_, ?_⟩
  · exact (hccm (zeros 16) (zeros 13) 8 [5] (by decide) (by decide) (by decide)).1 [1, 2, 3] trivial
  · exact (hgcm (zeros 16) (zeros 12) [5] (by decide)).1 [1, 2, 3] trivial
  · exact (hsiv (zeros 32) [[5]] (by decide)).1 [1, 2, 3] trivial
  · exact (heax (zeros 16) [7] [5] (by decide)).1 [1, 2, 3] trivial

end Hostap
