import Hostap.Crypto.Aes
import Hostap.Crypto.Rc4
import Hostap.Lib.Calls
import Hostap.Lib.Cmac

/-!
# Cipher contexts

`crypto_cipher_init`, `crypto_cipher_encrypt` and `crypto_cipher_decrypt`
(`crypto/crypto_internal-cipher.c`). The context is a union with a member for each algorithm. What AES, 3DES
and DES compute of a block with a key is a parameter.

The loops of AES and 3DES are the same (`cbcEncrypt`, `cbcDecrypt`). The one that encrypts with DES combines
the text with the chaining value of another member of the union, `des3.cbc`. That one lies behind two key
schedules of `3 * 32` words, so behind all of the member `des`, and nothing of the text gets into the
ciphertext.
-/

namespace Hostap

open Octets Feedback BlockCipher Calls List

/-- `enum crypto_cipher_alg` -/
inductive CryptoCipherAlg
  | null
  | aes
  | des3
  | des
  | rc2
  | rc4
  deriving DecidableEq, Repr

/-- What the block ciphers compute, by key. -/
structure BlockCiphers where
  aes : Bytes → BlockPerm 16
  des3 : Bytes → BlockPerm 8
  des : Bytes → BlockPerm 8

/-- `struct crypto_cipher`. With DES the octets of the union at `des3.cbc` are kept too, which lie behind
those of `des`. -/
inductive CryptoCipher
  | rc4 (usedBytes : Nat) (key : Bytes) (keylen : Nat)
  | aes (cbc : Bytes) (ctxEnc ctxDec : BlockFn 16)
  | des3 (key : BlockPerm 8) (cbc : Bytes)
  | des (ek dk : BlockFn 8) (cbc des3Cbc : Bytes)

/-- How a call ends without a result. -/
inductive CipherError
  /-- It returns `-1`. -/
  | failed
  /-- A loop of `rc4_skip()` does not end. -/
  | endless
  deriving DecidableEq, Repr

/-- `crypto_cipher_init()` -/
def cryptoCipherInit (lib : BlockCiphers) (alg : CryptoCipherAlg) (iv key : Bytes) : Option CryptoCipher :=
  match alg with
  | .rc4 =>
    if 16 < key.length then none else some (.rc4 0 (key ++ zeros (16 - key.length)) key.length)
  | .aes =>
    match aesInit (fun key => (lib.aes key).encrypt) key, aesInit (fun key => (lib.aes key).decrypt) key with
    | some ctxEnc, some ctxDec => some (.aes (iv.take 16) ctxEnc ctxDec)
    | _, _ => none
  | .des3 => if key.length ≠ 24 then none else some (.des3 (lib.des3 key) (iv.take 8))
  | .des =>
    if key.length ≠ 8 then
      none
    else
      some (.des (lib.des key).encrypt (lib.des key).decrypt (iv.take 8) (zeros 8))
  | _ => none

/-- The loop of `crypto_cipher_encrypt()` for DES: the ciphertext, `des.cbc` and `des3.cbc`. -/
def desEncryptBlocks (ek : Bytes → Bytes) : (blocks : Nat) → (cbc des3Cbc plain : Bytes) → Bytes × Bytes × Bytes
  | 0, cbc, des3Cbc, _ => ([], cbc, des3Cbc)
  | blocks + 1, cbc, des3Cbc, plain =>
    -- `ctx->u.des3.cbc[j] ^= plain[j]`
    let r := desEncryptBlocks ek blocks (ek cbc) (xor des3Cbc (plain.take 8)) (plain.drop 8)
    (ek cbc ++ r.1, r.2)

/-- `crypto_cipher_encrypt()` -/
def cryptoCipherEncrypt (ctx : CryptoCipher) (plain : Bytes) : Except CipherError (Bytes × CryptoCipher) :=
  match ctx with
  | .rc4 usedBytes key keylen =>
    match rc4Skip key keylen usedBytes plain with
    | none => .error .endless
    | some crypt => .ok (crypt, .rc4 (usedBytes + plain.length) key keylen)
  | .aes cbc ctxEnc ctxDec =>
    if plain.length % 16 ≠ 0 then
      .error .failed
    else
      let r := cbcEncrypt ctxEnc 16 (plain.length / 16) cbc plain
      .ok (r.1, .aes r.2 ctxEnc ctxDec)
  | .des3 key cbc =>
    if plain.length % 8 ≠ 0 then
      .error .failed
    else
      let r := cbcEncrypt key.encrypt 8 (plain.length / 8) cbc plain
      .ok (r.1, .des3 key r.2)
  | .des ek dk cbc des3Cbc =>
    if plain.length % 8 ≠ 0 then
      .error .failed
    else
      let r := desEncryptBlocks ek (plain.length / 8) cbc des3Cbc plain
      .ok (r.1, .des ek dk r.2.1 r.2.2)

/-- `crypto_cipher_decrypt()` -/
def cryptoCipherDecrypt (ctx : CryptoCipher) (crypt : Bytes) : Except CipherError (Bytes × CryptoCipher) :=
  match ctx with
  | .rc4 usedBytes key keylen =>
    match rc4Skip key keylen usedBytes crypt with
    | none => .error .endless
    | some plain => .ok (plain, .rc4 (usedBytes + crypt.length) key keylen)
  | .aes cbc ctxEnc ctxDec =>
    if crypt.length % 16 ≠ 0 then
      .error .failed
    else
      let r := cbcDecrypt ctxDec 16 (crypt.length / 16) cbc crypt
      .ok (r.1, .aes r.2 ctxEnc ctxDec)
  | .des3 key cbc =>
    if crypt.length % 8 ≠ 0 then
      .error .failed
    else
      let r := cbcDecrypt key.decrypt 8 (crypt.length / 8) cbc crypt
      .ok (r.1, .des3 key r.2)
  | .des ek dk cbc des3Cbc =>
    if crypt.length % 8 ≠ 0 then
      .error .failed
    else
      let r := cbcDecrypt dk 8 (crypt.length / 8) cbc crypt
      .ok (r.1, .des ek dk r.2 des3Cbc)

/-! ## What encryption and decryption owe one another -/

/-- The block size of an algorithm, one octet for a stream cipher. -/
def CryptoCipherAlg.blockSize : CryptoCipherAlg → Nat
  | .aes => 16
  | .des3 => 8
  | .des => 8
  | _ => 1

def BlockCiphers.encryptBlock (lib : BlockCiphers) (key : Bytes) : CryptoCipherAlg → Bytes → Bytes
  | .aes => (lib.aes key).encrypt
  | .des3 => (lib.des3 key).encrypt
  | .des => (lib.des key).encrypt
  | _ => id

/-- The messages are encrypted one after the other, and the ciphertext is decrypted in parts of the given
lengths with a context that started like the first one. The text comes back, and the ciphertext of a block
cipher is the one of the textbook. -/
def CipherAgrees (lib : BlockCiphers) (alg : CryptoCipherAlg) (iv key : Bytes) (ctx : CryptoCipher)
    (msgs : List Bytes) (lens : List Nat) : Prop :=
  ∃ crypts plains, calls cryptoCipherEncrypt ctx msgs = .ok crypts ∧
    calls cryptoCipherDecrypt ctx (splitLens lens crypts.flatten) = .ok plains ∧
    plains.flatten = msgs.flatten ∧
    (alg ≠ .rc4 → ∀ blocks : List Bytes, (∀ b ∈ blocks, b.length = alg.blockSize) →
      blocks.flatten = msgs.flatten →
      crypts.flatten = (cbcText (lib.encryptBlock key alg) (iv.take alg.blockSize) blocks).flatten)

/-- Every call of `rc4_skip()` ends. -/
def CallsEnd : (used : Nat) → (lens : List Nat) → Prop
  | _, [] => True
  | used, len :: lens => (used < 2 ^ 32 ∧ len < 2 ^ 32) ∧ CallsEnd (used + len) lens

/-- The condition under which encryption and decryption agree. -/
def CipherAgreesWhen (alg : CryptoCipherAlg) (msgs : List Bytes) (lens : List Nat) : Prop :=
  match alg with
  | .rc4 => CallsEnd 0 (msgs.map List.length) ∧ CallsEnd 0 lens
  | .des => (∀ len ∈ lens, len % 8 = 0) ∧ ∀ octet ∈ msgs.flatten, octet = 0
  | alg => ∀ len ∈ lens, len % alg.blockSize = 0

/-! ## The calls of a block cipher -/

theorem div_append {n : Nat} (hn : 0 < n) {a b : Bytes} (ha : a.length % n = 0) :
    (a ++ b).length / n = a.length / n + b.length / n := by
  have hdiv := Nat.div_add_mod a.length n
  rw [ha, Nat.add_zero] at hdiv
  rw [length_append, ← hdiv, Nat.mul_add_div hn, Nat.mul_div_cancel_left _ hn]

theorem mul_div_of_mod {n : Nat} {a : Bytes} (ha : a.length % n = 0) : a.length = n * (a.length / n) := by
  have hdiv := Nat.div_add_mod a.length n
  omega

theorem flatten_mod {n : Nat} {msgs : List Bytes} (h : ∀ msg ∈ msgs, msg.length % n = 0) :
    msgs.flatten.length % n = 0 := by
  induction msgs with
  | nil => exact Nat.zero_mod n
  | cons msg msgs ih =>
    rw [flatten_cons, length_append, Nat.add_mod, h msg mem_cons_self,
      ih fun m hm => h m (mem_cons_of_mem msg hm), Nat.zero_add, Nat.zero_mod]

section BlockCipher

variable {n : Nat} (hn : 0 < n) {iv : Bytes} {msgs : List Bytes} {lens : List Nat}

include hn

theorem decryptParts_iff (mk : Bytes → CryptoCipher) {g : Bytes → Bytes}
    (hop : ∀ s part, part.length % n = 0 → cryptoCipherDecrypt (mk s) part =
      .ok ((cbcDecrypt g n (part.length / n) s part).1, mk (cbcDecrypt g n (part.length / n) s part).2))
    (hrefuse : ∀ s part, part.length % n ≠ 0 → ∃ e, cryptoCipherDecrypt (mk s) part = .error e)
    (iv plain : Bytes) {crypt : Bytes} (hlens : lens.sum = crypt.length) :
    (∃ plains, calls cryptoCipherDecrypt (mk iv) (splitLens lens crypt) = .ok plains ∧ plains.flatten = plain) ↔
      (∀ len ∈ lens, len % n = 0) ∧ (cbcDecrypt g n (crypt.length / n) iv crypt).1 = plain := by
  have halong : Along (fun s part => cbcDecrypt g n (part.length / n) s part)
      (fun _ part => part.length % n = 0) iv (splitLens lens crypt) ↔ ∀ len ∈ lens, len % n = 0 := by
    have hiff := along_length_iff (fun s part => cbcDecrypt g n (part.length / n) s part)
      (fun len => len % n = 0) iv (splitLens lens crypt)
    rwa [splitLens_map_length hlens] at hiff
  have hwhole : Along (fun s part => cbcDecrypt g n (part.length / n) s part)
      (fun _ part => part.length % n = 0) iv (splitLens lens crypt) →
      ∃ plains, calls cryptoCipherDecrypt (mk iv) (splitLens lens crypt) = .ok plains ∧
        plains.flatten = (cbcDecrypt g n (crypt.length / n) iv crypt).1 := by
    intro hp
    have hcalls := calls_flatten hop (fun s => by rw [length_nil, Nat.zero_div]; rfl)
      (fun s a b ha => by
        rw [div_append hn ha, cbcDecrypt_append s (mul_div_of_mod ha)]) hp
    rwa [splitLens_flatten hlens] at hcalls
  constructor
  · rintro ⟨plains, hplains, hflat⟩
    have hp := along_of_calls hop hrefuse hplains
    obtain ⟨plains', hplains', hflat'⟩ := hwhole hp
    obtain rfl := Except.ok.inj (hplains.symm.trans hplains')
    exact ⟨halong.1 hp, hflat'.symm.trans hflat⟩
  · rintro ⟨hlen, hflat⟩
    obtain ⟨plains, hplains, hflat'⟩ := hwhole (halong.2 hlen)
    exact ⟨plains, hplains, hflat'.trans hflat⟩

theorem cbcEncrypt_textbook {f : Bytes → Bytes} {blocks : List Bytes} {plain : Bytes}
    (hblocks : ∀ b ∈ blocks, b.length = n) (hflat : blocks.flatten = plain) :
    (cbcEncrypt f n (plain.length / n) iv plain).1 = (cbcText f iv blocks).flatten := by
  have hlen : plain.length = n * blocks.length := by
    have hmap : blocks.map List.length = List.replicate blocks.length n := by
      rw [eq_replicate_iff]
      refine ⟨length_map _, fun len hmem => ?_⟩
      obtain ⟨b, hb, rfl⟩ := mem_map.1 hmem
      exact hblocks b hb
    rw [← hflat, length_flatten, hmap, sum_replicate_nat, Nat.mul_comm]
  rw [hlen, Nat.mul_div_cancel_left _ hn, ← hflat, cbcEncrypt_eq_cbcText hblocks]

theorem cbcCalls_iff (p : BlockPerm n) (mk : Bytes → CryptoCipher) (hiv : iv.length = n)
    (henc : ∀ s part, part.length % n = 0 → cryptoCipherEncrypt (mk s) part =
      .ok ((cbcEncrypt p.encrypt n (part.length / n) s part).1,
        mk (cbcEncrypt p.encrypt n (part.length / n) s part).2))
    (hdec : ∀ s part, part.length % n = 0 → cryptoCipherDecrypt (mk s) part =
      .ok ((cbcDecrypt p.decrypt n (part.length / n) s part).1,
        mk (cbcDecrypt p.decrypt n (part.length / n) s part).2))
    (hrefuse : ∀ s part, part.length % n ≠ 0 → ∃ e, cryptoCipherDecrypt (mk s) part = .error e)
    (hmsgs : ∀ msg ∈ msgs, msg.length % n = 0) (hlens : lens.sum = msgs.flatten.length) :
    (∃ crypts plains, calls cryptoCipherEncrypt (mk iv) msgs = .ok crypts ∧
      calls cryptoCipherDecrypt (mk iv) (splitLens lens crypts.flatten) = .ok plains ∧
      plains.flatten = msgs.flatten ∧
      ∀ blocks : List Bytes, (∀ b ∈ blocks, b.length = n) → blocks.flatten = msgs.flatten →
        crypts.flatten = (cbcText p.encrypt iv blocks).flatten) ↔ ∀ len ∈ lens, len % n = 0 := by
  have halong : Along (fun s part => cbcEncrypt p.encrypt n (part.length / n) s part)
      (fun _ part => part.length % n = 0) iv msgs := by
    refine (along_length_iff _ (fun len => len % n = 0) _ msgs).2 fun len hmem => ?_
    obtain ⟨msg, hmsg, rfl⟩ := mem_map.1 hmem
    exact hmsgs msg hmsg
  obtain ⟨crypts, hcrypts, hflat⟩ := calls_flatten henc
    (fun s => by rw [length_nil, Nat.zero_div]; rfl)
    (fun s a b ha => by rw [div_append hn ha, cbcEncrypt_append s (mul_div_of_mod ha)]) halong
  have hmod := flatten_mod hmsgs
  have hlen : crypts.flatten.length = msgs.flatten.length := by
    rw [hflat, cbcEncrypt_length p.encrypt.run_length, ← mul_div_of_mod hmod]
  have hback : (cbcDecrypt p.decrypt n (crypts.flatten.length / n) iv crypts.flatten).1 =
      msgs.flatten := by
    rw [hlen, hflat]
    exact cbcDecrypt_cbcEncrypt p hiv (mul_div_of_mod hmod)
  have hparts := decryptParts_iff hn mk hdec hrefuse iv msgs.flatten (hlens.trans hlen.symm)
  constructor
  · rintro ⟨crypts', plains, hcrypts', hplains, hsame, -⟩
    obtain rfl := Except.ok.inj (hcrypts.symm.trans hcrypts')
    exact (hparts.1 ⟨plains, hplains, hsame⟩).1
  · intro hl
    obtain ⟨plains, hplains, hsame⟩ := hparts.2 ⟨hl, hback⟩
    refine ⟨crypts, plains, hcrypts, hplains, hsame, fun blocks hblocks hb => ?_⟩
    rw [hflat]
    exact cbcEncrypt_textbook hn hblocks hb

end BlockCipher

/-! ## RC4 -/

section Rc4

variable {key part : Bytes} {keylen used : Nat} {msgs : List Bytes}

/-- What a call makes of a part, with the number of octets before it. -/
def rc4Call (key : Bytes) (keylen used : Nat) (part : Bytes) : Bytes × Nat :=
  (rc4Apply (rc4Next^[used] (rc4Setup key keylen)) part, used + part.length)

theorem rc4Call_append (a b : Bytes) : rc4Call key keylen used (a ++ b) =
    ((rc4Call key keylen used a).1 ++ (rc4Call key keylen (rc4Call key keylen used a).2 b).1,
      (rc4Call key keylen (rc4Call key keylen used a).2 b).2) := by
  simp only [rc4Call]
  rw [rc4Apply_append, length_append, Nat.add_assoc, Nat.add_comm used a.length,
    Function.iterate_add_apply]

theorem rc4Skip_eq (h : used < 2 ^ 32 ∧ part.length < 2 ^ 32) :
    rc4Skip key keylen used part = some (rc4Call key keylen used part).1 := if_pos h

theorem callsEnd_iff (key : Bytes) (keylen : Nat) :
    Along (rc4Call key keylen) (fun used part => used < 2 ^ 32 ∧ part.length < 2 ^ 32) used msgs ↔
      CallsEnd used (msgs.map List.length) := by
  induction msgs generalizing used with
  | nil => exact Iff.rfl
  | cons msg msgs ih =>
    rw [Along, ih]
    exact Iff.rfl

theorem rc4Encrypt_ok (h : used < 2 ^ 32 ∧ part.length < 2 ^ 32) :
    cryptoCipherEncrypt (.rc4 used key keylen) part =
      .ok ((rc4Call key keylen used part).1, .rc4 (rc4Call key keylen used part).2 key keylen) := by
  rw [cryptoCipherEncrypt, rc4Skip_eq h]
  rfl

theorem rc4_callsEnd {crypts : List Bytes}
    (h : calls cryptoCipherEncrypt (.rc4 used key keylen) msgs = .ok crypts) :
    CallsEnd used (msgs.map List.length) := by
  rw [← callsEnd_iff key keylen]
  refine along_of_calls (fun _ _ hp => rc4Encrypt_ok hp) (fun used part hp => ⟨.endless, ?_⟩) h
  rw [cryptoCipherEncrypt, rc4Skip, if_neg hp]

theorem rc4Encrypt_calls (h : CallsEnd 0 (msgs.map List.length)) :
    ∃ crypts, calls cryptoCipherEncrypt (.rc4 0 key keylen) msgs = .ok crypts ∧
      crypts.flatten = rc4Apply (rc4Setup key keylen) msgs.flatten :=
  calls_flatten (fun _ _ hp => rc4Encrypt_ok hp) (fun _ => rfl) (fun _ a b _ => rc4Call_append a b)
    ((callsEnd_iff key keylen).2 h)

theorem rc4Decrypt_eq (parts : List Bytes) :
    calls cryptoCipherDecrypt (.rc4 used key keylen) parts =
      calls cryptoCipherEncrypt (.rc4 used key keylen) parts := by
  induction parts generalizing used with
  | nil => rfl
  | cons part parts ih =>
    rw [calls, calls, cryptoCipherDecrypt, cryptoCipherEncrypt]
    cases rc4Skip key keylen used part with
    | none => rfl
    | some crypt =>
      show (calls cryptoCipherDecrypt _ parts).map _ = (calls cryptoCipherEncrypt _ parts).map _
      rw [ih]

end Rc4

/-! ## DES -/

section Des

variable {ek : BlockFn 8}

theorem desEncryptBlocks_eq (ek : BlockFn 8) (blocks : Nat) {cbc : Bytes} (hcbc : cbc.length = 8)
    (des3Cbc plain : Bytes) :
    (desEncryptBlocks ek blocks cbc des3Cbc plain).1 = (cbcEncrypt ek 8 blocks cbc (zeros (8 * blocks))).1 ∧
      (desEncryptBlocks ek blocks cbc des3Cbc plain).2.1 =
        (cbcEncrypt ek 8 blocks cbc (zeros (8 * blocks))).2 := by
  induction blocks generalizing cbc des3Cbc plain with
  | zero => exact ⟨rfl, rfl⟩
  | succ blocks ih =>
    obtain ⟨hcrypt, hnext⟩ := ih (ek.run_length cbc) (xor des3Cbc (plain.take 8)) (plain.drop 8)
    have hsplit : zeros (8 * (blocks + 1)) = zeros 8 ++ zeros (8 * blocks) := by
      rw [Nat.mul_succ, Nat.add_comm]
      exact replicate_add 8 (8 * blocks) 0
    have hxor : xor cbc (zeros 8) = cbc := by
      have h := xor_zeros cbc
      rwa [hcbc] at h
    simp only [desEncryptBlocks, cbcEncrypt]
    rw [hsplit, take_left' (zeros_length 8), drop_left' (zeros_length 8), hxor, hcrypt, hnext]
    exact ⟨rfl, rfl⟩

theorem desEncryptBlocks_append {k l : Nat} (cbc des3Cbc : Bytes) {a b : Bytes} (ha : a.length = 8 * k) :
    desEncryptBlocks ek (k + l) cbc des3Cbc (a ++ b) =
      ((desEncryptBlocks ek k cbc des3Cbc a).1 ++
          (desEncryptBlocks ek l (desEncryptBlocks ek k cbc des3Cbc a).2.1
            (desEncryptBlocks ek k cbc des3Cbc a).2.2 b).1,
        (desEncryptBlocks ek l (desEncryptBlocks ek k cbc des3Cbc a).2.1
          (desEncryptBlocks ek k cbc des3Cbc a).2.2 b).2) := by
  induction k generalizing cbc des3Cbc a with
  | zero =>
    rw [eq_nil_of_length_eq_zero ha, Nat.zero_add]
    rfl
  | succ k ih =>
    rw [Nat.mul_succ] at ha
    have hle : 8 ≤ a.length := by omega
    rw [Nat.add_right_comm]
    simp only [desEncryptBlocks]
    rw [take_append_of_le_length hle, drop_append_of_le_length hle,
      ih _ _ (by rw [length_drop]; omega), append_assoc]

theorem desEncrypt_calls (ek dk : BlockFn 8) (des3Cbc : Bytes) {iv : Bytes} (hiv : iv.length = 8)
    {msgs : List Bytes} (hmsgs : ∀ msg ∈ msgs, msg.length % 8 = 0) :
    ∃ crypts, calls cryptoCipherEncrypt (.des ek dk iv des3Cbc) msgs = .ok crypts ∧
      crypts.flatten =
        (cbcEncrypt ek 8 (msgs.flatten.length / 8) iv (zeros msgs.flatten.length)).1 := by
  have halong : Along (fun (s : Bytes × Bytes) part => desEncryptBlocks ek (part.length / 8) s.1 s.2 part)
      (fun _ part => part.length % 8 = 0) (iv, des3Cbc) msgs := by
    refine (along_length_iff _ (fun len => len % 8 = 0) _ msgs).2 fun len hmem => ?_
    obtain ⟨msg, hmsg, rfl⟩ := mem_map.1 hmem
    exact hmsgs msg hmsg
  have hop : ∀ (s : Bytes × Bytes) (part : Bytes), part.length % 8 = 0 →
      cryptoCipherEncrypt (.des ek dk s.1 s.2) part =
        .ok ((desEncryptBlocks ek (part.length / 8) s.1 s.2 part).1,
          .des ek dk (desEncryptBlocks ek (part.length / 8) s.1 s.2 part).2.1
            (desEncryptBlocks ek (part.length / 8) s.1 s.2 part).2.2) := by
    intro s part hp
    rw [cryptoCipherEncrypt, if_neg (not_not.2 hp)]
  obtain ⟨crypts, hcrypts, hflat⟩ := calls_flatten hop
    (fun s => by rw [length_nil, Nat.zero_div]; rfl)
    (fun s a b ha => by
      rw [div_append (by decide) ha, desEncryptBlocks_append s.1 s.2 (mul_div_of_mod ha)]) halong
  refine ⟨crypts, hcrypts, ?_⟩
  have hzeros := (desEncryptBlocks_eq ek (msgs.flatten.length / 8) hiv des3Cbc msgs.flatten).1
  rw [← mul_div_of_mod (flatten_mod hmsgs)] at hzeros
  exact hflat.trans hzeros

end Des

/-! ## The contexts -/

section Contexts

variable {lib : BlockCiphers} {iv key : Bytes} {msgs : List Bytes} {lens : List Nat}

theorem rc4_agrees_iff (lib : BlockCiphers) (iv : Bytes) {keylen : Nat}
    (hlens : lens.sum = msgs.flatten.length) :
    CipherAgrees lib .rc4 iv key (.rc4 0 key keylen) msgs lens ↔
      CallsEnd 0 (msgs.map List.length) ∧ CallsEnd 0 lens := by
  constructor
  · rintro ⟨crypts, plains, hcrypts, hplains, -, -⟩
    have hend : CallsEnd 0 (msgs.map List.length) := rc4_callsEnd hcrypts
    obtain ⟨crypts', hcrypts', hflat⟩ := rc4Encrypt_calls hend
    obtain rfl := Except.ok.inj (hcrypts.symm.trans hcrypts')
    have hlen : lens.sum = crypts.flatten.length := by rw [hflat, rc4Apply_length, hlens]
    rw [rc4Decrypt_eq] at hplains
    have hdec := rc4_callsEnd hplains
    rw [splitLens_map_length hlen] at hdec
    exact ⟨hend, hdec⟩
  · rintro ⟨hend, hdec⟩
    obtain ⟨crypts, hcrypts, hflat⟩ := rc4Encrypt_calls hend
    have hlen : lens.sum = crypts.flatten.length := by rw [hflat, rc4Apply_length, hlens]
    rw [← splitLens_map_length hlen] at hdec
    obtain ⟨plains, hplains, hback⟩ := @rc4Encrypt_calls key keylen _ hdec
    rw [splitLens_flatten hlen] at hback
    refine ⟨crypts, plains, hcrypts, ?_, ?_, fun hne => absurd rfl hne⟩
    · rw [rc4Decrypt_eq]
      exact hplains
    · rw [hback, hflat, rc4Apply_twice]

theorem des_agrees_iff (hiv : iv.length = 8) (hmsgs : ∀ msg ∈ msgs, msg.length % 8 = 0)
    (hlens : lens.sum = msgs.flatten.length) :
    CipherAgrees lib .des iv key (.des (lib.des key).encrypt (lib.des key).decrypt iv (zeros 8)) msgs lens ↔
      (∀ len ∈ lens, len % 8 = 0) ∧ ∀ octet ∈ msgs.flatten, octet = 0 := by
  have hmod := flatten_mod hmsgs
  obtain ⟨crypts, hcrypts, hflat⟩ := desEncrypt_calls (lib.des key).encrypt (lib.des key).decrypt (zeros 8)
    hiv hmsgs
  have hlen : crypts.flatten.length = msgs.flatten.length := by
    rw [hflat, cbcEncrypt_length (lib.des key).encrypt.run_length, ← mul_div_of_mod hmod]
  have hback : (cbcDecrypt (lib.des key).decrypt 8 (crypts.flatten.length / 8) iv crypts.flatten).1 =
      zeros msgs.flatten.length := by
    rw [hlen, hflat]
    exact cbcDecrypt_cbcEncrypt (lib.des key) hiv ((zeros_length _).trans (mul_div_of_mod hmod))
  have hzero : zeros msgs.flatten.length = msgs.flatten ↔ ∀ octet ∈ msgs.flatten, octet = 0 := by
    rw [eq_comm]
    exact eq_replicate_iff.trans (and_iff_right rfl)
  have hparts := decryptParts_iff (show 0 < 8 by decide)
    (fun cbc => .des (lib.des key).encrypt (lib.des key).decrypt cbc (zeros 8))
    (fun s part hp => by rw [cryptoCipherDecrypt, if_neg (not_not.2 hp)])
    (fun s part hp => ⟨.failed, by rw [cryptoCipherDecrypt, if_pos hp]⟩) iv msgs.flatten
    (hlens.trans hlen.symm)
  rw [hback, hzero] at hparts
  constructor
  · rintro ⟨crypts', plains, hcrypts', hplains, hsame, -⟩
    obtain rfl := Except.ok.inj (hcrypts.symm.trans hcrypts')
    exact hparts.1 ⟨plains, hplains, hsame⟩
  · intro h
    obtain ⟨plains, hplains, hsame⟩ := hparts.2 h
    refine ⟨crypts, plains, hcrypts, hplains, hsame, fun _ blocks hblocks hb => ?_⟩
    have hiv' : iv.take 8 = iv := take_of_length_le hiv.le
    show crypts.flatten = (cbcText (lib.des key).encrypt (iv.take 8) blocks).flatten
    rw [hiv', hflat, hzero.2 h.2]
    exact cbcEncrypt_textbook (by decide) hblocks hb

theorem cbc_agrees_iff {alg : CryptoCipherAlg} {ctx : CryptoCipher} (halg : alg ≠ .rc4)
    (hiv : iv.length = alg.blockSize) :
    CipherAgrees lib alg iv key ctx msgs lens ↔
      ∃ crypts plains, calls cryptoCipherEncrypt ctx msgs = .ok crypts ∧
        calls cryptoCipherDecrypt ctx (splitLens lens crypts.flatten) = .ok plains ∧
        plains.flatten = msgs.flatten ∧
        ∀ blocks : List Bytes, (∀ b ∈ blocks, b.length = alg.blockSize) → blocks.flatten = msgs.flatten →
          crypts.flatten = (cbcText (lib.encryptBlock key alg) iv blocks).flatten := by
  unfold CipherAgrees
  rw [take_of_length_le hiv.le]
  simp only [halg, ne_eq, not_false_eq_true, forall_true_left]

/-- **Cipher contexts.** Encryption and decryption agree for AES and 3DES whenever the calls are made on
full blocks, for RC4 if every call ends, and for DES on a text of zeros only. -/
theorem cipherAgrees_iff {alg : CryptoCipherAlg} {ctx : CryptoCipher}
    (hinit : cryptoCipherInit lib alg iv key = some ctx) (hiv : alg ≠ .rc4 → iv.length = alg.blockSize)
    (hmsgs : ∀ msg ∈ msgs, msg.length % alg.blockSize = 0) (hlens : lens.sum = msgs.flatten.length) :
    CipherAgrees lib alg iv key ctx msgs lens ↔ CipherAgreesWhen alg msgs lens := by
  cases alg with
  | null => cases hinit
  | rc2 => cases hinit
  | rc4 =>
    rw [cryptoCipherInit] at hinit
    split at hinit
    · cases hinit
    · cases hinit
      exact rc4_agrees_iff lib iv hlens
  | des =>
    have hlen : iv.length = 8 := hiv (by decide)
    rw [cryptoCipherInit] at hinit
    split at hinit
    · cases hinit
    · cases hinit
      rw [take_of_length_le hlen.le]
      exact des_agrees_iff hlen hmsgs hlens
  | des3 =>
    have hlen : iv.length = 8 := hiv (by decide)
    rw [cryptoCipherInit] at hinit
    split at hinit
    · cases hinit
    · cases hinit
      rw [cbc_agrees_iff (by decide) hlen, take_of_length_le hlen.le]
      exact cbcCalls_iff (show 0 < 8 by decide) (lib.des3 key) (fun cbc => .des3 (lib.des3 key) cbc) hlen
        (fun s part hp => by rw [cryptoCipherEncrypt, if_neg (not_not.2 hp)])
        (fun s part hp => by rw [cryptoCipherDecrypt, if_neg (not_not.2 hp)])
        (fun s part hp => ⟨.failed, by rw [cryptoCipherDecrypt, if_pos hp]⟩) hmsgs hlens
  | aes =>
    have hlen : iv.length = 16 := hiv (by decide)
    by_cases hkey : AesKeyLen key
    · rw [cryptoCipherInit, aesInit_eq hkey, aesInit_eq hkey] at hinit
      cases hinit
      rw [cbc_agrees_iff (by decide) hlen, take_of_length_le hlen.le]
      exact cbcCalls_iff (show 0 < 16 by decide) (lib.aes key)
        (fun cbc => .aes cbc (lib.aes key).encrypt (lib.aes key).decrypt) hlen
        (fun s part hp => by rw [cryptoCipherEncrypt, if_neg (not_not.2 hp)])
        (fun s part hp => by rw [cryptoCipherDecrypt, if_neg (not_not.2 hp)])
        (fun s part hp => ⟨.failed, by rw [cryptoCipherDecrypt, if_pos hp]⟩) hmsgs hlens
    · rw [cryptoCipherInit, aesInit, if_neg hkey] at hinit
      cases hinit

end Contexts

def smallCiphers : BlockCiphers := ⟨smallPerm 16, smallPerm 8, smallPerm 8⟩

theorem cipherAgrees_iff_small : CipherAgrees smallCiphers .aes (zeros 16) (zeros 16)
    (.aes (zeros 16) (smallPerm 16 (zeros 16)).encrypt (smallPerm 16 (zeros 16)).decrypt)
    [List.replicate 16 7, List.replicate 32 9] [32, 16] :=
  (cipherAgrees_iff rfl (fun _ => rfl) (by decide) rfl).2 (show ∀ len ∈ [32, 16], len % 16 = 0 by decide)

/-- A block that is not zero does not come back from DES. -/
theorem cipherAgrees_des : ∃ ctx, cryptoCipherInit smallCiphers .des (zeros 8) (zeros 8) = some ctx ∧
    ¬ CipherAgrees smallCiphers .des (zeros 8) (zeros 8) ctx [[1, 2, 3, 4, 5, 6, 7, 8]] [8] := by
  refine ⟨_, rfl, fun h => ?_⟩
  have hzero := ((des_agrees_iff (zeros_length 8) (by decide) rfl).1 h).2 1 (by decide)
  revert hzero
  decide

end Hostap
