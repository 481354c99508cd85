import Hostap.Lib.Buffer
import Hostap.Lib.Rsa
import Hostap.Tls.Pkcs1
import Mathlib.NumberTheory.LucasLehmer

/-!
# PKCS #1 v1.5 blocks

`pkcs1_encrypt()`, `pkcs1_v15_private_key_decrypt()` and `pkcs1_decrypt_public_key()` (`tls/pkcs1.c`) as
programs on their output buffer, which has `*outlen` octets.

A program ends with `.ok outlen` where the function returns 0 and with `.error outlen` where it returns -1, with
what `*outlen` is then.

The two functions that take the padding off look for its end in their own ways. The one with the public key sees
that there is an octet before it looks at it. The one with the private key looks at it first, and so looks at
one behind the block when the padding has no end.
-/

namespace Hostap

open Octets Prog Buffer List

/-! ## The operation with either key -/

/-- The private part of `struct crypto_rsa_key`. -/
structure RsaPrivate where
  p : Nat
  q : Nat
  dmp1 : Nat
  dmq1 : Nat
  iqmp : Nat

/-- `struct crypto_rsa_key`. -/
structure RsaKey where
  pub : CryptoRsaKey
  priv : Option RsaPrivate

namespace RsaKey

/-- `crypto_rsa_get_modulus_len()`. -/
def modlen (key : RsaKey) : Nat := numBytes key.pub.n

/-- The number that `crypto_rsa_exptmod()` makes of a number. There is none modulo zero. -/
def power (key : RsaKey) (usePrivate : Bool) (m : Nat) : Option Nat :=
  if usePrivate then
    key.priv.bind fun k =>
      if k.p = 0 ∨ k.q = 0 then none
      else some (Rsa.garner k.p k.q k.iqmp (m ^ k.dmp1 % k.p) (m ^ k.dmq1 % k.q))
  else if key.pub.n = 0 then none
  else some (m ^ key.pub.e % key.pub.n)

/-- Each operation takes back what the other one does below the modulus. -/
structure Inverse (key : RsaKey) : Prop where
  of_public : ∀ m < key.pub.n, ∃ c < key.pub.n, key.power false m = some c ∧ key.power true c = some m
  of_private : ∀ m < key.pub.n, ∃ c < key.pub.n, key.power true m = some c ∧ key.power false c = some m

end RsaKey

/-- `crypto_rsa_exptmod()`. -/
def rsaExptmod (input : Bytes) (outlen : Nat) (key : RsaKey) (usePrivate : Bool) : BufferM (Except Nat Nat) :=
  if key.pub.n < beNat input then return .error outlen
  else match key.power usePrivate (beNat input) with
    | none => return .error outlen
    | some tmp =>
      if outlen < key.modlen then return .error key.modlen
      else if key.modlen < numBytes tmp then return .error outlen
      else do
        store 0 (zeros key.modlen)
        store (key.modlen - numBytes tmp) (natBe (numBytes tmp) tmp)
        return .ok key.modlen

/-! ## The functions -/

/-- `os_get_random()`: as many octets as are asked for. -/
abbrev OsGetRandom := (len : Nat) → Option (List.Vector UInt8 len)

/-- The padding that `pkcs1_generate_encryption_block()` writes. -/
def pkcs1Padding (random : OsGetRandom) (blockType : UInt8) (psLen : Nat) : Option Bytes :=
  if blockType = 0 then some (zeros psLen)
  else if blockType = 1 then some (List.replicate psLen 0xff)
  else if blockType = 2 then (random psLen).map fun ps => ps.toList.map fun c => if c = 0 then 1 else c
  else none

/-- `pkcs1_generate_encryption_block()`. -/
def pkcs1GenerateEncryptionBlock (random : OsGetRandom) (blockType : UInt8) (modlen : Nat) (input : Bytes)
    (outlen : Nat) : BufferM Bool :=
  if modlen < 12 ∨ outlen < modlen ∨ modlen - 11 < input.length then return false
  else do
    store 0 [0x00, blockType]
    let psLen := modlen - input.length - 3
    match pkcs1Padding random blockType psLen with
    | none => return false
    | some ps => do
      store 2 ps
      store (2 + psLen) [0x00]
      store (3 + psLen) input
      return true

/-- `pkcs1_encrypt()`. -/
def pkcs1Encrypt (random : OsGetRandom) (blockType : Int) (key : RsaKey) (usePrivate : Bool) (input : Bytes)
    (outlen : Nat) : BufferM (Except Nat Nat) := do
  if ← pkcs1GenerateEncryptionBlock random (UInt8.ofInt blockType) key.modlen input outlen then
    let block ← load 0 key.modlen
    rsaExptmod block outlen key usePrivate
  else return .error outlen

/-- The first loop of `pkcs1_v15_private_key_decrypt()`, where `left` octets are to come. The octet is looked at
before that. -/
def pkcs1SkipPs (left pos : Nat) : BufferM Nat := do
  let c ← load pos 1
  match left with
  | 0 => return pos
  | left + 1 => if c = [0x00] then return pos else pkcs1SkipPs left (pos + 1)

/-- `pkcs1_v15_private_key_decrypt()` behind the operation with the key. -/
def pkcs1StripPs (outlen : Nat) : BufferM (Except Nat Nat) :=
  if outlen < 2 then return .error outlen
  else do
    let head ← load 0 2
    if head ≠ [0x00, 0x02] then return .error outlen
    else do
      let pos ← pkcs1SkipPs (outlen - 2) 2
      if pos = outlen then return .error outlen
      else if pos - 2 < 8 then return .error outlen
      else do
        let data ← load (pos + 1) (outlen - (pos + 1))
        store 0 data
        return .ok (outlen - (pos + 1))

/-- `pkcs1_v15_private_key_decrypt()`. -/
def pkcs1V15PrivateKeyDecrypt (key : RsaKey) (input : Bytes) (outlen : Nat) : BufferM (Except Nat Nat) := do
  match ← rsaExptmod input outlen key true with
  | .error outlen => return .error outlen
  | .ok outlen => pkcs1StripPs outlen

/-- The loop of `pkcs1_decrypt_public_key()`. -/
def pkcs1SkipFf (left pos : Nat) : BufferM Nat :=
  match left with
  | 0 => return pos
  | left + 1 => do
    let c ← load pos 1
    if c = [0xff] then pkcs1SkipFf left (pos + 1) else return pos

/-- `pkcs1_decrypt_public_key()` behind the operation with the key. -/
def pkcs1StripFf (len plainLen : Nat) : BufferM (Except Nat Nat) :=
  if len < 3 + 8 + 16 then return .error plainLen
  else do
    let head ← load 0 2
    if head ≠ [0x00, 0x01] then return .error plainLen
    else do
      let first ← load 2 1
      if first ≠ [0xff] then return .error plainLen
      else do
        let pos ← pkcs1SkipFf (len - 3) 3
        if pos - 2 < 8 then return .error plainLen
        else if len ≤ pos + 16 then return .error plainLen
        else do
          let separator ← load pos 1
          if separator ≠ [0x00] then return .error plainLen
          else do
            let data ← load (pos + 1) (len - (pos + 1))
            store 0 data
            return .ok (len - (pos + 1))

/-- `pkcs1_decrypt_public_key()`. -/
def pkcs1DecryptPublic (key : RsaKey) (crypt : Bytes) (plainLen : Nat) : BufferM (Except Nat Nat) := do
  match ← rsaExptmod crypt plainLen key false with
  | .error _ => return .error plainLen
  | .ok len => pkcs1StripFf len plainLen

/-- The function returns 0, and these octets are in its buffer. -/
def Yields (m : BufferM (Except Nat Nat)) (buf data : Bytes) : Prop :=
  ∃ rest, m buf = .ok (.ok data.length, data ++ rest)

/-! ## The operation -/

section Operation

variable {key : RsaKey} {usePrivate : Bool} {input buf : Bytes}

theorem rsaExptmod_ok {c : Nat} (buf : Bytes) (hinput : beNat input ≤ key.pub.n)
    (hpower : key.power usePrivate (beNat input) = some c) (hlen : key.modlen ≤ buf.length)
    (hc : numBytes c ≤ key.modlen) : rsaExptmod input buf.length key usePrivate buf =
      .ok (.ok key.modlen, natBe key.modlen c ++ buf.drop key.modlen) := by
  have hzeros : store 0 (zeros key.modlen) buf = .ok ((), zeros key.modlen ++ buf.drop key.modlen) := by
    rw [store_ok (by rw [zeros_length]; omega), overwrite_zero, zeros_length]
  have hsplit : zeros key.modlen = zeros (key.modlen - numBytes c) ++ zeros (numBytes c) := by
    unfold zeros
    rw [replicate_append_replicate, Nat.sub_add_cancel hc]
  unfold rsaExptmod
  rw [if_neg (by omega), hpower]
  dsimp only
  rw [if_neg (by omega), if_neg (by omega), bind_ok hzeros, hsplit, append_assoc,
    bind_ok (store_middle (zeros_length _) (by simp)), ← append_assoc,
    ← natBe_eq_append (lt_pow_numBytes c) hc]
  rfl

theorem rsaExptmod_cases (key : RsaKey) (usePrivate : Bool) (input buf : Bytes) :
    (∃ len, rsaExptmod input buf.length key usePrivate buf = .ok (.error len, buf)) ∨
      ∃ c, beNat input ≤ key.pub.n ∧ key.power usePrivate (beNat input) = some c ∧ key.modlen ≤ buf.length ∧
        numBytes c ≤ key.modlen := by
  by_cases hn : key.pub.n < beNat input
  · refine .inl ⟨buf.length, ?_⟩
    unfold rsaExptmod
    rw [if_pos hn]
    rfl
  cases hpower : key.power usePrivate (beNat input) with
  | none =>
    refine .inl ⟨buf.length, ?_⟩
    unfold rsaExptmod
    rw [if_neg hn, hpower]
    rfl
  | some c =>
    by_cases hlen : buf.length < key.modlen
    · refine .inl ⟨key.modlen, ?_⟩
      unfold rsaExptmod
      rw [if_neg hn, hpower]
      dsimp only
      rw [if_pos hlen]
      rfl
    by_cases hc : key.modlen < numBytes c
    · refine .inl ⟨buf.length, ?_⟩
      unfold rsaExptmod
      rw [if_neg hn, hpower]
      dsimp only
      rw [if_neg hlen, if_pos hc]
      rfl
    exact .inr ⟨c, by omega, rfl, by omega, by omega⟩

theorem RsaKey.numBytes_le_modlen {c : Nat} (hc : c < key.pub.n) : numBytes c ≤ key.modlen :=
  numBytes_mono (Nat.le_of_lt hc)

theorem RsaKey.beNat_lt (hlen : input.length + 1 = key.modlen) : beNat (0x00 :: input) < key.pub.n := by
  have hpow : 256 ^ input.length ≤ key.pub.n := pow_lt_numBytes (by unfold RsaKey.modlen at hlen; omega)
  have hlt := Octets.beNat_lt input
  have hzero : beNat (0x00 :: input) = beNat input := beNat_zeros_append 1 input
  omega

end Operation

/-! ## Keys -/

theorem RsaKey.inverse_of_exponents {n e : Nat} {k : RsaPrivate} (hn : n = k.p * k.q)
    (h : Rsa.Exponents k.p k.q e k.dmp1 k.dmq1 k.iqmp) : RsaKey.Inverse ⟨⟨n, e⟩, some k⟩ := by
  subst hn
  have hp := h.p_prime.pos
  have hq := h.q_prime.pos
  have hprod : k.p * k.q ≠ 0 := (Nat.mul_pos hp hq).ne'
  have hprivate (m : Nat) : RsaKey.power ⟨⟨k.p * k.q, e⟩, some k⟩ true m =
      some (Rsa.garner k.p k.q k.iqmp (m ^ k.dmp1 % k.p) (m ^ k.dmq1 % k.q)) := by
    show (if k.p = 0 ∨ k.q = 0 then none else _) = _
    rw [if_neg (by omega)]
  have hpublic (m : Nat) : RsaKey.power ⟨⟨k.p * k.q, e⟩, some k⟩ false m = some (m ^ e % (k.p * k.q)) := by
    show (if k.p * k.q = 0 then none else _) = _
    rw [if_neg hprod]
  constructor
  · intro m hm
    refine ⟨m ^ e % (k.p * k.q), Nat.mod_lt _ (Nat.pos_of_ne_zero hprod), hpublic m, ?_⟩
    rw [hprivate, h.garner_pow hm]
  · intro m hm
    refine ⟨_, Rsa.garner_lt hp (Nat.mod_lt _ hq), hprivate m, ?_⟩
    rw [hpublic, h.pow_garner hm]

/-! ## The block that is made -/

/-- `00`, the block type, padding, `00` and data. -/
def pkcs1Block (blockType : UInt8) (ps data : Bytes) : Bytes := 0x00 :: blockType :: (ps ++ 0x00 :: data)

theorem pkcs1Block_length (blockType : UInt8) (ps data : Bytes) :
    (pkcs1Block blockType ps data).length = 2 + ps.length + 1 + data.length := by
  unfold pkcs1Block
  rw [length_cons, length_cons, length_append, length_cons]
  omega

theorem pkcs1Padding_length {random : OsGetRandom} {blockType : UInt8} {psLen : Nat} {ps : Bytes}
    (h : pkcs1Padding random blockType psLen = some ps) : ps.length = psLen := by
  unfold pkcs1Padding at h
  by_cases h0 : blockType = 0
  · rw [if_pos h0, Option.some_inj] at h
    rw [← h, zeros_length]
  by_cases h1 : blockType = 1
  · rw [if_neg h0, if_pos h1, Option.some_inj] at h
    rw [← h, length_replicate]
  by_cases h2 : blockType = 2
  · rw [if_neg h0, if_neg h1, if_pos h2, Option.map_eq_some_iff] at h
    obtain ⟨ps, _, rfl⟩ := h
    rw [length_map, List.Vector.toList_length]
  · rw [if_neg h0, if_neg h1, if_neg h2] at h
    cases h

theorem pkcs1Padding_two {random : OsGetRandom} {psLen : Nat} (h : (random psLen).isSome) :
    ∃ ps, pkcs1Padding random 2 psLen = some ps ∧ 0 ∉ ps := by
  obtain ⟨octets, hoctets⟩ := Option.isSome_iff_exists.mp h
  refine ⟨octets.toList.map fun c => if c = 0 then 1 else c, by simp [pkcs1Padding, hoctets], ?_⟩
  rw [mem_map]
  rintro ⟨c, _, hc⟩
  by_cases hzero : c = 0
  · rw [if_pos hzero] at hc
    cases hc
  · rw [if_neg hzero] at hc
    exact hzero hc

theorem pkcs1GenerateEncryptionBlock_ok {random : OsGetRandom} {blockType : UInt8} {modlen : Nat}
    {input buf ps : Bytes} (hmod : 12 ≤ modlen) (hinput : input.length + 11 ≤ modlen)
    (hlen : modlen ≤ buf.length)
    (hps : pkcs1Padding random blockType (modlen - input.length - 3) = some ps) :
    pkcs1GenerateEncryptionBlock random blockType modlen input buf.length buf =
      .ok (true, pkcs1Block blockType ps input ++ buf.drop modlen) := by
  have hpslen := pkcs1Padding_length hps
  have hblock : (pkcs1Block blockType ps input).length = modlen := by
    rw [pkcs1Block_length]
    omega
  have hhead : store 0 [0x00, blockType] buf = .ok ((), overwrite 0 [0x00, blockType] buf) :=
    store_ok (by show 0 + 2 ≤ _; omega)
  have hrest (done : Bytes) {off : Nat} (hoff : done.length = off) (data : Bytes)
      (hroom : off + data.length ≤ buf.length) :
      store off data (overwrite 0 done buf) = .ok ((), overwrite 0 (done ++ data) buf) := by
    have hover : overwrite (0 + done.length) data (overwrite 0 done buf) = overwrite 0 (done ++ data) buf :=
      overwrite_append (Nat.zero_le buf.length)
    rw [Nat.zero_add, hoff] at hover
    rw [store_ok (by rw [overwrite_length (by omega)]; exact hroom), hover]
  have hpad : store 2 ps (overwrite 0 [0x00, blockType] buf) = _ :=
    hrest [0x00, blockType] rfl ps (by show 2 + _ ≤ _; omega)
  have hsep : store (2 + (modlen - input.length - 3)) [0x00] (overwrite 0 ([0x00, blockType] ++ ps) buf) = _ :=
    hrest _ (by rw [length_append, hpslen]; rfl) [0x00] (by show _ + 1 ≤ _; omega)
  have hdata : store (3 + (modlen - input.length - 3)) input
      (overwrite 0 ([0x00, blockType] ++ ps ++ [0x00]) buf) =
        .ok ((), overwrite 0 ([0x00, blockType] ++ ps ++ [0x00] ++ input) buf) := by
    refine hrest _ ?_ input (by omega)
    rw [length_append, length_append, hpslen]
    show 2 + _ + 1 = _
    omega
  have hwhole : [0x00, blockType] ++ ps ++ [0x00] ++ input = pkcs1Block blockType ps input := by
    simp [pkcs1Block]
  unfold pkcs1GenerateEncryptionBlock
  rw [if_neg (by omega), bind_ok hhead, hps]
  dsimp only
  rw [bind_ok hpad, bind_ok hsep, bind_ok hdata, hwhole, overwrite_zero, hblock]
  rfl

theorem pkcs1Encrypt_ok {random : OsGetRandom} {blockType : Int} {key : RsaKey} {usePrivate : Bool}
    {input buf ps : Bytes} {c : Nat} (hmod : 12 ≤ key.modlen) (hinput : input.length + 11 ≤ key.modlen)
    (hlen : key.modlen ≤ buf.length)
    (hps : pkcs1Padding random (UInt8.ofInt blockType) (key.modlen - input.length - 3) = some ps)
    (hc : c < key.pub.n)
    (hpower : key.power usePrivate (beNat (pkcs1Block (UInt8.ofInt blockType) ps input)) = some c) :
    Yields (pkcs1Encrypt random blockType key usePrivate input buf.length) buf (natBe key.modlen c) := by
  have hpslen := pkcs1Padding_length hps
  have hblock : (pkcs1Block (UInt8.ofInt blockType) ps input).length = key.modlen := by
    rw [pkcs1Block_length]
    omega
  have hbelow : beNat (pkcs1Block (UInt8.ofInt blockType) ps input) < key.pub.n := RsaKey.beNat_lt hblock
  have hbuf : (pkcs1Block (UInt8.ofInt blockType) ps input ++ buf.drop key.modlen).length = buf.length := by
    rw [length_append, hblock, length_drop]
    omega
  have hload : load 0 key.modlen (pkcs1Block (UInt8.ofInt blockType) ps input ++ buf.drop key.modlen) =
      .ok (pkcs1Block (UInt8.ofInt blockType) ps input, _) :=
    load_front hblock
  have hexp := rsaExptmod_ok (pkcs1Block (UInt8.ofInt blockType) ps input ++ buf.drop key.modlen)
    (Nat.le_of_lt hbelow) hpower (by omega) (RsaKey.numBytes_le_modlen hc)
  refine ⟨buf.drop key.modlen, ?_⟩
  unfold pkcs1Encrypt
  rw [bind_ok (pkcs1GenerateEncryptionBlock_ok hmod hinput hlen hps), if_pos rfl, bind_ok hload,
    ← hbuf, hexp, natBe_length, drop_left' hblock]

/-! ## The padding that is taken off -/

theorem pkcs1SkipPs_separator {left pos : Nat} {front ps : Bytes} (data : Bytes) (hfront : front.length = pos)
    (hps : 0 ∉ ps) (hleft : ps.length < left) :
    pkcs1SkipPs left pos (front ++ (ps ++ 0x00 :: data)) =
      .ok (pos + ps.length, front ++ (ps ++ 0x00 :: data)) := by
  induction ps generalizing left pos front with
  | nil =>
    obtain ⟨left, rfl⟩ : ∃ n, left = n + 1 := ⟨left - 1, by rw [length_nil] at hleft; omega⟩
    unfold pkcs1SkipPs
    rw [nil_append, bind_ok (load_one hfront)]
    rfl
  | cons c ps ih =>
    obtain ⟨left, rfl⟩ : ∃ n, left = n + 1 := ⟨left - 1, by rw [length_cons] at hleft; omega⟩
    rw [length_cons] at hleft
    have hc : [c] ≠ [0x00] := fun heq => hps (by rw [(List.cons.inj heq).1]; exact mem_cons_self)
    have hfront' : (front ++ [c]).length = pos + 1 := by
      rw [length_append, hfront]
      rfl
    have hnext := ih hfront' (fun hmem => hps (mem_cons_of_mem _ hmem))
      (show ps.length < left by omega)
    rw [append_assoc, singleton_append] at hnext
    unfold pkcs1SkipPs
    rw [cons_append, bind_ok (load_one hfront)]
    dsimp only
    rw [if_neg hc, hnext, length_cons, Nat.add_assoc, Nat.add_comm 1]

theorem pkcs1SkipPs_end {pos : Nat} {front ps : Bytes} (rest : Bytes) (hfront : front.length = pos)
    (hps : 0 ∉ ps) :
    pkcs1SkipPs ps.length pos (front ++ (ps ++ rest)) =
      if rest = [] then .error ⟨pos + ps.length, 1⟩ else .ok (pos + ps.length, front ++ (ps ++ rest)) := by
  induction ps generalizing pos front with
  | nil =>
    unfold pkcs1SkipPs
    cases rest with
    | nil =>
      have hload : load pos 1 (front ++ ([] ++ [])) = .error ⟨pos, 1⟩ := by
        refine load_error ?_
        rw [append_nil, append_nil]
        omega
      rw [bind_error hload]
      rfl
    | cons c rest =>
      rw [nil_append, bind_ok (load_one hfront)]
      rfl
  | cons c ps ih =>
    have hc : [c] ≠ [0x00] := fun heq => hps (by rw [(List.cons.inj heq).1]; exact mem_cons_self)
    have hfront' : (front ++ [c]).length = pos + 1 := by
      rw [length_append, hfront]
      rfl
    have hnext := ih hfront' (fun hmem => hps (mem_cons_of_mem _ hmem))
    rw [append_assoc, singleton_append] at hnext
    unfold pkcs1SkipPs
    rw [cons_append, bind_ok (load_one hfront)]
    rw [length_cons]
    dsimp only
    rw [if_neg hc, hnext, Nat.add_assoc, Nat.add_comm 1]

theorem pkcs1Strip_ok {front data : Bytes} {pos outlen : Nat} (rest : Bytes) (hfront : front.length = pos)
    (houtlen : outlen = pos + 1 + data.length) : ∃ rest',
    (do
      let octets ← load (pos + 1) (outlen - (pos + 1))
      store 0 octets
      return Except.ok (outlen - (pos + 1)) : BufferM (Except Nat Nat)) (front ++ 0x00 :: (data ++ rest)) =
        .ok (.ok data.length, data ++ rest') := by
  have hlen : outlen - (pos + 1) = data.length := by omega
  have hsplit : front ++ 0x00 :: (data ++ rest) = (front ++ [0x00]) ++ (data ++ rest) := by simp
  have hload : load (pos + 1) (outlen - (pos + 1)) ((front ++ [0x00]) ++ (data ++ rest)) = .ok (data, _) :=
    load_middle (by rw [length_append, hfront]; rfl) hlen.symm
  have hstore : store 0 data ((front ++ [0x00]) ++ (data ++ rest)) = .ok ((), _) :=
    store_ok (by simp; omega)
  rw [hsplit, bind_ok hload, bind_ok hstore, overwrite_zero, hlen]
  exact ⟨_, rfl⟩

theorem pkcs1StripPs_block {ps : Bytes} (data rest : Bytes) (hps : 0 ∉ ps) (height : 8 ≤ ps.length) : ∃ rest',
    pkcs1StripPs (pkcs1Block 2 ps data).length (pkcs1Block 2 ps data ++ rest) =
      .ok (.ok data.length, data ++ rest') := by
  have hlen := pkcs1Block_length 2 ps data
  have hbuf : pkcs1Block 2 ps data ++ rest = [0x00, 0x02] ++ (ps ++ 0x00 :: (data ++ rest)) := by
    simp [pkcs1Block]
  have hhead : load 0 2 ([0x00, 0x02] ++ (ps ++ 0x00 :: (data ++ rest))) = .ok ([0x00, 0x02], _) :=
    load_front rfl
  have hskip : pkcs1SkipPs ((pkcs1Block 2 ps data).length - 2) 2 _ = .ok (2 + ps.length, _) :=
    pkcs1SkipPs_separator (data ++ rest) (show ([0x00, 0x02] : Bytes).length = 2 from rfl) hps (by omega)
  have hfront : ([0x00, 0x02] ++ ps : Bytes).length = 2 + ps.length := length_append
  have hstrip := pkcs1Strip_ok rest hfront hlen
  rw [append_assoc] at hstrip
  rw [hbuf]
  unfold pkcs1StripPs
  rw [if_neg (by omega), bind_ok hhead, if_neg (not_not.mpr rfl), bind_ok hskip, if_neg (by omega),
    if_neg (by omega)]
  exact hstrip

theorem pkcs1StripPs_end {ps : Bytes} (rest : Bytes) (hps : 0 ∉ ps) :
    pkcs1StripPs (2 + ps.length) (0x00 :: 0x02 :: ps ++ rest) =
      if rest = [] then .error ⟨2 + ps.length, 1⟩
      else .ok (.error (2 + ps.length), 0x00 :: 0x02 :: ps ++ rest) := by
  have hbuf : 0x00 :: 0x02 :: ps ++ rest = [0x00, 0x02] ++ (ps ++ rest) := rfl
  have hhead : load 0 2 ([0x00, 0x02] ++ (ps ++ rest)) = .ok ([0x00, 0x02], _) := load_front rfl
  have hskip := pkcs1SkipPs_end rest (show ([0x00, 0x02] : Bytes).length = 2 from rfl) hps
  unfold pkcs1StripPs
  rw [hbuf, if_neg (by omega), bind_ok hhead, if_neg (not_not.mpr rfl), Nat.add_sub_cancel_left]
  by_cases hrest : rest = []
  · rw [if_pos hrest] at hskip ⊢
    rw [bind_error hskip]
  · rw [if_neg hrest] at hskip ⊢
    rw [bind_ok hskip, if_pos rfl]
    rfl

theorem pkcs1StripPs_short {ps : Bytes} (data rest : Bytes) (hps : 0 ∉ ps) (height : ps.length < 8) :
    pkcs1StripPs (pkcs1Block 2 ps data).length (pkcs1Block 2 ps data ++ rest) =
      .ok (.error (pkcs1Block 2 ps data).length, pkcs1Block 2 ps data ++ rest) := by
  have hlen := pkcs1Block_length 2 ps data
  have hbuf : pkcs1Block 2 ps data ++ rest = [0x00, 0x02] ++ (ps ++ 0x00 :: (data ++ rest)) := by
    simp [pkcs1Block]
  have hhead : load 0 2 ([0x00, 0x02] ++ (ps ++ 0x00 :: (data ++ rest))) = .ok ([0x00, 0x02], _) :=
    load_front rfl
  have hskip : pkcs1SkipPs ((pkcs1Block 2 ps data).length - 2) 2 _ = .ok (2 + ps.length, _) :=
    pkcs1SkipPs_separator (data ++ rest) (show ([0x00, 0x02] : Bytes).length = 2 from rfl) hps (by omega)
  rw [hbuf]
  unfold pkcs1StripPs
  rw [if_neg (by omega), bind_ok hhead, if_neg (not_not.mpr rfl), bind_ok hskip, if_neg (by omega),
    if_pos (by omega)]
  rfl

theorem pkcs1StripPs_inside_iff (plain rest : Bytes) :
    Inside (pkcs1StripPs plain.length) (plain ++ rest) ↔
      ¬ (rest = [] ∧ ∃ ps, 0 ∉ ps ∧ plain = 0x00 :: 0x02 :: ps) := by
  have hother (hrun : ∃ r, pkcs1StripPs plain.length (plain ++ rest) = .ok r)
      (hplain : ∀ ps, 0 ∉ ps → plain ≠ 0x00 :: 0x02 :: ps) :
      Inside (pkcs1StripPs plain.length) (plain ++ rest) ↔
        ¬ (rest = [] ∧ ∃ ps, 0 ∉ ps ∧ plain = 0x00 :: 0x02 :: ps) := by
    obtain ⟨r, hrun⟩ := hrun
    refine iff_of_true (inside_of_ok hrun) ?_
    rintro ⟨_, ps, hps, heq⟩
    exact hplain ps hps heq
  by_cases hshort : plain.length < 2
  · refine hother ⟨(.error plain.length, plain ++ rest), ?_⟩ ?_
    · unfold pkcs1StripPs
      rw [if_pos hshort]
      rfl
    · rintro ps _ rfl
      rw [length_cons, length_cons] at hshort
      omega
  obtain ⟨a, b, tail, rfl⟩ : ∃ a b tail, plain = a :: b :: tail := by
    match plain, hshort with
    | [], h => exact absurd (Nat.zero_lt_succ 1) h
    | [_], h => exact absurd (Nat.lt_add_one 1) h
    | a :: b :: tail, _ => exact ⟨a, b, tail, rfl⟩
  by_cases hhead : [a, b] = [0x00, 0x02]
  swap
  · refine hother ⟨(.error (a :: b :: tail).length, a :: b :: tail ++ rest), ?_⟩ ?_
    · have hload : load 0 2 (a :: b :: tail ++ rest) = .ok ([a, b], a :: b :: tail ++ rest) :=
        load_front (b := [a, b]) rfl
      unfold pkcs1StripPs
      rw [if_neg hshort, bind_ok hload, if_pos hhead]
      rfl
    · intro ps _ heq
      injection heq with ha hrest
      injection hrest with hb _
      exact hhead (by rw [ha, hb])
  obtain ⟨rfl, rfl⟩ : a = 0x00 ∧ b = 0x02 := by simpa using hhead
  by_cases hzero : (0x00 : UInt8) ∈ tail
  · obtain ⟨ps, data, rfl, hps⟩ := eq_append_cons_of_mem hzero
    refine hother ?_ ?_
    · by_cases height : 8 ≤ ps.length
      · obtain ⟨rest', hrun⟩ := pkcs1StripPs_block data rest hps height
        exact ⟨_, hrun⟩
      · exact ⟨_, pkcs1StripPs_short data rest hps (by omega)⟩
    · intro ps' hps' heq
      injection heq with _ heq
      injection heq with _ heq
      exact hps' (heq ▸ hzero)
  · have hend := pkcs1StripPs_end rest hzero
    rw [show (0x00 :: 0x02 :: tail : Bytes).length = 2 + tail.length from Nat.add_comm _ 2]
    by_cases hrest : rest = []
    · rw [if_pos hrest] at hend
      exact iff_of_false (not_inside_of_error hend) (not_not.mpr ⟨hrest, tail, hzero, rfl⟩)
    · rw [if_neg hrest] at hend
      exact iff_of_true (inside_of_ok hend) fun h => hrest h.1

theorem pkcs1SkipFf_eq {pos : Nat} {front : Bytes} (tail rest : Bytes) (hfront : front.length = pos) :
    pkcs1SkipFf tail.length pos (front ++ (tail ++ rest)) =
      .ok (pos + (tail.takeWhile (· = 0xff)).length, front ++ (tail ++ rest)) := by
  induction tail generalizing pos front with
  | nil => rfl
  | cons c tail ih =>
    unfold pkcs1SkipFf
    rw [length_cons, cons_append]
    dsimp only
    rw [bind_ok (load_one hfront)]
    by_cases hc : c = 0xff
    · have hfront' : (front ++ [c]).length = pos + 1 := by
        rw [length_append, hfront]
        rfl
      have hnext := ih hfront'
      rw [append_assoc, singleton_append] at hnext
      rw [if_pos (by rw [hc]), hnext, takeWhile_cons_of_pos (by simpa using hc), length_cons,
        Nat.add_assoc, Nat.add_comm 1]
    · rw [if_neg (fun heq => hc (List.cons.inj heq).1), takeWhile_cons_of_neg (by simpa using hc)]
      rfl

theorem pkcs1StripFf_block {k : Nat} {data : Bytes} (rest : Bytes) (hk : 8 ≤ k) (hdata : 16 ≤ data.length)
    (plainLen : Nat) : ∃ rest', pkcs1StripFf (paddedBlock k data).length plainLen (paddedBlock k data ++ rest) =
      .ok (.ok data.length, data ++ rest') := by
  obtain ⟨j, rfl⟩ : ∃ j, k = j + 1 := ⟨k - 1, by omega⟩
  have hlen : (paddedBlock (j + 1) data).length = 3 + j + 1 + data.length := by
    simp [paddedBlock]
    omega
  have hsplit : paddedBlock (j + 1) data ++ rest =
      ([0x00, 0x01, 0xff] ++ List.replicate j 0xff) ++ 0x00 :: (data ++ rest) := by
    simp [paddedBlock, replicate_succ]
  have hhead : load 0 2 (paddedBlock (j + 1) data ++ rest) =
      .ok ([0x00, 0x01], paddedBlock (j + 1) data ++ rest) := load_front (b := [0x00, 0x01]) rfl
  have hfirst : load 2 1 (paddedBlock (j + 1) data ++ rest) = .ok ([0xff], paddedBlock (j + 1) data ++ rest) :=
    load_one (a := [0x00, 0x01]) rfl
  have hskip : pkcs1SkipFf ((paddedBlock (j + 1) data).length - 3) 3 (paddedBlock (j + 1) data ++ rest) =
      .ok (3 + j, paddedBlock (j + 1) data ++ rest) := by
    have hrun := pkcs1SkipFf_eq (List.replicate j 0xff ++ 0x00 :: data) rest
      (show ([0x00, 0x01, 0xff] : Bytes).length = 3 from rfl)
    rw [takeWhile_run (by decide), length_replicate] at hrun
    exact hrun
  have hfront : ([0x00, 0x01, 0xff] ++ List.replicate j 0xff : Bytes).length = 3 + j := by
    rw [length_append, length_replicate]
    rfl
  have hsep : load (3 + j) 1 (paddedBlock (j + 1) data ++ rest) =
      .ok ([0x00], paddedBlock (j + 1) data ++ rest) := by
    rw [hsplit]
    exact load_one hfront
  have hstrip := pkcs1Strip_ok rest hfront hlen
  rw [← hsplit] at hstrip
  unfold pkcs1StripFf
  rw [if_neg (by omega), bind_ok hhead, if_neg (not_not.mpr rfl), bind_ok hfirst, if_neg (not_not.mpr rfl),
    bind_ok hskip, if_neg (by omega), if_neg (by omega), bind_ok hsep, if_neg (not_not.mpr rfl)]
  exact hstrip

theorem pkcs1StripFf_other {plain : Bytes} (rest : Bytes) (plainLen : Nat)
    (h : ∀ k data, 8 ≤ k → 16 ≤ data.length → plain ≠ paddedBlock k data) :
    pkcs1StripFf plain.length plainLen (plain ++ rest) = .ok (.error plainLen, plain ++ rest) := by
  unfold pkcs1StripFf
  by_cases hshort : plain.length < 3 + 8 + 16
  · rw [if_pos hshort]
    rfl
  obtain ⟨a, b, c, tail, rfl⟩ : ∃ a b c tail, plain = a :: b :: c :: tail := by
    match plain, hshort with
    | a :: b :: c :: tail, _ => exact ⟨a, b, c, tail, rfl⟩
    | [], h | [_], h | [_, _], h => simp at h
  have hhead : load 0 2 (a :: b :: c :: tail ++ rest) = .ok ([a, b], a :: b :: c :: tail ++ rest) :=
    load_front (b := [a, b]) rfl
  have hfirst : load 2 1 (a :: b :: c :: tail ++ rest) = .ok ([c], a :: b :: c :: tail ++ rest) :=
    load_one (a := [a, b]) rfl
  have hskip : pkcs1SkipFf ((a :: b :: c :: tail).length - 3) 3 (a :: b :: c :: tail ++ rest) =
      .ok (3 + (tail.takeWhile (· = 0xff)).length, a :: b :: c :: tail ++ rest) :=
    pkcs1SkipFf_eq tail rest (show [a, b, c].length = 3 from rfl)
  rw [if_neg hshort, bind_ok hhead]
  by_cases hab : [a, b] = [0x00, 0x01]
  swap
  · rw [if_pos hab]
    rfl
  rw [if_neg (not_not.mpr hab), bind_ok hfirst]
  by_cases hc : [c] = [0xff]
  swap
  · rw [if_pos hc]
    rfl
  rw [if_neg (not_not.mpr hc), bind_ok hskip]
  have hrun := run_append_drop tail
  generalize (tail.takeWhile (· = 0xff)).length = t at hrun ⊢
  by_cases hps : 3 + t - 2 < 8
  · rw [if_pos hps]
    rfl
  by_cases hroom : (a :: b :: c :: tail).length ≤ 3 + t + 16
  · rw [if_neg hps, if_pos hroom]
    rfl
  rw [if_neg hps, if_neg hroom]
  rw [length_cons, length_cons, length_cons] at hroom
  obtain ⟨s, data, hdrop⟩ := exists_cons_of_length_pos (l := tail.drop t) (by rw [length_drop]; omega)
  rw [hdrop] at hrun
  have hlen := congrArg List.length hdrop
  rw [length_drop, length_cons] at hlen
  have hbuf : a :: b :: c :: tail ++ rest = (a :: b :: c :: List.replicate t 0xff) ++ s :: (data ++ rest) := by
    rw [hrun]
    simp
  have hsep : load (3 + t) 1 (a :: b :: c :: tail ++ rest) = .ok ([s], a :: b :: c :: tail ++ rest) := by
    rw [hbuf]
    exact load_one (by simp; omega)
  rw [bind_ok hsep]
  by_cases hs : [s] = [0x00]
  swap
  · rw [if_pos hs]
    rfl
  -- every check has passed, so the block has the form
  obtain ⟨rfl, rfl⟩ : a = 0x00 ∧ b = 0x01 := by simpa using hab
  obtain rfl := (List.cons.inj hc).1
  obtain rfl := (List.cons.inj hs).1
  refine absurd ?_ (h (t + 1) data (by omega) (by omega))
  rw [hrun]
  rfl

/-! ## Both functions -/

section Decrypt

variable {key : RsaKey} {input buf : Bytes} {v : Nat}

theorem pkcs1V15PrivateKeyDecrypt_eq (input buf : Bytes) (hinput : beNat input ≤ key.pub.n)
    (hpower : key.power true (beNat input) = some v) (hlen : key.modlen ≤ buf.length)
    (hv : numBytes v ≤ key.modlen) :
    pkcs1V15PrivateKeyDecrypt key input buf.length buf =
      pkcs1StripPs key.modlen (natBe key.modlen v ++ buf.drop key.modlen) :=
  bind_ok (rsaExptmod_ok buf hinput hpower hlen hv)

theorem pkcs1DecryptPublic_eq (input buf : Bytes) (hinput : beNat input ≤ key.pub.n)
    (hpower : key.power false (beNat input) = some v) (hlen : key.modlen ≤ buf.length)
    (hv : numBytes v ≤ key.modlen) :
    pkcs1DecryptPublic key input buf.length buf =
      pkcs1StripFf key.modlen buf.length (natBe key.modlen v ++ buf.drop key.modlen) :=
  bind_ok (rsaExptmod_ok buf hinput hpower hlen hv)

theorem pkcs1DecryptPublic_inside (key : RsaKey) (crypt buf : Bytes) :
    Inside (pkcs1DecryptPublic key crypt buf.length) buf := by
  rcases rsaExptmod_cases key false crypt buf with ⟨len, hfail⟩ | ⟨v, hinput, hpower, hlen, hv⟩
  · have hrun : pkcs1DecryptPublic key crypt buf.length buf = .ok (.error buf.length, buf) := bind_ok hfail
    exact inside_of_ok hrun
  · have hrun := pkcs1DecryptPublic_eq crypt buf hinput hpower hlen hv
    have hblock : (natBe key.modlen v).length = key.modlen := natBe_length _ _
    by_cases hform : ∃ k data, 8 ≤ k ∧ 16 ≤ data.length ∧ natBe key.modlen v = paddedBlock k data
    · obtain ⟨k, data, hk, hdata, hplain⟩ := hform
      obtain ⟨rest, hstrip⟩ := pkcs1StripFf_block (buf.drop key.modlen) hk hdata buf.length
      rw [← hplain, hblock] at hstrip
      exact inside_of_ok (hrun.trans hstrip)
    · push Not at hform
      have hstrip := pkcs1StripFf_other (buf.drop key.modlen) buf.length hform
      rw [hblock] at hstrip
      exact inside_of_ok (hrun.trans hstrip)

/-- The input is turned into a padding of type 2 that does not end, and the buffer ends with it. -/
def Unended (key : RsaKey) (input buf : Bytes) : Prop :=
  buf.length = key.modlen ∧ beNat input ≤ key.pub.n ∧
    ∃ ps, 0 ∉ ps ∧ ps.length + 2 = key.modlen ∧ key.power true (beNat input) = some (beNat (0x00 :: 0x02 :: ps))

theorem pkcs1V15PrivateKeyDecrypt_inside_iff :
    Inside (pkcs1V15PrivateKeyDecrypt key input buf.length) buf ↔ ¬ Unended key input buf := by
  rcases rsaExptmod_cases key true input buf with ⟨len, hfail⟩ | ⟨v, hinput, hpower, hlen, hv⟩
  · have hrun : pkcs1V15PrivateKeyDecrypt key input buf.length buf = .ok (.error len, buf) := bind_ok hfail
    refine iff_of_true (inside_of_ok hrun) ?_
    rintro ⟨hbuf, hinput, ps, _, hps, hpower⟩
    have hok := rsaExptmod_ok buf hinput hpower hbuf.ge ?_
    · rw [hfail] at hok
      cases hok
    · refine numBytes_le ?_
      have hlt := beNat_lt (0x00 :: 0x02 :: ps)
      rwa [show (0x00 :: 0x02 :: ps : Bytes).length = key.modlen from hps] at hlt
  · have hrun := pkcs1V15PrivateKeyDecrypt_eq input buf hinput hpower hlen hv
    have hblock : (natBe key.modlen v).length = key.modlen := natBe_length _ _
    have hstrip := pkcs1StripPs_inside_iff (natBe key.modlen v) (buf.drop key.modlen)
    rw [hblock] at hstrip
    unfold Inside wp at hstrip ⊢
    rw [hrun, hstrip, not_iff_not, drop_eq_nil_iff]
    have hvalue : v < 256 ^ key.modlen := (lt_pow_numBytes v).trans_le (Nat.pow_le_pow_right (by decide) hv)
    constructor
    · rintro ⟨hend, ps, hps, hplain⟩
      refine ⟨Nat.le_antisymm hend hlen, hinput, ps, hps, ?_, ?_⟩
      · rw [hplain] at hblock
        exact hblock
      · rw [← hplain, beNat_natBe hvalue]
        exact hpower
    · rintro ⟨hbuf, _, ps, hps, hlength, hpower'⟩
      rw [hpower, Option.some_inj] at hpower'
      refine ⟨hbuf.le, ps, hps, ?_⟩
      rw [hpower']
      exact natBe_beNat hlength

theorem pkcs1_private_round_trip {random : OsGetRandom} {out out' : Bytes} (hinv : key.Inverse)
    (hmod : 12 ≤ key.modlen) (hinput : input.length + 11 ≤ key.modlen) (hout : key.modlen ≤ out.length)
    (hout' : key.modlen ≤ out'.length) (hrandom : (random (key.modlen - input.length - 3)).isSome) :
    ∃ crypt, Yields (pkcs1Encrypt random 2 key false input out.length) out crypt ∧
      Yields (pkcs1V15PrivateKeyDecrypt key crypt out'.length) out' input := by
  obtain ⟨ps, hps, hzero⟩ := pkcs1Padding_two hrandom
  have hpslen := pkcs1Padding_length hps
  have hblock : (pkcs1Block 2 ps input).length = key.modlen := by
    rw [pkcs1Block_length]
    omega
  have hbelow : beNat (pkcs1Block 2 ps input) < key.pub.n := RsaKey.beNat_lt hblock
  obtain ⟨c, hc, hpublic, hprivate⟩ := hinv.of_public _ hbelow
  refine ⟨natBe key.modlen c, pkcs1Encrypt_ok hmod hinput hout hps hc hpublic, ?_⟩
  have hcrypt : beNat (natBe key.modlen c) = c := beNat_natBe (hc.trans (lt_pow_numBytes key.pub.n))
  have hrun := pkcs1V15PrivateKeyDecrypt_eq (natBe key.modlen c) out' (by rw [hcrypt]; omega)
    (by rw [hcrypt]; exact hprivate) hout' (RsaKey.numBytes_le_modlen hbelow)
  obtain ⟨rest, hstrip⟩ := pkcs1StripPs_block input (out'.drop key.modlen) hzero (by omega)
  rw [hblock] at hstrip
  rw [natBe_beNat hblock] at hrun
  exact ⟨rest, hrun.trans hstrip⟩

theorem pkcs1_public_round_trip {random : OsGetRandom} {out out' : Bytes} (hinv : key.Inverse)
    (hmin : 16 ≤ input.length) (hinput : input.length + 11 ≤ key.modlen) (hout : key.modlen ≤ out.length)
    (hout' : key.modlen ≤ out'.length) :
    ∃ crypt, Yields (pkcs1Encrypt random 1 key true input out.length) out crypt ∧
      Yields (pkcs1DecryptPublic key crypt out'.length) out' input := by
  have hps : pkcs1Padding random 1 (key.modlen - input.length - 3) =
      some (List.replicate (key.modlen - input.length - 3) 0xff) := rfl
  have hblock : (paddedBlock (key.modlen - input.length - 3) input).length = key.modlen := by
    rw [show paddedBlock _ _ = pkcs1Block 1 _ _ from rfl, pkcs1Block_length, length_replicate]
    omega
  have hbelow : beNat (paddedBlock (key.modlen - input.length - 3) input) < key.pub.n := RsaKey.beNat_lt hblock
  obtain ⟨c, hc, hprivate, hpublic⟩ := hinv.of_private _ hbelow
  refine ⟨natBe key.modlen c, pkcs1Encrypt_ok (by omega) hinput hout hps hc hprivate, ?_⟩
  have hcrypt : beNat (natBe key.modlen c) = c := beNat_natBe (hc.trans (lt_pow_numBytes key.pub.n))
  have hrun := pkcs1DecryptPublic_eq (natBe key.modlen c) out' (by rw [hcrypt]; omega)
    (by rw [hcrypt]; exact hpublic) hout' (RsaKey.numBytes_le_modlen hbelow)
  have hpadding : 8 ≤ key.modlen - input.length - 3 := by omega
  obtain ⟨rest, hstrip⟩ := pkcs1StripFf_block (out'.drop key.modlen) hpadding hmin out'.length
  rw [hblock] at hstrip
  rw [natBe_beNat hblock] at hrun
  exact ⟨rest, hrun.trans hstrip⟩

theorem pkcs1Encrypt_short {random : OsGetRandom} {blockType : Int} {usePrivate : Bool}
    (hmod : key.modlen < 12) :
    pkcs1Encrypt random blockType key usePrivate input buf.length buf = .ok (.error buf.length, buf) := by
  have hblock : pkcs1GenerateEncryptionBlock random (UInt8.ofInt blockType) key.modlen input buf.length buf =
      .ok (false, buf) := by
    unfold pkcs1GenerateEncryptionBlock
    rw [if_pos (.inl hmod)]
    rfl
  exact bind_ok hblock

end Decrypt

def mersenneKey : RsaKey where
  pub := { n := (2 ^ 127 - 1) * (2 ^ 89 - 1), e := 11 }
  priv := some
    { p := 2 ^ 127 - 1
      q := 2 ^ 89 - 1
      dmp1 := 30934760629176223951215873402888019223
      dmq1 := 450160014285592827236045171
      iqmp := 41543446089800687764988346889150465 }

theorem mersenneKey_modlen : mersenneKey.modlen = 27 := by decide

theorem mersenneKey_inverse : mersenneKey.Inverse := by
  refine RsaKey.inverse_of_exponents rfl ⟨?_, ?_, by decide, by decide, by decide, by decide, by decide⟩
  · exact lucas_lehmer_sufficiency 127 (by simp) (by norm_num)
  · exact lucas_lehmer_sufficiency 89 (by simp) (by norm_num)

/-- The encrypted block `00 02 5a … 5a`, which has no separator. -/
def unendedCrypt : Bytes :=
  [244, 188, 231, 217, 100, 230, 146, 178, 82, 205, 247, 23, 117, 51, 70, 173, 2, 1, 153, 120, 201, 249, 51, 18,
    146, 225, 246]

/-- With a buffer of the length of the modulus, the octet behind it is read. -/
theorem pkcs1V15PrivateKeyDecrypt_outside :
    pkcs1V15PrivateKeyDecrypt mersenneKey unendedCrypt (zeros 27).length (zeros 27) = .error ⟨27, 1⟩ := by
  have hbelow : beNat (0x00 :: 0x02 :: List.replicate 25 0x5a) < mersenneKey.pub.n := by decide
  obtain ⟨c, hc, hpublic, hprivate⟩ := mersenneKey_inverse.of_public _ hbelow
  have hcrypt : beNat unendedCrypt = c := by
    have hpower : mersenneKey.power false (beNat (0x00 :: 0x02 :: List.replicate 25 0x5a)) =
        some (beNat unendedCrypt) := by decide
    rw [hpower, Option.some_inj] at hpublic
    exact hpublic
  have hrun := pkcs1V15PrivateKeyDecrypt_eq unendedCrypt (zeros 27) (by rw [hcrypt]; omega)
    (by rw [hcrypt]; exact hprivate) (by rw [mersenneKey_modlen]; decide) (RsaKey.numBytes_le_modlen hbelow)
  have hend := pkcs1StripPs_end [] (show 0 ∉ List.replicate 25 (0x5a : UInt8) by decide)
  rw [mersenneKey_modlen, natBe_beNat (by decide)] at hrun
  exact hrun.trans hend

/-- Messages go through both round trips, with a modulus that is long enough for a block. The function with the
public key stays within its buffer, that with the private key unless the padding does not end and the buffer
does. -/
theorem pkcs1_blocks_iff (random : OsGetRandom) (key : RsaKey) :
    (key.Inverse →
      (∀ message out out' : Bytes, message.length + 11 ≤ key.modlen → key.modlen ≤ out.length →
        key.modlen ≤ out'.length → (random (key.modlen - message.length - 3)).isSome →
        ((∃ crypt, Yields (pkcs1Encrypt random 2 key false message out.length) out crypt ∧
          Yields (pkcs1V15PrivateKeyDecrypt key crypt out'.length) out' message) ↔ 12 ≤ key.modlen)) ∧
      ∀ message out out' : Bytes, 16 ≤ message.length → message.length + 11 ≤ key.modlen →
        key.modlen ≤ out.length → key.modlen ≤ out'.length →
        ∃ crypt, Yields (pkcs1Encrypt random 1 key true message out.length) out crypt ∧
          Yields (pkcs1DecryptPublic key crypt out'.length) out' message) ∧
    (∀ crypt buf : Bytes, Inside (pkcs1DecryptPublic key crypt buf.length) buf) ∧
    ∀ input buf : Bytes,
      Inside (pkcs1V15PrivateKeyDecrypt key input buf.length) buf ↔ ¬ Unended key input buf := by
  refine ⟨fun hinv => ⟨?_, ?_⟩, pkcs1DecryptPublic_inside key, fun _ _ => pkcs1V15PrivateKeyDecrypt_inside_iff⟩
  · intro message out out' hmessage hout hout' hrandom
    constructor
    · rintro ⟨crypt, ⟨rest, hrun⟩, _⟩
      by_contra hmod
      rw [pkcs1Encrypt_short (by omega)] at hrun
      cases hrun
    · intro hmod
      exact pkcs1_private_round_trip hinv hmod hmessage hout hout' hrandom
  · intro message out out' hmin hmessage hout hout'
    exact pkcs1_public_round_trip hinv hmin hmessage hout hout'

theorem pkcs1_blocks_iff_mersenneKey :
    (∃ crypt, Yields (pkcs1Encrypt (fun _ => some (List.Vector.replicate _ 0)) 2 mersenneKey false [1, 2, 3]
        (zeros 27).length) (zeros 27) crypt ∧
      Yields (pkcs1V15PrivateKeyDecrypt mersenneKey crypt (zeros 27).length) (zeros 27) [1, 2, 3]) ∧
    (∃ crypt, Yields (pkcs1Encrypt (fun _ => some (List.Vector.replicate _ 0)) 1 mersenneKey true
        (List.replicate 16 7) (zeros 27).length) (zeros 27) crypt ∧
      Yields (pkcs1DecryptPublic mersenneKey crypt (zeros 27).length) (zeros 27) (List.replicate 16 7)) ∧
    Inside (pkcs1DecryptPublic mersenneKey unendedCrypt (zeros 27).length) (zeros 27) ∧
    Inside (pkcs1V15PrivateKeyDecrypt mersenneKey unendedCrypt (zeros 28).length) (zeros 28) := by
  have hall := pkcs1_blocks_iff (fun _ => some (List.Vector.replicate _ 0)) mersenneKey
  have hmod := mersenneKey_modlen
  refine ⟨?_, ?_, hall.2.1 unendedCrypt (zeros 27), ?_⟩
  · refine ((hall.1 mersenneKey_inverse).1 [1, 2, 3] (zeros 27) (zeros 27) ?_ ?_ ?_ rfl).mpr ?_
    all_goals rw [hmod]
    all_goals decide
  · refine (hall.1 mersenneKey_inverse).2 (List.replicate 16 7) (zeros 27) (zeros 27) (by decide) ?_ ?_ ?_
    all_goals rw [hmod]
    all_goals decide
  · rw [hall.2.2 unendedCrypt (zeros 28)]
    rintro ⟨hlength, -⟩
    rw [hmod] at hlength
    exact absurd hlength (by decide)

end Hostap
