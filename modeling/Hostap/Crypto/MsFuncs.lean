import Hostap.Crypto.Rc4

/-!
# The password block of MS-CHAPv2

`utf8_to_ucs2` and `encrypt_pw_block_with_password_hash` (`crypto/ms_funcs.c`). The block holds the password
as UCS-2, right-aligned in 512 octets behind random ones, and its length. The password is placed by the
number of its characters, but the length is computed from the number of octets of its UTF-8 form. The two
agree exactly for the characters below 0x80 (`pwBlockPassword_eq_iff`).
-/

namespace Hostap

open Octets List

/-- `utf8_to_ucs2()` from a position on, with what is written so far. A test for the last octet is one for
nothing behind it. -/
def utf8ToUcs2 (size : Nat) : (utf8 out : Bytes) → Option Bytes
  | [], out => some out
  | c :: rest, out =>
    if size ≤ out.length then
      none
    else if c ≤ 0x7F then
      utf8ToUcs2 size rest (out ++ le16 c.toNat)
    else
      match rest with
      | [] => none
      | c2 :: rest =>
        if size - 1 ≤ out.length then
          none
        else if c &&& 0xE0 = 0xC0 then
          utf8ToUcs2 size rest (out ++ le16 (((c.toNat &&& 0x1F) <<< 6) ||| (c2.toNat &&& 0x3F)))
        else
          match rest with
          | [] => none
          | c3 :: rest =>
            utf8ToUcs2 size rest (out ++
              le16 (((c.toNat &&& 0xF) <<< 12) ||| ((c2.toNat &&& 0x3F) <<< 6) ||| (c3.toNat &&& 0x3F)))

/-- `encrypt_pw_block_with_password_hash()`. The generator fails, or gives as many octets as are asked
for. -/
def encryptPwBlockWithPasswordHash (draw : Option (Nat → UInt8)) (password passwordHash : Bytes) :
    Option Bytes :=
  match utf8ToUcs2 512 password [] with
  | none => none
  | some ucs2 =>
    let ucs2Len := ucs2.length / 2
    if 256 < ucs2Len then
      none
    else
      let offset := (256 - ucs2Len) * 2
      let front := if offset = 0 then some [] else draw.map fun octet => (List.range offset).map octet
      match front with
      | none => none
      | some front =>
        rc4Skip passwordHash 16 0
          (front ++ ucs2.take (ucs2Len * 2) ++ le16 (password.length * 2) ++ [0, 0])

/-- The reader of a decrypted block: the length behind the 512 octets, and as many octets in front of it. -/
def pwBlockPassword (block : Bytes) : Option Bytes :=
  let len := getLe16 (block.drop 512) + 2 ^ 16 * getLe16 (block.drop 514)
  if 512 < len then none else some (slice block (512 - len) len)

/-! ## UTF-8 -/

def utf8Encode (c : Nat) : Bytes :=
  if c < 0x80 then
    [UInt8.ofNat c]
  else if c < 0x800 then
    [UInt8.ofNat (0xC0 + c / 64), UInt8.ofNat (0x80 + c % 64)]
  else
    [UInt8.ofNat (0xE0 + c / 4096), UInt8.ofNat (0x80 + c / 64 % 64), UInt8.ofNat (0x80 + c % 64)]

def ucs2Encode (c : Nat) : Bytes := le16 c

variable {c : Nat} {cs : List Nat} {out rest : Bytes}

theorem and_low (m k : Nat) (hk : k < 2 ^ m) (b : Nat) : (b * 2 ^ m + k) &&& (2 ^ m - 1) = k := by
  rw [Nat.and_two_pow_sub_one_eq_mod, Nat.mul_add_mod_self_right, Nat.mod_eq_of_lt hk]

theorem continuation_bits (k : Nat) (hk : k < 64) : (UInt8.ofNat (0x80 + k)).toNat &&& 0x3F = k := by
  have hval : (UInt8.ofNat (0x80 + k)).toNat = 2 * 2 ^ 6 + k := by
    rw [UInt8.toNat_ofNat']
    omega
  rw [hval]
  exact and_low 6 k hk 2

theorem shift_or (a b m : Nat) (hb : b < 2 ^ m) : (a <<< m) ||| b = a * 2 ^ m + b := by
  rw [← Nat.shiftLeft_add_eq_or_of_lt hb, Nat.shiftLeft_eq]

theorem utf8ToUcs2_one (hc : c < 0x80) :
    utf8ToUcs2 512 (UInt8.ofNat c :: rest) out =
      if 512 ≤ out.length then none else utf8ToUcs2 512 rest (out ++ ucs2Encode c) := by
  have hval : (UInt8.ofNat c).toNat = c := by
    rw [UInt8.toNat_ofNat']
    omega
  have hsmall : UInt8.ofNat c ≤ 0x7F := by
    rw [UInt8.le_iff_toNat_le, hval]
    exact Nat.le_of_lt_succ hc
  rw [utf8ToUcs2.eq_def]
  simp only []
  rw [if_pos hsmall, hval]
  rfl

theorem lead_large (lead : Nat) (hlarge : 0x80 ≤ lead) (hlead : lead < 0x100) :
    (UInt8.ofNat lead).toNat = lead ∧ ¬ UInt8.ofNat lead ≤ 0x7F := by
  have hval : (UInt8.ofNat lead).toNat = lead := by
    rw [UInt8.toNat_ofNat']
    omega
  refine ⟨hval, ?_⟩
  rw [UInt8.le_iff_toNat_le, hval]
  show ¬ _ ≤ 127
  omega

theorem utf8ToUcs2_two (hc : c < 0x800) (heven : out.length % 2 = 0) :
    utf8ToUcs2 512 (UInt8.ofNat (0xC0 + c / 64) :: UInt8.ofNat (0x80 + c % 64) :: rest) out =
      if 512 ≤ out.length then none else utf8ToUcs2 512 rest (out ++ ucs2Encode c) := by
  obtain ⟨hval, hlarge⟩ := lead_large (0xC0 + c / 64) (by omega) (by omega)
  have hlead : ∀ k : Fin 32, UInt8.ofNat (0xC0 + k) &&& 0xE0 = 0xC0 := by decide
  have hbits : (0xC0 + c / 64) &&& 0x1F = c / 64 := and_low 5 (c / 64) (by omega) 6
  have hor : ((c / 64) <<< 6) ||| (c % 64) = c := by
    rw [shift_or _ _ 6 (show c % 64 < 64 from Nat.mod_lt _ (by decide))]
    omega
  rw [utf8ToUcs2.eq_def]
  simp only []
  rw [if_neg hlarge, if_pos (hlead ⟨c / 64, by omega⟩), hval, hbits,
    continuation_bits _ (Nat.mod_lt _ (by decide)), hor]
  split
  · rfl
  · rw [if_neg (by omega)]
    rfl

theorem utf8ToUcs2_three (hc : c < 0x10000) (heven : out.length % 2 = 0) :
    utf8ToUcs2 512 (UInt8.ofNat (0xE0 + c / 4096) :: UInt8.ofNat (0x80 + c / 64 % 64) ::
        UInt8.ofNat (0x80 + c % 64) :: rest) out =
      if 512 ≤ out.length then none else utf8ToUcs2 512 rest (out ++ ucs2Encode c) := by
  obtain ⟨hval, hlarge⟩ := lead_large (0xE0 + c / 4096) (by omega) (by omega)
  have hlead : ∀ k : Fin 16, UInt8.ofNat (0xE0 + k) &&& 0xE0 ≠ 0xC0 := by decide
  have hbits : (0xE0 + c / 4096) &&& 0xF = c / 4096 := and_low 4 (c / 4096) (by omega) 14
  have hlow : c / 64 % 64 * 2 ^ 6 + c % 64 < 2 ^ 12 := by omega
  have hor : ((c / 4096) <<< 12) ||| ((c / 64 % 64) <<< 6) ||| (c % 64) = c := by
    rw [Nat.or_assoc, shift_or _ _ 6 (show c % 64 < 64 from Nat.mod_lt _ (by decide)), shift_or _ _ 12 hlow]
    omega
  rw [utf8ToUcs2.eq_def]
  simp only []
  rw [if_neg hlarge, if_neg (hlead ⟨c / 4096, by omega⟩), hval, hbits,
    continuation_bits (c / 64 % 64) (Nat.mod_lt _ (by decide)),
    continuation_bits (c % 64) (Nat.mod_lt _ (by decide)), hor]
  split
  · rfl
  · rw [if_neg (by omega)]
    rfl

theorem utf8ToUcs2_char (hc : c < 0x10000) (heven : out.length % 2 = 0) :
    utf8ToUcs2 512 (utf8Encode c ++ rest) out =
      if 512 ≤ out.length then none else utf8ToUcs2 512 rest (out ++ ucs2Encode c) := by
  unfold utf8Encode
  by_cases h1 : c < 0x80
  · rw [if_pos h1]
    exact utf8ToUcs2_one h1
  · rw [if_neg h1]
    by_cases h2 : c < 0x800
    · rw [if_pos h2]
      exact utf8ToUcs2_two h2 heven
    · rw [if_neg h2]
      exact utf8ToUcs2_three hc heven

theorem ucs2_length (cs : List Nat) : (cs.flatMap ucs2Encode).length = 2 * cs.length := by
  induction cs with
  | nil => rfl
  | cons c cs ih =>
    rw [flatMap_cons, length_append, ih, length_cons]
    show 2 + _ = _
    omega

/-- **The decoder.** It accepts up to 256 characters and writes their UCS-2 form. -/
theorem utf8ToUcs2_eq (hcs : ∀ c ∈ cs, c < 0x10000) (hsize : out.length + 2 * cs.length ≤ 512)
    (heven : out.length % 2 = 0) :
    utf8ToUcs2 512 (cs.flatMap utf8Encode) out = some (out ++ cs.flatMap ucs2Encode) := by
  induction cs generalizing out with
  | nil =>
    rw [flatMap_nil, flatMap_nil, append_nil]
    rfl
  | cons c cs ih =>
    have hc : c < 0x10000 := hcs c mem_cons_self
    have hlen : (out ++ ucs2Encode c).length = out.length + 2 := by
      rw [length_append]
      rfl
    rw [length_cons] at hsize
    rw [flatMap_cons, flatMap_cons, utf8ToUcs2_char hc heven, if_neg (by omega),
      ih (fun c' hc' => hcs c' (mem_cons_of_mem c hc')) (by rw [hlen]; omega) (by rw [hlen]; omega),
      append_assoc]

theorem utf8ToUcs2_none (hcs : ∀ c ∈ cs, c < 0x10000) (hout : out.length ≤ 512)
    (hsize : 512 < out.length + 2 * cs.length) (heven : out.length % 2 = 0) :
    utf8ToUcs2 512 (cs.flatMap utf8Encode) out = none := by
  induction cs generalizing out with
  | nil =>
    rw [length_nil] at hsize
    omega
  | cons c cs ih =>
    have hlen : (out ++ ucs2Encode c).length = out.length + 2 := by
      rw [length_append]
      rfl
    rw [length_cons] at hsize
    rw [flatMap_cons, utf8ToUcs2_char (hcs c mem_cons_self) heven]
    split
    · rfl
    · exact ih (fun c' hc' => hcs c' (mem_cons_of_mem c hc')) (by rw [hlen]; omega)
        (by rw [hlen]; omega) (by rw [hlen]; omega)

theorem utf8Encode_length (c : Nat) : 1 ≤ (utf8Encode c).length ∧ (utf8Encode c).length ≤ 3 ∧
    ((utf8Encode c).length = 1 ↔ c < 0x80) := by
  unfold utf8Encode
  by_cases h1 : c < 0x80
  · rw [if_pos h1]
    simp [h1]
  · rw [if_neg h1]
    by_cases h2 : c < 0x800
    · rw [if_pos h2]
      simp [h1]
    · rw [if_neg h2]
      simp [h1]

theorem utf8_length (cs : List Nat) : cs.length ≤ (cs.flatMap utf8Encode).length ∧
    (cs.flatMap utf8Encode).length ≤ 3 * cs.length ∧
    ((cs.flatMap utf8Encode).length = cs.length ↔ ∀ c ∈ cs, c < 0x80) := by
  induction cs with
  | nil => exact ⟨Nat.le_refl _, Nat.le_refl _, iff_of_true rfl fun _ h => absurd h not_mem_nil⟩
  | cons c cs ih =>
    obtain ⟨hmin, hmax, hiff⟩ := ih
    obtain ⟨hmin', hmax', hiff'⟩ := utf8Encode_length c
    rw [flatMap_cons, length_append, length_cons, forall_mem_cons, ← hiff, ← hiff']
    omega

/-! ## The block -/

theorem pwBlockPassword_block {front ucs2 : Bytes} {len : Nat} (hfront : front.length + ucs2.length = 512)
    (hlen : len < 2 ^ 16) : pwBlockPassword (front ++ ucs2 ++ le16 len ++ [0, 0]) =
      if 512 < len then none else some (slice (front ++ ucs2) (512 - len) len) := by
  have htext : (front ++ ucs2).length = 512 := by
    rw [length_append, hfront]
  have hfield : getLe16 (le16 len ++ [0, 0]) = len := by
    show (UInt8.ofNat len).toNat + 256 * (UInt8.ofNat (len / 256)).toNat = len
    rw [UInt8.toNat_ofNat', UInt8.toNat_ofNat']
    omega
  have hdrop : ∀ k, (front ++ ucs2 ++ le16 len ++ [0, 0]).drop (512 + k) = (le16 len ++ [0, 0]).drop k := by
    intro k
    rw [append_assoc _ (le16 len), ← htext, drop_length_add_append]
  have hhigh : getLe16 ((le16 len ++ [0, 0]).drop 2) = 0 := rfl
  unfold pwBlockPassword
  simp only []
  rw [hdrop 0, drop_zero, hdrop 2, hfield, hhigh, Nat.mul_zero, Nat.add_zero]
  split
  · rfl
  · congr 1
    unfold slice
    rw [append_assoc _ (le16 len), drop_append_of_le_length (by omega),
      take_append_of_le_length (by rw [length_drop]; omega)]

/-- The octets in front of a password of `len` characters. -/
def pwBlockFront (octet : Nat → UInt8) (len : Nat) : Bytes := (List.range ((256 - len) * 2)).map octet

theorem pwBlockFront_length (octet : Nat → UInt8) (len : Nat) :
    (pwBlockFront octet len).length = (256 - len) * 2 := by
  unfold pwBlockFront
  rw [length_map, length_range]

theorem encryptPwBlock_eq (octet : Nat → UInt8) (passwordHash : Bytes) (hcs : ∀ c ∈ cs, c < 0x10000)
    (hlen : cs.length ≤ 256) :
    encryptPwBlockWithPasswordHash (some octet) (cs.flatMap utf8Encode) passwordHash =
      some (rc4Apply (rc4Setup passwordHash 16) (pwBlockFront octet cs.length ++ cs.flatMap ucs2Encode ++
        le16 ((cs.flatMap utf8Encode).length * 2) ++ [0, 0])) := by
  have hucs2 := ucs2_length cs
  have hconv := @utf8ToUcs2_eq cs [] hcs (by rw [length_nil]; omega) rfl
  have hhalf : (cs.flatMap ucs2Encode).length / 2 = cs.length := by omega
  have htake : (cs.flatMap ucs2Encode).take (cs.length * 2) = cs.flatMap ucs2Encode :=
    take_of_length_le (by omega)
  have hfront : (if (256 - cs.length) * 2 = 0 then some [] else
      (some octet).map fun octet => (List.range ((256 - cs.length) * 2)).map octet) =
        some (pwBlockFront octet cs.length) := by
    unfold pwBlockFront
    split
    · rename_i hzero
      rw [hzero]
      rfl
    · rfl
  rw [nil_append] at hconv
  rw [encryptPwBlockWithPasswordHash, hconv]
  simp only []
  rw [hhalf, if_neg (by omega), hfront, htake]
  simp only []
  apply if_pos
  refine ⟨by decide, ?_⟩
  rw [length_append, length_append, length_append, pwBlockFront_length, hucs2, le16_length]
  show _ + 2 + 2 < _
  omega

/-- **The password block.** The reader gets the UCS-2 form of the password exactly if all characters are
below 0x80. -/
theorem pwBlockPassword_eq_iff (octet : Nat → UInt8) (passwordHash : Bytes)
    (hcs : ∀ c ∈ cs, c < 0x10000) (haccept : utf8ToUcs2 512 (cs.flatMap utf8Encode) [] ≠ none) :
    ∃ block, encryptPwBlockWithPasswordHash (some octet) (cs.flatMap utf8Encode) passwordHash = some block ∧
      block.length = 516 ∧
      (pwBlockPassword (rc4Apply (rc4Setup passwordHash 16) block) = some (cs.flatMap ucs2Encode) ↔
        ∀ c ∈ cs, c < 0x80) := by
  have hlen : cs.length ≤ 256 := by
    by_contra hlong
    exact haccept (utf8ToUcs2_none hcs (Nat.zero_le _) (by rw [length_nil]; omega) rfl)
  obtain ⟨hmin, hmax, hascii⟩ := utf8_length cs
  have hucs2 := ucs2_length cs
  have hfront : (pwBlockFront octet cs.length).length + (cs.flatMap ucs2Encode).length = 512 := by
    rw [pwBlockFront_length]
    omega
  refine ⟨_, encryptPwBlock_eq octet passwordHash hcs hlen, ?_, ?_⟩
  · rw [rc4Apply_length, length_append, length_append, length_append, hfront]
    rfl
  rw [rc4Apply_twice, pwBlockPassword_block hfront (by omega), ← hascii]
  constructor
  · intro h
    split at h
    · cases h
    · rename_i hfits
      -- the part that is taken has the length of the field
      have hpart := congrArg List.length (Option.some.inj h)
      rw [slice_length (by rw [length_append]; omega), hucs2] at hpart
      omega
  · intro h
    rw [if_neg (by omega)]
    have hoff : 512 - (cs.flatMap utf8Encode).length * 2 = (pwBlockFront octet cs.length).length := by omega
    have hall : (cs.flatMap utf8Encode).length * 2 = (cs.flatMap ucs2Encode).length := by omega
    unfold slice
    rw [hoff, drop_left, hall, take_length]

theorem pwBlockPassword_eq_iff_small :
    ∃ block, encryptPwBlockWithPasswordHash (some fun _ => 7) [0x61, 0x62] (zeros 16) = some block ∧
      block.length = 516 ∧
      (pwBlockPassword (rc4Apply (rc4Setup (zeros 16) 16) block) = some [0x61, 0, 0x62, 0] ↔
        ∀ c ∈ [0x61, 0x62], c < 0x80) :=
  @pwBlockPassword_eq_iff [0x61, 0x62] (fun _ => 7) (zeros 16) (by decide) (by decide)

/-- The password of the one character U+00E9: the length covers two octets of the random ones. -/
theorem pwBlockPassword_latin :
    ∃ block, encryptPwBlockWithPasswordHash (some fun _ => 7) (utf8Encode 0xE9) (zeros 16) = some block ∧
      pwBlockPassword (rc4Apply (rc4Setup (zeros 16) 16) block) = some [7, 7, 0xE9, 0] ∧
      ucs2Encode 0xE9 = [0xE9, 0] := by
  refine ⟨_, @encryptPwBlock_eq [0xE9] (fun _ => 7) (zeros 16) (by decide) (by decide), ?_, rfl⟩
  rw [rc4Apply_twice, pwBlockPassword_block (by rw [pwBlockFront_length]; rfl) (by decide)]
  decide +kernel

end Hostap
