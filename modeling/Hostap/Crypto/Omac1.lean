import Hostap.Crypto.Aes
import Hostap.Lib.Cmac
import Hostap.Lib.Except

/-!
# OMAC1 over a vector of texts

`omac1_aes_vector` (`crypto/aes-omac1.c`) walks through the elements of a vector one octet at a time. The
position is what is left of the element it is in and the elements behind it. An octet is read first, and
then the position moves on if the element has ended, to the next one even if that is empty. So the octet
read next is not one of the vector if an element without octets is followed by one with octets.

`Tidy` says that this is not so. On such vectors the result is the CMAC of the concatenation
(`omac1AesVector_eq_iff`), and on all others an octet outside the elements is read.
-/

namespace Hostap

open Octets Feedback BlockCipher List

/-- The loop of `gf_mulx()` and the shift of the last octet. -/
def shiftLeftOctets : Bytes → Bytes
  | [] => []
  | [a] => [a <<< 1]
  | a :: b :: rest => ((a <<< 1) ||| (b >>> 7)) :: shiftLeftOctets (b :: rest)

/-- `gf_mulx()` -/
def gfMulx (pad : Bytes) : Bytes :=
  let shifted := shiftLeftOctets pad
  if pad.getD 0 0 &&& 0x80 ≠ 0 then shifted.modify 15 (· ^^^ 0x87) else shifted

/-- How a function ends without a result. -/
inductive MacError
  /-- It returns `-1`. -/
  | failed
  /-- It returns `-2` for a tag that does not match. -/
  | mismatch
  /-- An octet or an element outside a vector is read. -/
  | outside
  deriving DecidableEq, Repr

/-- What is left of the element from `pos` to `end`, and the elements behind it. -/
structure OmacPos where
  rest : Bytes
  later : List Bytes

/-- `e++; pos = addr[e]; end = pos + len[e];` -/
def OmacPos.enter : List Bytes → Except MacError OmacPos
  | [] => .error .outside
  | elem :: later => .ok ⟨elem, later⟩

/-- `if (pos >= end)` behind an octet, where `stop` is the test for the last octet of the message. -/
def OmacPos.next (stop : Bool) (rest : Bytes) (later : List Bytes) : Except MacError OmacPos :=
  if rest.isEmpty && !stop then OmacPos.enter later else .ok ⟨rest, later⟩

/-- The loop over octets of `cbc`. With the last octet of the message it stops where it is. -/
def omac1Absorb (last : Bool) : (x : Bytes) → OmacPos → Except MacError (Bytes × OmacPos)
  | [], pos => .ok ([], pos)
  | c :: x, pos => do
    match pos.rest with
    | [] => .error .outside
    | b :: rest =>
      let pos' ← OmacPos.next (x.isEmpty && last) rest pos.later
      let r ← omac1Absorb last x pos'
      .ok ((c ^^^ b) :: r.1, r.2)

/-- `while (left >= AES_BLOCK_SIZE)` -/
def omac1Blocks (ctx : BlockFn 16) :
    (rounds left : Nat) → Bytes → OmacPos → Except MacError (Bytes × OmacPos)
  | 0, _, cbc, pos => .ok (cbc, pos)
  | rounds + 1, left, cbc, pos => do
    let r ← omac1Absorb (left == 16) cbc pos
    omac1Blocks ctx rounds (left - 16) (if 16 < left then ctx r.1 else r.1) r.2

/-- `omac1_aes_vector()` -/
def omac1AesVector (aes : Bytes → BlockFn 16) (key : Bytes) (elems : List Bytes) :
    Except MacError Bytes :=
  match aesInit aes key with
  | none => .error .failed
  | some ctx => do
    let totalLen := elems.flatten.length
    let pos ← OmacPos.enter elems
    let r ← omac1Blocks ctx (totalLen / 16) totalLen (zeros 16) pos
    let left := totalLen % 16
    let pad := gfMulx (ctx (zeros 16))
    if left ≠ 0 ∨ totalLen = 0 then do
      let front ← omac1Absorb true (r.1.take left) r.2
      let cbc := (front.1 ++ r.1.drop left).modify left (· ^^^ 0x80)
      .ok (ctx (xor (gfMulx pad) cbc))
    else
      .ok (ctx (xor pad r.1))

/-- `omac1_aes_128()` -/
def omac1Aes128 (aes : Bytes → BlockFn 16) (key data : Bytes) : Except MacError Bytes :=
  omac1AesVector aes key [data]

/-! ## Doubling -/

theorem shiftLeftOctets_length (pad : Bytes) : (shiftLeftOctets pad).length = pad.length := by
  induction pad using shiftLeftOctets.induct with
  | case1 => rfl
  | case2 a => rfl
  | case3 a b rest ih =>
    rw [shiftLeftOctets, length_cons, ih]
    rfl

theorem toNat_shift_or (a b : UInt8) :
    ((a <<< 1) ||| (b >>> 7)).toNat = (2 * a.toNat + b.toNat / 128) % 256 := by
  have hb := b.toNat_lt
  have hsmall : b.toNat / 128 < 2 ^ 1 := by omega
  have hor := Nat.shiftLeft_add_eq_or_of_lt hsmall (a.toNat % 128)
  have hleft : a.toNat <<< 1 % 2 ^ 8 = (a.toNat % 128) <<< 1 := by
    rw [Nat.shiftLeft_eq, Nat.shiftLeft_eq]
    omega
  rw [UInt8.toNat_or, UInt8.toNat_shiftLeft, UInt8.toNat_shiftRight]
  show a.toNat <<< 1 % 2 ^ 8 ||| b.toNat >>> 7 = _
  rw [hleft, Nat.shiftRight_eq_div_pow, ← hor, Nat.shiftLeft_eq]
  omega

theorem beNat_shiftLeftOctets (pad : Bytes) :
    beNat (shiftLeftOctets pad) = 2 * beNat pad % 256 ^ pad.length := by
  induction pad using shiftLeftOctets.induct with
  | case1 => rfl
  | case2 a =>
    show beNat [a <<< 1] = 2 * beNat [a] % 256 ^ 1
    rw [beNat_cons, beNat_cons]
    show (a <<< 1).toNat * 256 ^ 0 + 0 = _
    rw [UInt8.toNat_shiftLeft]
    show a.toNat <<< 1 % 2 ^ 8 * 256 ^ 0 + 0 = 2 * (a.toNat * 256 ^ 0 + 0) % 256 ^ 1
    rw [Nat.shiftLeft_eq]
    omega
  | case3 a b rest ih =>
    -- the carry into the first octet is the first bit of what is behind it
    have hcarry : b.toNat / 128 = 2 * beNat (b :: rest) / 256 ^ (b :: rest).length := by
      have hrest := beNat_lt rest
      have hmod : b.toNat % 128 ≤ 127 := Nat.le_of_lt_succ (Nat.mod_lt _ (by decide))
      have hsplit : b.toNat * 256 ^ rest.length =
          128 * (b.toNat / 128 * 256 ^ rest.length) + b.toNat % 128 * 256 ^ rest.length := by
        rw [← Nat.mul_assoc, ← Nat.add_mul, Nat.div_add_mod]
      have hlow := Nat.mul_le_mul_right (256 ^ rest.length) hmod
      rw [beNat_cons, length_cons, pow_succ, hsplit]
      have hscale : ∀ q, q * (256 ^ rest.length * 256) = 256 * (q * 256 ^ rest.length) := by
        intro q
        ring
      symm
      apply Nat.div_eq_of_lt_le
      · rw [hscale]
        omega
      · rw [hscale, Nat.add_mul]
        omega
    have hlong : (a :: b :: rest).length = (b :: rest).length + 1 := rfl
    have hpos : 0 < 256 ^ (b :: rest).length := Nat.pow_pos (by decide)
    have hdiv := Nat.div_add_mod (2 * beNat (b :: rest)) (256 ^ (b :: rest).length)
    rw [shiftLeftOctets, beNat_cons, shiftLeftOctets_length, ih, toNat_shift_or, hcarry,
      beNat_cons a, hlong, pow_succ]
    generalize 256 ^ (b :: rest).length = B at *
    generalize beNat (b :: rest) = N at *
    have hsum : 2 * (a.toNat * B + N) = B * (2 * a.toNat + 2 * N / B) + 2 * N % B := by
      rw [Nat.mul_add, Nat.mul_add, Nat.add_assoc, hdiv]
      ring
    rw [hsum, Nat.mod_mul, Nat.mul_add_mod, Nat.mod_mod, Nat.mul_add_div hpos,
      Nat.div_eq_of_lt (Nat.mod_lt _ hpos), Nat.add_zero]
    ring

theorem modify_middle (f : UInt8 → UInt8) (front : Bytes) (c : UInt8) (rest : Bytes) :
    (front ++ c :: rest).modify front.length f = front ++ f c :: rest := by
  induction front with
  | nil => rfl
  | cons b front ih =>
    rw [cons_append, length_cons, modify_succ_cons, ih]
    rfl

theorem natBe_xor (len m : Nat) (v : UInt8) :
    natBe (len + 1) (m ^^^ v.toNat) = (natBe (len + 1) m).modify len (· ^^^ v) := by
  have hv := v.toNat_lt
  have hhigh : (m ^^^ v.toNat) / 256 = m / 256 := by
    have hdiv := Nat.xor_div_two_pow (a := m) (b := v.toNat) (n := 8)
    rwa [Nat.div_eq_of_lt hv, Nat.xor_zero] at hdiv
  have hlow : UInt8.ofNat (m ^^^ v.toNat) = UInt8.ofNat m ^^^ v := by
    rw [UInt8.ofNat_xor, UInt8.ofNat_toNat]
  have hmodify := modify_middle (· ^^^ v) (natBe len (m / 256)) (UInt8.ofNat m) []
  rw [natBe_length] at hmodify
  rw [natBe, natBe, hhigh, hlow, hmodify]

theorem firstBit_iff {pad : Bytes} (h : pad.length = 16) :
    pad.getD 0 0 &&& 0x80 ≠ 0 ↔ 2 ^ 127 ≤ beNat pad := by
  obtain ⟨b, rest, rfl⟩ : ∃ b rest, pad = b :: rest := exists_cons_of_length_eq_add_one h
  have hrest : rest.length = 15 := Nat.succ.inj h
  have hlt := beNat_lt rest
  have hpow : (256 : Nat) ^ 15 = 2 ^ 120 := by decide
  have hbit : ∀ m : Fin 256, UInt8.ofNat m &&& 0x80 ≠ 0 ↔ 128 ≤ m.val := by decide +kernel
  have hb : b &&& 0x80 ≠ 0 ↔ 128 ≤ b.toNat := by
    have hm := hbit ⟨b.toNat, b.toNat_lt⟩
    rwa [UInt8.ofNat_toNat] at hm
  rw [getD_cons_zero, beNat_cons, hrest, hpow, hb]
  rw [hrest, hpow] at hlt
  omega

theorem gfMulx_eq {pad : Bytes} (h : pad.length = 16) : gfMulx pad = dblBlock pad := by
  have hlen : (shiftLeftOctets pad).length = 16 := (shiftLeftOctets_length pad).trans h
  have hpow : (256 : Nat) ^ 16 = 2 ^ 128 := by decide
  have hshift : shiftLeftOctets pad = natBe 16 (2 * beNat pad % 2 ^ 128) := by
    rw [← natBe_beNat hlen, beNat_shiftLeftOctets, h, hpow]
  have hxor := natBe_xor 15 (2 * beNat pad % 2 ^ 128) 0x87
  simp only [gfMulx, dblBlock, dbl128]
  by_cases hbit : 2 ^ 127 ≤ beNat pad
  · rw [if_pos ((firstBit_iff h).2 hbit), if_pos hbit, hshift]
    exact hxor.symm
  · rw [if_neg (fun hf => hbit ((firstBit_iff h).1 hf)), if_neg hbit, Nat.xor_zero, hshift]

/-! ## The walk through the elements -/

def OmacPos.octets (pos : OmacPos) : Bytes := pos.rest ++ pos.later.flatten

/-- No element without octets has one with octets behind it. -/
def Tidy (elems : List Bytes) : Prop := elems.Pairwise fun a b => a = [] → b = []

instance (elems : List Bytes) : Decidable (Tidy elems) := inferInstanceAs (Decidable (List.Pairwise _ _))

def OmacPos.Tidy (pos : OmacPos) : Prop := Hostap.Tidy (pos.rest :: pos.later)

theorem tidy_of_flatten {elems : List Bytes} (h : elems.flatten = []) : Tidy elems := by
  have hnil := flatten_eq_nil_iff.1 h
  exact pairwise_of_forall_mem_list fun _ _ b hb _ => hnil b hb

theorem OmacPos.octets_of_nil {later : List Bytes} (h : OmacPos.Tidy ⟨[], later⟩) :
    OmacPos.octets ⟨[], later⟩ = [] := by
  have hall := (pairwise_cons.1 h).1
  exact flatten_eq_nil_iff.2 fun a ha => hall a ha rfl

theorem OmacPos.tidy_cons {b : UInt8} {rest : Bytes} {later : List Bytes} :
    OmacPos.Tidy ⟨b :: rest, later⟩ ↔ Hostap.Tidy later := by
  unfold OmacPos.Tidy Hostap.Tidy
  rw [pairwise_cons]
  refine ⟨And.right, fun h => ⟨fun _ _ hnil => ?_, h⟩⟩
  cases hnil

variable {last : Bool} {x : Bytes} {pos : OmacPos}

theorem OmacPos.next_tidy {stop : Bool} {rest : Bytes} {later : List Bytes} (htidy : Hostap.Tidy later)
    (hstop : stop = true → rest ++ later.flatten = []) (hmore : stop = false → rest ++ later.flatten ≠ []) :
    ∃ pos, OmacPos.next stop rest later = .ok pos ∧ pos.Tidy ∧ pos.octets = rest ++ later.flatten := by
  cases rest with
  | cons b rest => exact ⟨⟨b :: rest, later⟩, rfl, OmacPos.tidy_cons.2 htidy, rfl⟩
  | nil =>
    cases stop with
    | true => exact ⟨⟨[], later⟩, rfl, tidy_of_flatten (hstop rfl), rfl⟩
    | false =>
      cases later with
      | nil => exact absurd rfl (hmore rfl)
      | cons elem later => exact ⟨⟨elem, later⟩, rfl, htidy, rfl⟩

theorem omac1Absorb_tidy (htidy : pos.Tidy) (hle : x.length ≤ pos.octets.length)
    (hlast : last = true ↔ x.length = pos.octets.length) :
    ∃ pos', omac1Absorb last x pos = .ok (xor x (pos.octets.take x.length), pos') ∧ pos'.Tidy ∧
      pos'.octets = pos.octets.drop x.length := by
  induction x generalizing pos with
  | nil => exact ⟨pos, rfl, htidy, rfl⟩
  | cons c x ih =>
    obtain ⟨rest, later⟩ := pos
    cases rest with
    | nil =>
      -- no octet is left, although one is to be taken
      rw [OmacPos.octets_of_nil htidy] at hle
      cases hle
    | cons b rest =>
      have hoct : OmacPos.octets ⟨b :: rest, later⟩ = b :: (rest ++ later.flatten) := rfl
      rw [hoct, length_cons, length_cons] at hle hlast
      -- the loop stops exactly if nothing is left
      have hstop : (x.isEmpty && last) = true ↔ rest ++ later.flatten = [] := by
        rw [Bool.and_eq_true_iff, List.isEmpty_iff, hlast, ← length_eq_zero_iff,
          ← length_eq_zero_iff]
        omega
      obtain ⟨pos', hpos, htidy', hoct'⟩ := OmacPos.next_tidy (OmacPos.tidy_cons.1 htidy) hstop.1
        (fun hf hnil => Bool.false_ne_true (hf.symm.trans (hstop.2 hnil)))
      obtain ⟨pos'', hrun, htidy'', hoct''⟩ := ih htidy' (by rw [hoct']; omega)
        (by rw [hlast, hoct']; omega)
      refine ⟨pos'', ?_, htidy'', ?_⟩
      · rw [omac1Absorb]
        simp only []
        rw [hpos]
        show omac1Absorb last x pos' >>= _ = _
        rw [hrun, hoct, hoct']
        rfl
      · rw [hoct'', hoct', hoct]
        rfl

theorem omac1Absorb_untidy (htidy : ¬ pos.Tidy) {r : Bytes} {pos' : OmacPos}
    (h : omac1Absorb last x pos = .ok (r, pos')) :
    ¬ pos'.Tidy ∧ r.length = x.length ∧ pos'.octets = pos.octets.drop x.length := by
  induction x generalizing pos r with
  | nil =>
    cases h
    exact ⟨htidy, rfl, rfl⟩
  | cons c x ih =>
    obtain ⟨rest, later⟩ := pos
    rw [omac1Absorb] at h
    cases rest with
    | nil => cases h
    | cons b rest =>
      rw [OmacPos.tidy_cons] at htidy
      obtain ⟨pos₁, hpos, h⟩ := except_bind_ok h
      obtain ⟨⟨r₁, pos₂⟩, hrun, h⟩ := except_bind_ok h
      cases h
      -- the elements behind are still there after the step
      have hstep : ¬ pos₁.Tidy ∧ pos₁.octets = rest ++ later.flatten := by
        unfold OmacPos.next at hpos
        split at hpos
        · rename_i hend
          cases later with
          | nil => cases hpos
          | cons elem later =>
            cases hpos
            have hrest : rest = [] := List.isEmpty_iff.1 (Bool.and_eq_true_iff.1 hend).1
            exact ⟨htidy, by rw [hrest]; rfl⟩
        · cases hpos
          refine ⟨fun ht => htidy (pairwise_cons.1 ht).2, rfl⟩
      obtain ⟨htidy', hlen, hoct⟩ := ih hstep.1 hrun
      refine ⟨htidy', by rw [length_cons, hlen, length_cons], ?_⟩
      rw [hoct, hstep.2]
      rfl

theorem omac1Blocks_tidy (ctx : BlockFn 16) {rounds left : Nat} {cbc : Bytes}
    (hrounds : rounds = left / 16) (hcbc : cbc.length = 16) (hleft : left = pos.octets.length)
    (htidy : pos.Tidy) :
    ∃ pos', omac1Blocks ctx rounds left cbc pos = .ok
        (if left % 16 = 0 ∧ 0 < left then
          xor (chain ctx 16 (rounds - 1) cbc pos.octets) (pos.octets.drop (16 * (rounds - 1)))
        else
          chain ctx 16 rounds cbc pos.octets, pos') ∧
      pos'.Tidy ∧ pos'.octets = pos.octets.drop (16 * rounds) := by
  induction rounds generalizing left cbc pos with
  | zero =>
    refine ⟨pos, ?_, htidy, rfl⟩
    rw [if_neg (by omega)]
    rfl
  | succ rounds ih =>
    have hlast : (left == 16) = true ↔ cbc.length = pos.octets.length := by
      rw [beq_iff_eq, hcbc, ← hleft]
      exact eq_comm
    obtain ⟨pos₁, hrun, htidy₁, hoct₁⟩ := omac1Absorb_tidy htidy (by omega) hlast
    rw [hcbc] at hrun hoct₁
    have hblock : (xor cbc (pos.octets.take 16)).length = 16 := by
      rw [length_xor, length_take]
      omega
    have hleft₁ : left - 16 = pos₁.octets.length := by
      rw [hoct₁, length_drop]
      omega
    have hdrop : pos.octets.drop (16 * (rounds + 1)) = pos₁.octets.drop (16 * rounds) := by
      rw [hoct₁, drop_drop, Nat.mul_succ, Nat.add_comm]
    rw [omac1Blocks, hrun, hdrop]
    show ∃ pos', omac1Blocks ctx rounds (left - 16) _ pos₁ = _ ∧ _
    by_cases hmore : 16 < left
    · -- there is more, and the block is encrypted
      obtain ⟨pos', hrun', htidy', hoct'⟩ := ih (by omega)
        (ctx.run_length (xor cbc (pos.octets.take 16))) hleft₁ htidy₁
      refine ⟨pos', ?_, htidy', hoct'⟩
      rw [if_pos hmore, hrun']
      by_cases hfull : left % 16 = 0
      · obtain ⟨r, rfl⟩ : ∃ r, rounds = r + 1 := ⟨rounds - 1, by omega⟩
        have hdrop' : pos.octets.drop (16 * (r + 1)) = pos₁.octets.drop (16 * r) := by
          rw [hoct₁, drop_drop, Nat.mul_succ, Nat.add_comm]
        rw [if_pos (by omega), if_pos (by omega), Nat.add_sub_cancel, Nat.add_sub_cancel, chain, hdrop',
          hoct₁]
      · rw [if_neg (by omega), if_neg (by omega), chain, hoct₁]
    · -- the last block
      have hzero : rounds = 0 := by omega
      subst hzero
      refine ⟨pos₁, ?_, htidy₁, rfl⟩
      have htake : pos.octets.take 16 = pos.octets := take_of_length_le (by omega)
      rw [if_neg hmore, if_pos (by omega), htake]
      rfl

theorem omac1Blocks_untidy (ctx : BlockFn 16) {rounds left : Nat} {cbc r : Bytes} {pos' : OmacPos}
    (hcbc : cbc.length = 16) (htidy : ¬ pos.Tidy)
    (h : omac1Blocks ctx rounds left cbc pos = .ok (r, pos')) :
    ¬ pos'.Tidy ∧ r.length = 16 ∧ pos'.octets = pos.octets.drop (16 * rounds) := by
  induction rounds generalizing left cbc pos with
  | zero =>
    cases h
    exact ⟨htidy, hcbc, rfl⟩
  | succ rounds ih =>
    rw [omac1Blocks] at h
    obtain ⟨⟨r₁, pos₁⟩, hrun, h⟩ := except_bind_ok h
    obtain ⟨htidy₁, hlen₁, hoct₁⟩ := omac1Absorb_untidy htidy hrun
    rw [hcbc] at hlen₁ hoct₁
    have hnext : (if 16 < left then ctx r₁ else r₁).length = 16 := by
      split
      · exact ctx.run_length _
      · exact hlen₁
    obtain ⟨htidy', hlen', hoct'⟩ := ih hnext htidy₁ h
    refine ⟨htidy', hlen', ?_⟩
    rw [hoct', hoct₁, drop_drop, Nat.mul_succ, Nat.add_comm]

/-! ## The MAC -/

variable {aes : Bytes → BlockFn 16} {key : Bytes} {elems : List Bytes}

theorem modify_xor {x last : Bytes} (hx : x.length = 16) (hlast : last.length < 16) :
    (xor (x.take last.length) last ++ x.drop last.length).modify last.length (· ^^^ 0x80) =
      xor x (padBlock last) := by
  have hfront : (xor (x.take last.length) last).length = last.length := by
    rw [length_xor, length_take]
    omega
  have hrest : (x.drop last.length).length = 16 - last.length := by
    rw [length_drop, hx]
  rw [xor_padBlock hx hlast]
  generalize x.drop last.length = rest at hrest
  generalize xor (x.take last.length) last = front at hfront
  cases rest with
  | nil =>
    simp only [length_nil] at hrest
    omega
  | cons c rest =>
    rw [← hfront, modify_middle]
    rfl

theorem omac1AesVector_cons (hkey : AesKeyLen key) {elem : Bytes} {later : List Bytes} {msg cbc : Bytes}
    {pos' : OmacPos} (hmsg : elem ++ later.flatten = msg)
    (hrun : omac1Blocks (aes key) (msg.length / 16) msg.length (zeros 16) ⟨elem, later⟩ =
      .ok (cbc, pos')) :
    omac1AesVector aes key (elem :: later) =
      if msg.length % 16 ≠ 0 ∨ msg.length = 0 then
        (omac1Absorb true (cbc.take (msg.length % 16)) pos').map fun front =>
          aes key (xor (gfMulx (gfMulx (aes key (zeros 16))))
            ((front.1 ++ cbc.drop (msg.length % 16)).modify (msg.length % 16) (· ^^^ 0x80)))
      else
        .ok (aes key (xor (gfMulx (aes key (zeros 16))) cbc)) := by
  rw [omac1AesVector, aesInit_eq hkey, flatten_cons, hmsg]
  show (omac1Blocks (aes key) (msg.length / 16) msg.length (zeros 16) ⟨elem, later⟩ >>= _) = _
  rw [bind_of_ok hrun]
  simp only []
  split
  · cases omac1Absorb true (cbc.take (msg.length % 16)) pos' with
    | error e => rfl
    | ok front => rfl
  · rfl

theorem omac1AesVector_tidy (hkey : AesKeyLen key) (hne : elems ≠ []) (htidy : Tidy elems) :
    omac1AesVector aes key elems = .ok (cmac (aes key) elems.flatten) := by
  obtain ⟨elem, later, rfl⟩ := exists_cons_of_ne_nil hne
  rw [flatten_cons]
  generalize hmsg : elem ++ later.flatten = msg
  have hoct : OmacPos.octets ⟨elem, later⟩ = msg := hmsg
  obtain ⟨pos', hrun, htidy', hoct'⟩ := @omac1Blocks_tidy ⟨elem, later⟩ (aes key) _
    msg.length _ rfl (zeros_length 16) (by rw [hoct]) htidy
  rw [hoct] at hrun hoct'
  have hpad : (aes key (zeros 16)).length = 16 := (aes key).run_length _
  rw [omac1AesVector_cons hkey hmsg hrun, gfMulx_eq hpad]
  unfold cmac
  simp only []
  by_cases hlast : msg.length % 16 ≠ 0 ∨ msg.length = 0
  · -- a last block that is not full, possibly without octets
    have hcount : (msg.length - 1) / 16 = msg.length / 16 := by omega
    have hlen : (msg.drop (16 * (msg.length / 16))).length = msg.length % 16 := by
      rw [length_drop]
      omega
    have hx := chain_length (f := aes key) (n := 16) (k := msg.length / 16) (zeros 16) msg (zeros_length 16)
    rw [if_pos hlast, if_neg (by omega), hcount, if_neg (by rw [hlen]; omega),
      gfMulx_eq (dblBlock_length _)]
    generalize chain (aes key) 16 (msg.length / 16) (zeros 16) msg = x at hx
    have htake : (x.take (msg.length % 16)).length = msg.length % 16 := by
      rw [length_take, hx]
      omega
    obtain ⟨pos'', hrun', -, -⟩ := @omac1Absorb_tidy true (x.take (msg.length % 16)) pos' htidy'
      (by rw [htake, hoct', hlen]) (by rw [htake, hoct', hlen]; exact iff_of_true rfl rfl)
    rw [hrun', htake, hoct', take_of_length_le hlen.le]
    have hmodify := @modify_xor x (msg.drop (16 * (msg.length / 16))) hx (by rw [hlen]; omega)
    rw [hlen] at hmodify
    show Except.ok (aes key (xor _ (List.modify _ _ _))) = _
    rw [hmodify, xor_swap (dblBlock _), xor_regroup]
  · have hcount : (msg.length - 1) / 16 = msg.length / 16 - 1 := by omega
    have hlen : (msg.drop (16 * (msg.length / 16 - 1))).length = 16 := by
      rw [length_drop]
      omega
    rw [if_neg hlast, if_pos (by omega), hcount, if_pos hlen, xor_swap (dblBlock _),
      xor_regroup]

theorem omac1AesVector_untidy (htidy : ¬ Tidy elems) (mac : Bytes) :
    omac1AesVector aes key elems ≠ .ok mac := by
  intro h
  have hne : elems ≠ [] := by
    rintro rfl
    exact htidy List.Pairwise.nil
  obtain ⟨elem, later, rfl⟩ := exists_cons_of_ne_nil hne
  have hkey : AesKeyLen key := by
    by_contra hkey
    rw [omac1AesVector, aesInit, if_neg hkey] at h
    cases h
  rcases hrun : omac1Blocks (aes key) ((elem ++ later.flatten).length / 16) (elem ++ later.flatten).length
    (zeros 16) ⟨elem, later⟩ with e | ⟨cbc, pos'⟩
  · rw [omac1AesVector, aesInit_eq hkey, flatten_cons] at h
    obtain ⟨pos, hpos, h⟩ := except_bind_ok h
    cases hpos
    obtain ⟨r, hr, -⟩ := except_bind_ok h
    rw [hrun] at hr
    cases hr
  · obtain ⟨htidy', hlen, hoct⟩ := @omac1Blocks_untidy ⟨elem, later⟩ (aes key) _ _ _
      _ _ (zeros_length 16) htidy hrun
    have hall : OmacPos.octets ⟨elem, later⟩ = elem ++ later.flatten := rfl
    have hleft : pos'.octets.length = (elem ++ later.flatten).length % 16 := by
      rw [hoct, hall, length_drop]
      omega
    -- at the end nothing is left, and nothing is tidy
    have hend : ∀ pos : OmacPos, pos.octets = [] → pos.Tidy := fun pos hnil => tidy_of_flatten hnil
    rw [omac1AesVector_cons hkey rfl hrun] at h
    by_cases hlast : (elem ++ later.flatten).length % 16 ≠ 0 ∨ (elem ++ later.flatten).length = 0
    · rw [if_pos hlast] at h
      obtain ⟨⟨front, pos''⟩, hrun', -⟩ := except_map_ok h
      obtain ⟨htidy'', hfront, hoct''⟩ := omac1Absorb_untidy htidy' hrun'
      apply htidy''
      apply hend
      rw [hoct'', length_take, hlen, drop_eq_nil_iff, hleft]
      omega
    · apply htidy'
      apply hend
      apply eq_nil_of_length_eq_zero
      omega

/-- **The MAC of a vector.** It is the CMAC of the concatenation, computed from octets of the elements
only, exactly if there is an element and none without octets has one with octets behind it. -/
theorem omac1AesVector_eq_iff (hkey : AesKeyLen key) :
    omac1AesVector aes key elems = .ok (cmac (aes key) elems.flatten) ↔ elems ≠ [] ∧ Tidy elems := by
  constructor
  · intro h
    refine ⟨?_, ?_⟩
    · rintro rfl
      rw [omac1AesVector, aesInit_eq hkey] at h
      cases h
    · by_contra htidy
      exact omac1AesVector_untidy htidy _ h
  · rintro ⟨hne, htidy⟩
    exact omac1AesVector_tidy hkey hne htidy

theorem omac1AesVector_eq_iff_small :
    omac1AesVector (smallFn 16) (zeros 16) [[1, 2], [3], []] =
      .ok (cmac (smallFn 16 (zeros 16)) [1, 2, 3]) :=
  (omac1AesVector_eq_iff (by decide)).2 (by decide)

/-- A vector whose first element has no octets. -/
theorem omac1AesVector_emptyFirst :
    omac1AesVector (smallFn 16) (zeros 16) [[], [1]] = .error .outside ∧
      ¬ ∀ elems : List Bytes, omac1AesVector (smallFn 16) (zeros 16) elems =
        .ok (cmac (smallFn 16 (zeros 16)) elems.flatten) := by
  have hfault : omac1AesVector (smallFn 16) (zeros 16) [[], [1]] = .error .outside := by decide
  refine ⟨hfault, fun h => ?_⟩
  have hok := h [[], [1]]
  rw [hfault] at hok
  cases hok

theorem omac1AesVector_single (hkey : AesKeyLen key) (data : Bytes) :
    omac1AesVector aes key [data] = .ok (cmac (aes key) data) := by
  have h := @omac1AesVector_tidy aes key [data] hkey (cons_ne_nil _ _) (pairwise_singleton _ _)
  rwa [flatten_singleton] at h

end Hostap
