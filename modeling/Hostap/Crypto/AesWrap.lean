import Hostap.Crypto.Aes
import Hostap.Lib.Buffer

/-!
# AES key wrap

`aes_wrap` and `aes_unwrap` (`crypto/aes-wrap.c`, `crypto/aes-unwrap.c`). The state of both is the running
value `a` and the `n` blocks `r` of eight octets; in `aes_wrap` the two stand behind one another in the
output buffer. A round `(j, i)` encrypts `a` with the `i`-th block in place and combines `a` with the
counter `t = n * j + i`. The rounds of `aes_unwrap` are those of `aes_wrap` from the last to the first
(`unwrapRounds_eq`), and each of them undoes its own (`aesUnwrapStep_aesWrapStep`).
-/

namespace Hostap

open Octets Feedback BlockCipher Buffer List

/-- The counter of a round, `t = n * j + i` in 32 bits. The largest one is `6 * n`. -/
def wrapCounter (n : Nat) (ji : Nat × Nat) : UInt32 := UInt32.ofNat (n * ji.1 + ji.2)

/-- `a[7] ^= t; a[6] ^= t >> 8; a[5] ^= t >> 16; a[4] ^= t >> 24;` -/
def xorCounter (a : Bytes) (t : UInt32) : Bytes :=
  xor a [0, 0, 0, 0, (t >>> 24).toUInt8, (t >>> 16).toUInt8, (t >>> 8).toUInt8, t.toUInt8]

/-- `for (j = 0; j <= 5; j++) for (i = 1; i <= n; i++)` -/
def wrapRounds (n : Nat) : List (Nat × Nat) :=
  (List.range 6).flatMap fun j => (List.range' 1 n).map fun i => (j, i)

/-- `for (j = 5; j >= 0; j--) for (i = n; i >= 1; i--)` -/
def unwrapRounds (n : Nat) : List (Nat × Nat) :=
  [5, 4, 3, 2, 1, 0].flatMap fun j => (List.range' 1 n).reverse.map fun i => (j, i)

/-- The body of the loops of `aes_wrap()`, on the running value and the blocks. -/
def aesWrapStep (ctx : BlockFn 16) (n : Nat) (ji : Nat × Nat) (s : Bytes × Bytes) : Bytes × Bytes :=
  let b := ctx (s.1 ++ slice s.2 (8 * (ji.2 - 1)) 8)
  (xorCounter (b.take 8) (wrapCounter n ji), overwrite (8 * (ji.2 - 1)) (b.drop 8) s.2)

/-- The body of the loops of `aes_unwrap()`. -/
def aesUnwrapStep (ctx : BlockFn 16) (n : Nat) (ji : Nat × Nat) (s : Bytes × Bytes) : Bytes × Bytes :=
  let b := ctx (xorCounter s.1 (wrapCounter n ji) ++ slice s.2 (8 * (ji.2 - 1)) 8)
  (b.take 8, overwrite (8 * (ji.2 - 1)) (b.drop 8) s.2)

variable (aes : Bytes → BlockPerm 16)

/-- `aes_wrap()` -/
def aesWrap (kek : Bytes) (n : Nat) (plain : Bytes) : Option Bytes :=
  match aesInit (fun key => (aes key).encrypt) kek with
  | none => none
  | some ctx =>
    let s := (wrapRounds n).foldl (fun s ji => aesWrapStep ctx n ji s)
      (List.replicate 8 0xa6, plain.take (8 * n))
    some (s.1 ++ s.2)

/-- `aes_unwrap()` -/
def aesUnwrap (kek : Bytes) (n : Nat) (cipher : Bytes) : Option Bytes :=
  match aesInit (fun key => (aes key).decrypt) kek with
  | none => none
  | some ctx =>
    let s := (unwrapRounds n).foldl (fun s ji => aesUnwrapStep ctx n ji s)
      (cipher.take 8, slice cipher 8 (8 * n))
    if s.1.any (· ≠ 0xa6) then none else some s.2

/-! ## A round and its inverse -/

def WrapSized (n : Nat) (s : Bytes × Bytes) : Prop := s.1.length = 8 ∧ s.2.length = 8 * n

variable {aes} {kek : Bytes} {n : Nat} {s : Bytes × Bytes} {ji : Nat × Nat}

theorem mem_wrapRounds : ji ∈ wrapRounds n ↔ ji.1 < 6 ∧ 1 ≤ ji.2 ∧ ji.2 ≤ n := by
  obtain ⟨j, i⟩ := ji
  unfold wrapRounds
  simp only [mem_flatMap, mem_range, mem_map, mem_range'_1, Prod.mk.injEq]
  constructor
  · rintro ⟨j', hj, i', hi, rfl, rfl⟩
    omega
  · rintro ⟨hj, hle, hlt⟩
    exact ⟨j, hj, i, by omega, rfl, rfl⟩

theorem unwrapRounds_eq (n : Nat) : unwrapRounds n = (wrapRounds n).reverse := by
  unfold unwrapRounds wrapRounds
  rw [reverse_flatMap]
  have hj : (List.range 6).reverse = [5, 4, 3, 2, 1, 0] := by decide
  rw [hj]
  apply flatMap_congr
  intro j _
  exact map_reverse

theorem xorCounter_length {a : Bytes} (h : a.length = 8) (t : UInt32) : (xorCounter a t).length = 8 :=
  (xor_length h).trans h

theorem xorCounter_twice {a : Bytes} (h : a.length = 8) (t : UInt32) :
    xorCounter (xorCounter a t) t = a := xor_xor h

theorem exists_block {r : Bytes} {i : Nat} (hr : r.length = 8 * n) (hi : 1 ≤ i ∧ i ≤ n) :
    ∃ front mid back, r = front ++ (mid ++ back) ∧ front.length = 8 * (i - 1) ∧ mid.length = 8 := by
  refine ⟨r.take (8 * (i - 1)), slice r (8 * (i - 1)) 8, r.drop (8 * (i - 1) + 8), split_at r _ _, ?_, ?_⟩
  · rw [length_take]
    omega
  · exact slice_length (by omega)

section Step

variable (ctx : BlockFn 16) {a front mid back : Bytes} (hfront : front.length = 8 * (ji.2 - 1))
  (hmid : mid.length = 8)

include hfront hmid

theorem aesWrapStep_eq : aesWrapStep ctx n ji (a, front ++ (mid ++ back)) =
    (xorCounter ((ctx (a ++ mid)).take 8) (wrapCounter n ji),
      front ++ ((ctx (a ++ mid)).drop 8 ++ back)) := by
  have hdrop : ((ctx (a ++ mid)).drop 8).length = 8 := by
    rw [length_drop, ctx.run_length]
  simp only [aesWrapStep]
  rw [slice_middle hfront hmid, overwrite_middle hfront (hmid.trans hdrop.symm)]

theorem aesUnwrapStep_eq : aesUnwrapStep ctx n ji (a, front ++ (mid ++ back)) =
    ((ctx (xorCounter a (wrapCounter n ji) ++ mid)).take 8,
      front ++ ((ctx (xorCounter a (wrapCounter n ji) ++ mid)).drop 8 ++ back)) := by
  have hdrop : ((ctx (xorCounter a (wrapCounter n ji) ++ mid)).drop 8).length = 8 := by
    rw [length_drop, ctx.run_length]
  simp only [aesUnwrapStep]
  rw [slice_middle hfront hmid, overwrite_middle hfront (hmid.trans hdrop.symm)]

end Step

theorem length_halves (ctx : BlockFn 16) (b : Bytes) :
    ((ctx b).take 8).length = 8 ∧ ((ctx b).drop 8).length = 8 := by
  rw [length_take, length_drop, ctx.run_length]
  exact ⟨rfl, rfl⟩

theorem aesWrapStep_sized (ctx : BlockFn 16) (hs : WrapSized n s) (hi : 1 ≤ ji.2 ∧ ji.2 ≤ n) :
    WrapSized n (aesWrapStep ctx n ji s) := by
  obtain ⟨a, r⟩ := s
  obtain ⟨front, mid, back, hr, hfront, hmid⟩ := exists_block hs.2 hi
  obtain ⟨ha, hlen⟩ := hs
  obtain rfl : r = front ++ (mid ++ back) := hr
  obtain ⟨htake, hdrop⟩ := length_halves ctx (a ++ mid)
  rw [aesWrapStep_eq ctx hfront hmid]
  refine ⟨xorCounter_length htake _, ?_⟩
  simp only [length_append] at hlen ⊢
  omega

theorem aesUnwrapStep_sized (ctx : BlockFn 16) (hs : WrapSized n s) (hi : 1 ≤ ji.2 ∧ ji.2 ≤ n) :
    WrapSized n (aesUnwrapStep ctx n ji s) := by
  obtain ⟨a, r⟩ := s
  obtain ⟨front, mid, back, hr, hfront, hmid⟩ := exists_block hs.2 hi
  obtain ⟨ha, hlen⟩ := hs
  obtain rfl : r = front ++ (mid ++ back) := hr
  obtain ⟨htake, hdrop⟩ := length_halves ctx (xorCounter a (wrapCounter n ji) ++ mid)
  rw [aesUnwrapStep_eq ctx hfront hmid]
  refine ⟨htake, ?_⟩
  simp only [length_append] at hlen ⊢
  omega

theorem aesUnwrapStep_aesWrapStep (p : BlockPerm 16) (hs : WrapSized n s) (hi : 1 ≤ ji.2 ∧ ji.2 ≤ n) :
    aesUnwrapStep p.decrypt n ji (aesWrapStep p.encrypt n ji s) = s := by
  obtain ⟨a, r⟩ := s
  obtain ⟨front, mid, back, hr, hfront, hmid⟩ := exists_block hs.2 hi
  obtain ⟨ha, -⟩ := hs
  obtain rfl : r = front ++ (mid ++ back) := hr
  have ha : a.length = 8 := ha
  obtain ⟨htake, hdrop⟩ := length_halves p.encrypt (a ++ mid)
  have hblock : (a ++ mid).length = 16 := by
    rw [length_append]
    omega
  rw [aesWrapStep_eq p.encrypt hfront hmid, aesUnwrapStep_eq p.decrypt hfront hdrop,
    xorCounter_twice htake, take_append_drop, p.decrypt_encrypt _ hblock, take_left' ha,
    drop_left' ha]

theorem aesWrapStep_aesUnwrapStep (p : BlockPerm 16) (hs : WrapSized n s) (hi : 1 ≤ ji.2 ∧ ji.2 ≤ n) :
    aesWrapStep p.encrypt n ji (aesUnwrapStep p.decrypt n ji s) = s := by
  obtain ⟨a, r⟩ := s
  obtain ⟨front, mid, back, hr, hfront, hmid⟩ := exists_block hs.2 hi
  obtain ⟨ha, -⟩ := hs
  obtain rfl : r = front ++ (mid ++ back) := hr
  have ha : a.length = 8 := ha
  have hxor := xorCounter_length (t := wrapCounter n ji) ha
  obtain ⟨-, hdrop⟩ := length_halves p.decrypt (xorCounter a (wrapCounter n ji) ++ mid)
  have hblock : (xorCounter a (wrapCounter n ji) ++ mid).length = 16 := by
    rw [length_append]
    omega
  rw [aesUnwrapStep_eq p.decrypt hfront hmid, aesWrapStep_eq p.encrypt hfront hdrop,
    take_append_drop, p.encrypt_decrypt hblock, take_left' hxor, drop_left' hxor,
    xorCounter_twice ha]

/-! ## All the rounds -/

section Rounds

variable (p : BlockPerm 16) (hs : WrapSized n s)

include hs

theorem unwrapRounds_wrapRounds :
    (unwrapRounds n).foldl (fun s ji => aesUnwrapStep p.decrypt n ji s)
      ((wrapRounds n).foldl (fun s ji => aesWrapStep p.encrypt n ji s) s) = s := by
  rw [unwrapRounds_eq]
  exact foldl_undo (fun _ hji _ hs => aesWrapStep_sized p.encrypt hs (mem_wrapRounds.1 hji).2)
    (fun _ hji _ hs => aesUnwrapStep_aesWrapStep p hs (mem_wrapRounds.1 hji).2) hs

theorem wrapRounds_unwrapRounds :
    (wrapRounds n).foldl (fun s ji => aesWrapStep p.encrypt n ji s)
      ((unwrapRounds n).foldl (fun s ji => aesUnwrapStep p.decrypt n ji s) s) = s := by
  have hmem : ∀ ji ∈ unwrapRounds n, 1 ≤ ji.2 ∧ ji.2 ≤ n := by
    intro ji hji
    rw [unwrapRounds_eq, mem_reverse] at hji
    exact (mem_wrapRounds.1 hji).2
  have hrev : wrapRounds n = (unwrapRounds n).reverse := by
    rw [unwrapRounds_eq, reverse_reverse]
  rw [hrev]
  exact foldl_undo (fun ji hji _ hs => aesUnwrapStep_sized p.decrypt hs (hmem ji hji))
    (fun ji hji _ hs => aesWrapStep_aesUnwrapStep p hs (hmem ji hji)) hs

theorem wrapRounds_sized :
    WrapSized n ((wrapRounds n).foldl (fun s ji => aesWrapStep p.encrypt n ji s) s) :=
  foldl_keep (fun _ hji _ hs => aesWrapStep_sized p.encrypt hs (mem_wrapRounds.1 hji).2) hs

end Rounds

theorem aesWrap_eq (hkek : AesKeyLen kek) {plain : Bytes} (hplain : plain.length = 8 * n) :
    aesWrap aes kek n plain = some
      (((wrapRounds n).foldl (fun s ji => aesWrapStep (aes kek).encrypt n ji s)
          (List.replicate 8 0xa6, plain)).1 ++
        ((wrapRounds n).foldl (fun s ji => aesWrapStep (aes kek).encrypt n ji s)
          (List.replicate 8 0xa6, plain)).2) := by
  rw [aesWrap, aesInit_eq hkek, take_of_length_le hplain.le]

theorem aesUnwrap_eq (hkek : AesKeyLen kek) (cipher : Bytes) :
    aesUnwrap aes kek n cipher =
      if ((unwrapRounds n).foldl (fun s ji => aesUnwrapStep (aes kek).decrypt n ji s)
          (cipher.take 8, slice cipher 8 (8 * n))).1.any (· ≠ 0xa6) then
        none
      else
        some ((unwrapRounds n).foldl (fun s ji => aesUnwrapStep (aes kek).decrypt n ji s)
          (cipher.take 8, slice cipher 8 (8 * n))).2 := by
  rw [aesUnwrap, aesInit_eq hkek]

theorem eq_initial_of_any {a : Bytes} (ha : a.length = 8) (h : a.any (· ≠ 0xa6) = false) :
    a = List.replicate 8 0xa6 := by
  rw [eq_replicate_iff]
  refine ⟨ha, fun b hb => ?_⟩
  have hb' := any_eq_false.1 h b hb
  simpa using hb'

/-- **Key wrap.** What was wrapped is unwrapped to the same blocks, and what is unwrapped was wrapped. -/
theorem aesWrap_roundTrip (hkek : AesKeyLen kek) :
    (∀ plain : Bytes, plain.length = 8 * n →
      ∃ cipher, aesWrap aes kek n plain = some cipher ∧ aesUnwrap aes kek n cipher = some plain) ∧
    (∀ cipher plain : Bytes, cipher.length = 8 * (n + 1) → aesUnwrap aes kek n cipher = some plain →
      aesWrap aes kek n plain = some cipher) := by
  constructor
  · intro plain hplain
    have hstart : WrapSized n (List.replicate 8 0xa6, plain) := ⟨rfl, hplain⟩
    obtain ⟨ha, hr⟩ := wrapRounds_sized (aes kek) hstart
    refine ⟨_, aesWrap_eq hkek hplain, ?_⟩
    rw [aesUnwrap_eq hkek, take_left' ha]
    have hslice : slice
        (((wrapRounds n).foldl (fun s ji => aesWrapStep (aes kek).encrypt n ji s)
            (List.replicate 8 0xa6, plain)).1 ++
          ((wrapRounds n).foldl (fun s ji => aesWrapStep (aes kek).encrypt n ji s)
            (List.replicate 8 0xa6, plain)).2) 8 (8 * n) =
        ((wrapRounds n).foldl (fun s ji => aesWrapStep (aes kek).encrypt n ji s)
            (List.replicate 8 0xa6, plain)).2 := by
      unfold slice
      rw [drop_left' ha, take_of_length_le hr.le]
    rw [hslice, Prod.mk.eta, unwrapRounds_wrapRounds (aes kek) hstart]
    rfl
  · intro cipher plain hlen hunwrap
    rw [aesUnwrap_eq hkek] at hunwrap
    have hfront : (cipher.take 8).length = 8 := by
      rw [length_take]
      omega
    have hrest : (slice cipher 8 (8 * n)).length = 8 * n := slice_length (by omega)
    have hstart : WrapSized n (cipher.take 8, slice cipher 8 (8 * n)) := ⟨hfront, hrest⟩
    have hback := wrapRounds_unwrapRounds (aes kek) hstart
    have hsized : WrapSized n ((unwrapRounds n).foldl
        (fun s ji => aesUnwrapStep (aes kek).decrypt n ji s) (cipher.take 8, slice cipher 8 (8 * n))) := by
      rw [unwrapRounds_eq]
      exact foldl_keep (fun _ hji _ hs => aesUnwrapStep_sized (aes kek).decrypt hs
        (mem_wrapRounds.1 (mem_reverse.1 hji)).2) hstart
    generalize (unwrapRounds n).foldl (fun s ji => aesUnwrapStep (aes kek).decrypt n ji s)
      (cipher.take 8, slice cipher 8 (8 * n)) = s at hunwrap hback hsized
    obtain ⟨ha, hr⟩ := hsized
    by_cases hany : s.1.any (· ≠ 0xa6) = true
    · rw [if_pos hany] at hunwrap
      cases hunwrap
    · rw [if_neg hany] at hunwrap
      cases hunwrap
      have ha' : s.1 = List.replicate 8 0xa6 := eq_initial_of_any ha (Bool.eq_false_iff.2 hany)
      rw [aesWrap_eq hkek hr, ← ha', Prod.mk.eta, hback]
      have hcipher : cipher.take 8 ++ slice cipher 8 (8 * n) = cipher := by
        have hrest : (cipher.drop 8).length ≤ 8 * n := by
          rw [length_drop]
          omega
        unfold slice
        rw [take_of_length_le hrest, take_append_drop]
      rw [hcipher]

theorem aesWrap_roundTrip_small :
    ∃ cipher, aesWrap (smallPerm 16) (zeros 16) 2 (zeros 16) = some cipher ∧
      aesUnwrap (smallPerm 16) (zeros 16) 2 cipher = some (zeros 16) :=
  (aesWrap_roundTrip (n := 2) (by decide)).1 (zeros 16) rfl

end Hostap
