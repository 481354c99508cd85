import Hostap.Crypto.Aes

/-!
# Milenage

The functions f1 to f5* and what the network and the SIM make of them (`crypto/milenage.c`). A parameter that
is `NULL` only leaves out an output, so that `milenage_f1` and `milenage_f2345` give all of theirs here. The
block cipher is any function, and does not fail.
-/

namespace Hostap

open Octets Feedback BlockCipher List

/-- Octet `i` of a block goes to place `(i + m) % 16`. -/
def milenageRotate (m : Nat) (block : Bytes) : Bytes := block.drop (16 - m) ++ block.take (16 - m)

variable (aes : Bytes → BlockFn 16)

/-- `milenage_f1()`: MAC-A and MAC-S. -/
def milenageF1 (opc k rand sqn amf : Bytes) : Bytes × Bytes :=
  let tmp1 := aes k (xor rand opc)
  let tmp2 := sqn.take 6 ++ amf.take 2 ++ (sqn.take 6 ++ amf.take 2)
  let tmp3 := xor (milenageRotate 8 (xor tmp2 opc)) tmp1
  let tmp1 := xor (aes k tmp3) opc
  (tmp1.take 8, slice tmp1 8 8)

/-- The outputs of `milenage_f2345()`. -/
structure MilenageF2345 where
  res : Bytes
  ck : Bytes
  ik : Bytes
  ak : Bytes
  akstar : Bytes
  deriving DecidableEq, Repr

/-- One of the functions f2 to f5*: rotated by `r`, and with the constant `c` in the last octet. -/
def milenageOut (opc k temp : Bytes) (r : Nat) (c : UInt8) : Bytes :=
  xor (aes k ((milenageRotate r (xor temp opc)).modify 15 (· ^^^ c))) opc

/-- `milenage_f2345()` -/
def milenageF2345 (opc k rand : Bytes) : MilenageF2345 :=
  let temp := aes k (xor rand opc)
  let out2 := milenageOut aes opc k temp 16 1
  { res := slice out2 8 8
    ak := out2.take 6
    ck := milenageOut aes opc k temp 12 2
    ik := milenageOut aes opc k temp 8 4
    akstar := (milenageOut aes opc k temp 4 8).take 6 }

/-- The outputs of `milenage_generate()`. -/
structure MilenageVector where
  autn : Bytes
  ik : Bytes
  ck : Bytes
  res : Bytes
  deriving DecidableEq, Repr

/-- `milenage_generate()`; `*res_len` is zero if there is no output. -/
def milenageGenerate (opc amf k sqn rand : Bytes) (resLen : Nat) : Option MilenageVector :=
  if resLen < 8 then
    none
  else
    let macA := (milenageF1 aes opc k rand sqn amf).1
    let f := milenageF2345 aes opc k rand
    some ⟨xor (sqn.take 6) f.ak ++ amf.take 2 ++ macA, f.ik, f.ck, f.res⟩

/-- `milenage_auts()` -/
def milenageAuts (opc k rand auts : Bytes) : Option Bytes :=
  let sqn := xor (auts.take 6) (milenageF2345 aes opc k rand).akstar
  let macS := (milenageF1 aes opc k rand sqn [0, 0]).2
  if macS ≠ slice auts 6 8 then none else some sqn

/-- What `milenage_check()` returns, and the buffers it was given. -/
structure MilenageCheck where
  ret : Int
  res : Bytes
  ck : Bytes
  ik : Bytes
  auts : Bytes
  deriving DecidableEq, Repr

/-- `milenage_check()`, with the buffer for AUTS as it is before. -/
def milenageCheck (opc k sqn rand autn auts : Bytes) : MilenageCheck :=
  let f := milenageF2345 aes opc k rand
  let rxSqn := xor (autn.take 6) f.ak
  if memcmp rxSqn (sqn.take 6) ≠ .gt then
    let macS := (milenageF1 aes opc k rand sqn [0, 0]).2
    ⟨-2, f.res, f.ck, f.ik, xor (sqn.take 6) f.akstar ++ macS⟩
  else
    let amf := slice autn 6 2
    let macA := (milenageF1 aes opc k rand rxSqn amf).1
    if macA ≠ slice autn 8 8 then
      ⟨-1, f.res, f.ck, f.ik, auts⟩
    else
      ⟨0, f.res, f.ck, f.ik, auts⟩

variable {aes} {opc k rand sqn amf : Bytes}

theorem milenageF1_length (hopc : opc.length = 16) :
    (milenageF1 aes opc k rand sqn amf).1.length = 8 ∧ (milenageF1 aes opc k rand sqn amf).2.length = 8 := by
  unfold milenageF1
  simp only []
  have hout : ∀ b, (xor (aes k b) opc).length = 16 := by
    intro b
    rw [length_xor, (aes k).run_length, hopc, Nat.min_self]
  refine ⟨?_, slice_length (by rw [hout])⟩
  rw [length_take, hout]
  rfl

theorem milenageOut_length (hopc : opc.length = 16) (temp : Bytes) (r : Nat) (c : UInt8) :
    (milenageOut aes opc k temp r c).length = 16 := by
  unfold milenageOut
  rw [length_xor, (aes k).run_length, hopc, Nat.min_self]

theorem milenageF2345_length (hopc : opc.length = 16) :
    (milenageF2345 aes opc k rand).ak.length = 6 ∧ (milenageF2345 aes opc k rand).akstar.length = 6 := by
  unfold milenageF2345
  simp only []
  rw [length_take, length_take, milenageOut_length hopc, milenageOut_length hopc]
  exact ⟨rfl, rfl⟩

theorem milenageAuts_eq (hopc : opc.length = 16) (hsqn : sqn.length = 6) :
    milenageAuts aes opc k rand (xor sqn (milenageF2345 aes opc k rand).akstar ++
      (milenageF1 aes opc k rand sqn [0, 0]).2) = some sqn := by
  have hak := (@milenageF2345_length aes opc k rand hopc).2
  have hmac := (@milenageF1_length aes opc k rand sqn [0, 0] hopc).2
  have hxor : (xor sqn (milenageF2345 aes opc k rand).akstar).length = 6 := by
    rw [length_xor, hsqn, hak]
    rfl
  unfold milenageAuts
  simp only []
  rw [take_left' hxor, xor_xor (hsqn.trans hak.symm)]
  unfold slice
  rw [drop_left' hxor, take_of_length_le hmac.le, if_neg (fun hne => hne rfl)]

/-- **Agreement.** The SIM accepts what the network generates if its sequence number is greater than the
stored one, with the same RES, CK and IK. Else it answers with a token from which the network recovers the
stored one. -/
theorem milenage_agreement (hopc : opc.length = 16) (hsqn : sqn.length = 6) (hamf : amf.length = 2)
    {stored : Bytes} (hstored : stored.length = 6) {resLen : Nat} (hres : 8 ≤ resLen) (auts : Bytes) :
    ∃ v, milenageGenerate aes opc amf k sqn rand resLen = some v ∧
      (beNat stored < beNat sqn →
        milenageCheck aes opc k stored rand v.autn auts = ⟨0, v.res, v.ck, v.ik, auts⟩) ∧
      (¬ beNat stored < beNat sqn →
        (milenageCheck aes opc k stored rand v.autn auts).ret = -2 ∧
        milenageAuts aes opc k rand (milenageCheck aes opc k stored rand v.autn auts).auts =
          some stored) := by
  have hak := (@milenageF2345_length aes opc k rand hopc).1
  have hmac := (@milenageF1_length aes opc k rand sqn amf hopc).1
  have hxor : (xor sqn (milenageF2345 aes opc k rand).ak).length = 6 := by
    rw [length_xor, hsqn, hak]
    rfl
  have hgen : milenageGenerate aes opc amf k sqn rand resLen =
      some ⟨xor sqn (milenageF2345 aes opc k rand).ak ++ amf ++ (milenageF1 aes opc k rand sqn amf).1,
        (milenageF2345 aes opc k rand).ik, (milenageF2345 aes opc k rand).ck,
        (milenageF2345 aes opc k rand).res⟩ := by
    rw [milenageGenerate, if_neg (by omega)]
    simp only []
    rw [take_of_length_le hsqn.le, take_of_length_le hamf.le]
  -- the parts of AUTN
  have hfront : (xor sqn (milenageF2345 aes opc k rand).ak ++ amf).length = 8 := by
    rw [length_append, hxor, hamf]
  have htake : (xor sqn (milenageF2345 aes opc k rand).ak ++ amf ++
      (milenageF1 aes opc k rand sqn amf).1).take 6 = xor sqn (milenageF2345 aes opc k rand).ak := by
    rw [append_assoc, take_left' hxor]
  have hmid : slice (xor sqn (milenageF2345 aes opc k rand).ak ++ amf ++
      (milenageF1 aes opc k rand sqn amf).1) 6 2 = amf := by
    rw [append_assoc]
    exact slice_middle hxor hamf
  have hlast : slice (xor sqn (milenageF2345 aes opc k rand).ak ++ amf ++
      (milenageF1 aes opc k rand sqn amf).1) 8 8 = (milenageF1 aes opc k rand sqn amf).1 := by
    unfold slice
    rw [drop_left' hfront, take_of_length_le hmac.le]
  refine ⟨_, hgen, ?_, ?_⟩
  · intro hlt
    have hgt := (memcmp_gt_iff (hsqn.trans hstored.symm)).2 hlt
    unfold milenageCheck
    simp only []
    rw [htake, xor_xor (hsqn.trans hak.symm), hmid, hlast, take_of_length_le hstored.le,
      if_neg (not_not.2 hgt), if_neg (fun hne => hne rfl)]
  · intro hge
    have hne : memcmp sqn stored ≠ .gt := fun hgt => hge ((memcmp_gt_iff (hsqn.trans hstored.symm)).1 hgt)
    unfold milenageCheck
    simp only []
    rw [htake, xor_xor (hsqn.trans hak.symm), take_of_length_le hstored.le, if_pos hne]
    exact ⟨rfl, milenageAuts_eq hopc hstored⟩

theorem milenage_agreement_small :
    ∃ v, milenageGenerate (smallFn 16) (zeros 16) [0x80, 0] (zeros 16) [0, 0, 0, 0, 0, 7] (zeros 16) 8 =
        some v ∧
      milenageCheck (smallFn 16) (zeros 16) (zeros 16) [0, 0, 0, 0, 0, 6] (zeros 16) v.autn [] =
        ⟨0, v.res, v.ck, v.ik, []⟩ := by
  obtain ⟨v, hv, haccept, -⟩ := @milenage_agreement (smallFn 16) (zeros 16) (zeros 16) (zeros 16)
    [0, 0, 0, 0, 0, 7] [0x80, 0] (by decide) (by decide) (by decide) [0, 0, 0, 0, 0, 6] (by decide) 8
    (by decide) []
  exact ⟨v, hv, haccept (by decide)⟩

end Hostap
