import Hostap.Lib.BlockCipher

/-!
# RC4

`rc4_skip` (`crypto/rc4.c`). The two loops behind the key setup count with a `u32` up to a `size_t`, so that
they end only below `2 ^ 32`.
-/

namespace Hostap

open Octets Feedback BlockCipher

/-- The variables of the loops; `i` and `j` are below 256. -/
structure Rc4State where
  i : Nat
  j : Nat
  s : Bytes

/-- `S_SWAP()` -/
def rc4Swap (s : Bytes) (a b : Nat) : Bytes := (s.set a (s.getD b 0)).set b (s.getD a 0)

/-- The body of the loop over the key, on `S`, `j` and `kpos`. -/
def rc4SetupStep (key : Bytes) (keylen : Nat) (st : Bytes × Nat × Nat) (i : Nat) : Bytes × Nat × Nat :=
  let j := (st.2.1 + (st.1.getD i 0).toNat + (key.getD st.2.2 0).toNat) % 256
  (rc4Swap st.1 i j, j, if keylen ≤ st.2.2 + 1 then 0 else st.2.2 + 1)

def rc4Setup (key : Bytes) (keylen : Nat) : Rc4State :=
  ⟨0, 0, ((List.range 256).foldl (rc4SetupStep key keylen) ((List.range 256).map UInt8.ofNat, 0, 0)).1⟩

/-- `i` and `j` move on, and what is there is swapped. -/
def rc4Next (st : Rc4State) : Rc4State :=
  let i := (st.i + 1) % 256
  let j := (st.j + (st.s.getD i 0).toNat) % 256
  ⟨i, j, rc4Swap st.s i j⟩

def rc4Octet (st : Rc4State) : UInt8 :=
  st.s.getD (((st.s.getD st.i 0).toNat + (st.s.getD st.j 0).toNat) % 256) 0

def rc4Apply : Rc4State → Bytes → Bytes
  | _, [] => []
  | st, octet :: data => (octet ^^^ rc4Octet (rc4Next st)) :: rc4Apply (rc4Next st) data

/-- `rc4_skip()`; there is no result if a loop does not end. -/
def rc4Skip (key : Bytes) (keylen skip : Nat) (data : Bytes) : Option Bytes :=
  if skip < 2 ^ 32 ∧ data.length < 2 ^ 32 then
    some (rc4Apply (rc4Next^[skip] (rc4Setup key keylen)) data)
  else
    none

def rc4Block (st : Rc4State) : Bytes := [rc4Octet (rc4Next st)]

theorem rc4Block_length (st : Rc4State) : (rc4Block st).length = 1 := rfl

theorem rc4Apply_eq (st : Rc4State) (data : Bytes) :
    rc4Apply st data = stream 1 rc4Next rc4Block data.length st data := by
  induction data generalizing st with
  | nil => rfl
  | cons octet data ih =>
    rw [rc4Apply, ih]
    rfl

theorem rc4Apply_length (st : Rc4State) (data : Bytes) : (rc4Apply st data).length = data.length := by
  rw [rc4Apply_eq]
  exact stream_length rc4Next rc4Block_length st (Nat.one_mul _).ge

theorem rc4Apply_twice (st : Rc4State) (data : Bytes) : rc4Apply st (rc4Apply st data) = data := by
  have hlen := rc4Apply_length st data
  rw [rc4Apply_eq st (rc4Apply st data), hlen, rc4Apply_eq]
  exact stream_stream rc4Next rc4Block_length st (Nat.one_mul _).ge

theorem rc4Apply_append (st : Rc4State) (a b : Bytes) :
    rc4Apply st (a ++ b) = rc4Apply st a ++ rc4Apply (rc4Next^[a.length] st) b := by
  rw [rc4Apply_eq, rc4Apply_eq, rc4Apply_eq, List.length_append]
  exact stream_append st (Nat.one_mul _).symm

end Hostap
