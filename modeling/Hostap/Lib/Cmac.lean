import Hostap.Lib.BlockCipher

/-!
# CBC-MAC and CMAC

`chain` is the chaining value after some blocks of a message, each of them combined with the value before
and encrypted. `cmac` combines the last block also with one of two keys, which are made by doubling in the
field of `2 ^ 128` elements, and pads it if it is not full.
-/

namespace BlockCipher

open Octets Feedback

/-- The chaining value after `k` blocks of `n` octets. -/
def chain (f : Bytes → Bytes) (n : Nat) : (k : Nat) → (x data : Bytes) → Bytes
  | 0, x, _ => x
  | k + 1, x, data => chain f n k (f (xor x (data.take n))) (data.drop n)

/-- Doubling in the field of `2 ^ 128` elements. -/
def dbl128 (x : Nat) : Nat := (2 * x % 2 ^ 128) ^^^ (if 2 ^ 127 ≤ x then 0x87 else 0)

/-- Doubling of a block. -/
def dblBlock (b : Bytes) : Bytes := natBe 16 (dbl128 (beNat b))

/-- A last block that is not full: one bit, and zeros behind it. -/
def padBlock (last : Bytes) : Bytes := last ++ 0x80 :: zeros (15 - last.length)

/-- The message authentication code of a message. All blocks but the last one are `(length - 1) / 16`. -/
def cmac (f : BlockFn 16) (msg : Bytes) : Bytes :=
  let k := (msg.length - 1) / 16
  let last := msg.drop (16 * k)
  let k1 := dblBlock (f (zeros 16))
  if last.length = 16 then
    f (xor (chain f 16 k (zeros 16) msg) (xor last k1))
  else
    f (xor (chain f 16 k (zeros 16) msg) (xor (padBlock last) (dblBlock k1)))

variable {f : BlockFn 16} {n k : Nat}

theorem chain_length (x data : Bytes) (hx : x.length = 16) : (chain f n k x data).length = 16 := by
  induction k generalizing x data with
  | zero => exact hx
  | succ k ih => exact ih _ _ (f.run_length _)

theorem cmac_length (msg : Bytes) : (cmac f msg).length = 16 := by
  unfold cmac
  simp only []
  split
  · exact f.run_length _
  · exact f.run_length _

theorem dblBlock_length (b : Bytes) : (dblBlock b).length = 16 := natBe_length 16 _

theorem xor_regroup (a b c : Bytes) : xor (xor a b) c = xor a (xor b c) := by
  induction a generalizing b c with
  | nil => rfl
  | cons x xs ih =>
    cases b with
    | nil => rfl
    | cons y ys =>
      cases c with
      | nil => rfl
      | cons z zs =>
        show (x ^^^ y ^^^ z) :: xor (xor xs ys) zs = (x ^^^ (y ^^^ z)) :: xor xs (xor ys zs)
        rw [UInt8.xor_assoc, ih]

theorem xor_zeros (a : Bytes) : xor a (zeros a.length) = a := by
  induction a with
  | nil => rfl
  | cons x xs ih =>
    show (x ^^^ 0) :: xor xs (zeros xs.length) = x :: xs
    rw [UInt8.xor_zero, ih]

/-- A last block that is not full only changes the front and the octet behind it. -/
theorem xor_padBlock {x last : Bytes} (hx : x.length = 16) (hlast : last.length < 16) :
    xor x (padBlock last) = xor (x.take last.length) last ++
      (x.drop last.length).modify 0 (· ^^^ 0x80) := by
  have hfront : (x.take last.length).length = last.length := by
    rw [List.length_take]
    omega
  have hrest : (x.drop last.length).length = 16 - last.length := by
    rw [List.length_drop, hx]
  conv => lhs; rw [← List.take_append_drop last.length x]
  unfold padBlock
  rw [xor_append hfront]
  congr 1
  cases hdrop : x.drop last.length with
  | nil =>
    rw [hdrop] at hrest
    simp only [List.length_nil] at hrest
    omega
  | cons c cs =>
    have hcs : cs.length = 15 - last.length := by
      rw [hdrop, List.length_cons] at hrest
      omega
    show (c ^^^ 0x80) :: xor cs (zeros (15 - last.length)) = (c ^^^ 0x80) :: cs
    rw [← hcs, xor_zeros]

end BlockCipher
