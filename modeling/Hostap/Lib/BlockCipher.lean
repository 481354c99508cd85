import Hostap.Lib.Feedback
import Mathlib.Data.Fintype.EquivFin

/-!
# Block ciphers and their modes

`BlockFn n` is a function on blocks of `n` octets and `BlockPerm n` one with an inverse, which is an
inverse from both sides because there are only finitely many blocks (`BlockPerm.encrypt_decrypt`).

* `foldl_undo`: a construction in rounds is undone by undoing its rounds in the reverse order;
* `stream`: a text is combined with a key stream, block by block, and the same stream brings it back;
* `cbcText`: each block is combined with the block of the ciphertext before it and encrypted. `cbcEncrypt`
  and `cbcDecrypt` are loops that keep the chaining value, and go on where an earlier text ended.
-/

namespace BlockCipher

open Octets Feedback List

/-- A function on blocks of `n` octets. -/
structure BlockFn (n : Nat) where
  run : Bytes → Bytes
  run_length : ∀ b, (run b).length = n

instance (n : Nat) : CoeFun (BlockFn n) (fun _ => Bytes → Bytes) := ⟨BlockFn.run⟩

/-- A function on blocks of `n` octets that can be undone. -/
structure BlockPerm (n : Nat) where
  encrypt : BlockFn n
  decrypt : BlockFn n
  decrypt_encrypt : ∀ b : Bytes, b.length = n → decrypt (encrypt b) = b

theorem BlockPerm.encrypt_decrypt {n : Nat} (p : BlockPerm n) {b : Bytes} (hb : b.length = n) :
    p.encrypt (p.decrypt b) = b := by
  -- a block is a number below `256 ^ n`
  let f : Fin (256 ^ n) → Fin (256 ^ n) := fun i =>
    ⟨beNat (p.encrypt (natBe n i)), by
      have hlt := beNat_lt (p.encrypt (natBe n i))
      rwa [p.encrypt.run_length] at hlt⟩
  have hinj : Function.Injective f := by
    intro i j hij
    have hval : beNat (p.encrypt (natBe n i)) = beNat (p.encrypt (natBe n j)) := congrArg Fin.val hij
    have hblock : p.encrypt (natBe n i) = p.encrypt (natBe n j) := by
      rw [← natBe_beNat (p.encrypt.run_length (natBe n i)), hval, natBe_beNat (p.encrypt.run_length _)]
    have hnat : natBe n i = natBe n j := by
      rw [← p.decrypt_encrypt _ (natBe_length n i), hblock, p.decrypt_encrypt _ (natBe_length n j)]
    apply Fin.ext
    rw [← beNat_natBe i.isLt, hnat, beNat_natBe j.isLt]
  have hlt : beNat b < 256 ^ n := hb ▸ beNat_lt b
  obtain ⟨i, hi⟩ := (Finite.injective_iff_surjective.1 hinj) ⟨beNat b, hlt⟩
  have hval : beNat (p.encrypt (natBe n i)) = beNat b := congrArg Fin.val hi
  have hpre : p.encrypt (natBe n i) = b := by
    rw [← natBe_beNat (p.encrypt.run_length (natBe n i)), hval, natBe_beNat hb]
  rw [← hpre, p.decrypt_encrypt _ (natBe_length n i)]

/-! ## Rounds -/

section Rounds

variable {σ ι : Type} {P : σ → Prop} {step undo : ι → σ → σ}

theorem foldl_undo {is : List ι} (hkeep : ∀ i ∈ is, ∀ s, P s → P (step i s))
    (hundo : ∀ i ∈ is, ∀ s, P s → undo i (step i s) = s) {s : σ} (hs : P s) :
    is.reverse.foldl (fun s i => undo i s) (is.foldl (fun s i => step i s) s) = s := by
  induction is generalizing s with
  | nil => rfl
  | cons i is ih =>
    have hrest := ih (fun k hk => hkeep k (mem_cons_of_mem i hk))
      (fun k hk => hundo k (mem_cons_of_mem i hk)) (hkeep i mem_cons_self s hs)
    rw [reverse_cons, foldl_append, foldl_cons, foldl_cons, foldl_nil, hrest]
    exact hundo i mem_cons_self s hs

theorem foldl_keep {is : List ι} (hkeep : ∀ i ∈ is, ∀ s, P s → P (step i s)) {s : σ} (hs : P s) :
    P (is.foldl (fun s i => step i s) s) := by
  induction is generalizing s with
  | nil => exact hs
  | cons i is ih =>
    exact ih (fun k hk => hkeep k (mem_cons_of_mem i hk)) (hkeep i mem_cons_self s hs)

end Rounds

/-! ## Texts of any length -/

theorem xor_swap (a b : Bytes) : xor a b = xor b a := zipWith_comm_of_comm UInt8.xor_comm

theorem xor_nil (a : Bytes) : xor a [] = [] := zipWith_nil_right

theorem length_xor (a b : Bytes) : (xor a b).length = min a.length b.length := length_zipWith

theorem xor_append {a b c d : Bytes} (h : a.length = c.length) :
    xor (a ++ b) (c ++ d) = xor a c ++ xor b d := zipWith_append h

theorem xor_take_left (a b : Bytes) : xor (a.take b.length) b = xor a b := by
  induction b generalizing a with
  | nil =>
    rw [xor_nil, xor_nil]
  | cons y ys ih =>
    cases a with
    | nil => rfl
    | cons x xs =>
      show (x ^^^ y) :: xor (xs.take ys.length) ys = (x ^^^ y) :: xor xs ys
      rw [ih]

/-- A text is combined twice with a key that may be longer. -/
theorem xor_xor_of_le {a b : Bytes} (h : a.length ≤ b.length) : xor (xor a b) b = a := by
  induction a generalizing b with
  | nil => rfl
  | cons x xs ih =>
    cases b with
    | nil => cases h
    | cons y ys =>
      show (x ^^^ y ^^^ y) :: xor (xor xs ys) ys = x :: xs
      rw [UInt8.xor_assoc, UInt8.xor_self, UInt8.xor_zero, ih (Nat.le_of_succ_le_succ h)]

section Stream

variable {σ : Type} (n : Nat) (next : σ → σ) (out : σ → Bytes)

/-- The text is combined with `k` blocks of a key stream, the last one possibly in part. -/
def stream : (k : Nat) → σ → Bytes → Bytes
  | 0, _, _ => []
  | k + 1, s, data => xor (data.take n) (out s) ++ stream k (next s) (data.drop n)

variable {n next out}

/-- A text in two parts, the first of them in full blocks. -/
theorem stream_append {k l : Nat} (s : σ) {a b : Bytes} (ha : a.length = n * k) :
    stream n next out (k + l) s (a ++ b) =
      stream n next out k s a ++ stream n next out l (next^[k] s) b := by
  induction k generalizing s a with
  | zero =>
    rw [eq_nil_of_length_eq_zero ha, Nat.zero_add]
    rfl
  | succ k ih =>
    rw [Nat.mul_succ] at ha
    have hle : n ≤ a.length := by omega
    have hrest : (a.drop n).length = n * k := by
      rw [length_drop]
      omega
    rw [Nat.add_right_comm, stream, stream, take_append_of_le_length hle,
      drop_append_of_le_length hle, ih (next s) hrest, append_assoc, Function.iterate_succ_apply]

variable (next) (hout : ∀ s, (out s).length = n)

include hout

theorem stream_length {k : Nat} (s : σ) {data : Bytes} (h : data.length ≤ n * k) :
    (stream n next out k s data).length = data.length := by
  induction k generalizing s data with
  | zero =>
    rw [eq_nil_of_length_eq_zero (Nat.le_zero.1 h)]
    rfl
  | succ k ih =>
    rw [Nat.mul_succ] at h
    rw [stream, length_append, length_xor, length_take, hout,
      ih _ (by rw [length_drop]; omega), length_drop]
    omega

/-- **The same stream brings the text back.** -/
theorem stream_stream {k : Nat} (s : σ) {data : Bytes} (h : data.length ≤ n * k) :
    stream n next out k s (stream n next out k s data) = data := by
  induction k generalizing s data with
  | zero => exact (eq_nil_of_length_eq_zero (Nat.le_zero.1 h)).symm
  | succ k ih =>
    rw [Nat.mul_succ] at h
    have hblock : (xor (data.take n) (out s)).length = min data.length n := by
      rw [length_xor, length_take, hout]
      omega
    have hback : xor (xor (data.take n) (out s)) (out s) = data.take n :=
      xor_xor_of_le (by rw [length_take, hout]; omega)
    have hrest : (data.drop n).length ≤ n * k := by
      rw [length_drop]
      omega
    rw [stream, stream]
    rcases Nat.lt_or_ge data.length n with hlt | hge
    · -- a last block that is not full
      have hnil : data.drop n = [] := drop_eq_nil_of_le hlt.le
      have hdone : stream n next out k (next s) (data.drop n) = [] := by
        apply eq_nil_of_length_eq_zero
        rw [stream_length next hout _ hrest, hnil]
        rfl
      rw [hdone, append_nil, take_of_length_le (by rw [hblock]; omega), hback,
        drop_eq_nil_of_le (by rw [hblock]; omega), ← hnil, hdone, append_nil,
        take_of_length_le hlt.le]
    · have hfull : (xor (data.take n) (out s)).length = n := by
        rw [hblock]
        omega
      rw [take_left' hfull, drop_left' hfull, hback, ih _ hrest, take_append_drop]

end Stream

/-! ## Cipher block chaining -/

/-- The blocks of the ciphertext. -/
def cbcText (f : Bytes → Bytes) : (prev : Bytes) → (blocks : List Bytes) → List Bytes
  | _, [] => []
  | prev, p :: ps => f (xor p prev) :: cbcText f (f (xor p prev)) ps

section Cbc

variable (f g : Bytes → Bytes) (n : Nat)

/-- The ciphertext of `k` blocks, and the chaining value behind them. -/
def cbcEncrypt : (k : Nat) → (cbc plain : Bytes) → Bytes × Bytes
  | 0, cbc, _ => ([], cbc)
  | k + 1, cbc, plain =>
    let c := f (xor cbc (plain.take n))
    let r := cbcEncrypt k c (plain.drop n)
    (c ++ r.1, r.2)

/-- The text of `k` blocks, and the chaining value behind them. -/
def cbcDecrypt : (k : Nat) → (cbc crypt : Bytes) → Bytes × Bytes
  | 0, cbc, _ => ([], cbc)
  | k + 1, cbc, crypt =>
    let r := cbcDecrypt k (crypt.take n) (crypt.drop n)
    (xor (g (crypt.take n)) cbc ++ r.1, r.2)

variable {f g n}

theorem cbcEncrypt_append {k l : Nat} (cbc : Bytes) {a b : Bytes} (ha : a.length = n * k) :
    cbcEncrypt f n (k + l) cbc (a ++ b) =
      ((cbcEncrypt f n k cbc a).1 ++ (cbcEncrypt f n l (cbcEncrypt f n k cbc a).2 b).1,
        (cbcEncrypt f n l (cbcEncrypt f n k cbc a).2 b).2) := by
  induction k generalizing cbc a with
  | zero =>
    rw [eq_nil_of_length_eq_zero ha, Nat.zero_add]
    rfl
  | succ k ih =>
    rw [Nat.mul_succ] at ha
    have hle : n ≤ a.length := by omega
    rw [Nat.add_right_comm]
    simp only [cbcEncrypt]
    rw [take_append_of_le_length hle, drop_append_of_le_length hle,
      ih _ (by rw [length_drop]; omega), append_assoc]

theorem cbcDecrypt_append {k l : Nat} (cbc : Bytes) {a b : Bytes} (ha : a.length = n * k) :
    cbcDecrypt g n (k + l) cbc (a ++ b) =
      ((cbcDecrypt g n k cbc a).1 ++ (cbcDecrypt g n l (cbcDecrypt g n k cbc a).2 b).1,
        (cbcDecrypt g n l (cbcDecrypt g n k cbc a).2 b).2) := by
  induction k generalizing cbc a with
  | zero =>
    rw [eq_nil_of_length_eq_zero ha, Nat.zero_add]
    rfl
  | succ k ih =>
    rw [Nat.mul_succ] at ha
    have hle : n ≤ a.length := by omega
    rw [Nat.add_right_comm]
    simp only [cbcDecrypt]
    rw [take_append_of_le_length hle, drop_append_of_le_length hle,
      ih _ (by rw [length_drop]; omega), append_assoc]

theorem cbcEncrypt_length (hf : ∀ b, (f b).length = n) {k : Nat} (cbc plain : Bytes) :
    (cbcEncrypt f n k cbc plain).1.length = n * k := by
  induction k generalizing cbc plain with
  | zero => rfl
  | succ k ih =>
    simp only [cbcEncrypt]
    rw [length_append, hf, ih, Nat.mul_succ, Nat.add_comm]

/-- **The text comes back.** -/
theorem cbcDecrypt_cbcEncrypt (p : BlockPerm n) {k : Nat} {cbc plain : Bytes} (hcbc : cbc.length = n)
    (hlen : plain.length = n * k) :
    (cbcDecrypt p.decrypt n k cbc (cbcEncrypt p.encrypt n k cbc plain).1).1 = plain := by
  induction k generalizing cbc plain with
  | zero => exact (eq_nil_of_length_eq_zero hlen).symm
  | succ k ih =>
    rw [Nat.mul_succ] at hlen
    have hblock : (plain.take n).length = n := length_take_of_le (by omega)
    have hxor : (xor cbc (plain.take n)).length = n := by
      rw [length_xor, hcbc, hblock, Nat.min_self]
    simp only [cbcEncrypt, cbcDecrypt]
    rw [take_left' (p.encrypt.run_length _), drop_left' (p.encrypt.run_length _),
      p.decrypt_encrypt _ hxor, xor_swap cbc, xor_xor (hblock.trans hcbc.symm),
      ih (p.encrypt.run_length _) (by rw [length_drop]; omega), take_append_drop]

theorem cbcEncrypt_eq_cbcText {blocks : List Bytes} (hblocks : ∀ b ∈ blocks, b.length = n)
    (cbc : Bytes) :
    (cbcEncrypt f n blocks.length cbc blocks.flatten).1 = (cbcText f cbc blocks).flatten := by
  induction blocks generalizing cbc with
  | nil => rfl
  | cons b blocks ih =>
    have hb : b.length = n := hblocks b mem_cons_self
    have hstep : cbcEncrypt f n (b :: blocks).length cbc (b :: blocks).flatten =
        (f (xor cbc b) ++ (cbcEncrypt f n blocks.length (f (xor cbc b)) blocks.flatten).1,
          (cbcEncrypt f n blocks.length (f (xor cbc b)) blocks.flatten).2) := by
      rw [length_cons, flatten_cons, cbcEncrypt, take_left' hb, drop_left' hb]
    rw [hstep, cbcText, flatten_cons, xor_swap b,
      ih (fun b' hb' => hblocks b' (mem_cons_of_mem b hb'))]

end Cbc

end BlockCipher
