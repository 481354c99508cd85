import Hostap.Lib.Octets

/-!
# Hashes that take a message in pieces

A hash function compresses one block of a padded message after another. An implementation that is
given the message in pieces keeps the octets of a block that is not full yet. `Absorbed` says that a chaining
value and the octets that are kept are those of a message. `Buffered` says it of a buffer, and its rules
(`Buffered.keep`, `Buffered.fill` and `Buffered.block`) are all that such an implementation does with a piece.

The length of the message goes into the padding, in bits. It is counted in two words (`bitCount`), with a carry
by hand (`bitCount_add`).
-/

namespace BlockHash

open Octets List

variable {σ : Type} {compress : σ → Bytes → σ} {size : Nat} {start s s' : σ} {m kept kept' d rest : Bytes}

/-- The chaining value behind some blocks. -/
def blocks (compress : σ → Bytes → σ) (size : Nat) : Nat → σ → Bytes → σ
  | 0, s, _ => s
  | n + 1, s, data => blocks compress size n (compress s (data.take size)) (data.drop size)

/-- The chaining value behind a whole message. -/
def digest (compress : σ → Bytes → σ) (size : Nat) (start : σ) (data : Bytes) : σ :=
  blocks compress size (data.length / size) start data

/-- The full blocks of a message are in the chaining value, and what is left is kept. -/
def Absorbed (compress : σ → Bytes → σ) (size : Nat) (start : σ) (m : Bytes) (s : σ) (kept : Bytes) : Prop :=
  kept.length < size ∧ ∃ full, m = full ++ kept ∧ size ∣ full.length ∧ s = digest compress size start full

theorem blocks_append (hm : m.length = n * size) (d : Bytes) :
    blocks compress size (n + k) s (m ++ d) = blocks compress size k (blocks compress size n s m) d := by
  induction n generalizing s m with
  | zero =>
    rw [Nat.zero_mul] at hm
    rw [eq_nil_of_length_eq_zero hm, Nat.zero_add, nil_append]
    rfl
  | succ n ih =>
    have hle : size ≤ m.length := by
      rw [hm, Nat.succ_mul]
      omega
    have hdrop : (m.drop size).length = n * size := by
      rw [length_drop, hm, Nat.succ_mul]
      omega
    rw [Nat.succ_add, blocks, blocks, take_append_of_le_length hle, drop_append_of_le_length hle, ih hdrop]

theorem digest_block (hsize : 0 < size) (hm : size ∣ m.length) (hd : d.length = size) :
    digest compress size start (m ++ d) = compress (digest compress size start m) d := by
  obtain ⟨n, hn⟩ := hm
  rw [Nat.mul_comm] at hn
  have hcount : (m ++ d).length / size = n + 1 := by
    rw [length_append, hd, hn, ← Nat.succ_mul, Nat.mul_div_cancel _ hsize]
  unfold digest
  rw [hcount, blocks_append hn, hn, Nat.mul_div_cancel _ hsize]
  show compress _ (d.take size) = _
  rw [take_of_length_le (by omega)]

theorem Absorbed.nil (hsize : 0 < size) : Absorbed compress size start [] start [] := by
  refine ⟨hsize, [], rfl, ⟨0, rfl⟩, ?_⟩
  unfold digest
  rw [length_nil, Nat.zero_div]
  rfl

theorem Absorbed.keep (h : Absorbed compress size start m s kept) (hlen : kept.length + d.length < size) :
    Absorbed compress size start (m ++ d) s (kept ++ d) := by
  obtain ⟨-, full, rfl, hfull, hs⟩ := h
  refine ⟨?_, full, append_assoc _ _ _, hfull, hs⟩
  rw [length_append]
  exact hlen

/-- Octets that fill the block are compressed with those that are kept. -/
theorem Absorbed.fill (h : Absorbed compress size start m s kept) (hlen : kept.length + d.length = size) :
    Absorbed compress size start (m ++ d) (compress s (kept ++ d)) [] := by
  obtain ⟨hlt, full, rfl, hfull, rfl⟩ := h
  have hsize : 0 < size := by omega
  have hblock : (kept ++ d).length = size := by rw [length_append, hlen]
  refine ⟨hsize, full ++ (kept ++ d), ?_, ?_, (digest_block hsize hfull hblock).symm⟩
  · rw [append_nil, append_assoc]
  · rw [length_append, hblock]
    exact Nat.dvd_add hfull (Nat.dvd_refl size)

/-- The chaining value of a message is that of its full blocks. -/
theorem Absorbed.eq_digest (h : Absorbed compress size start m s []) : s = digest compress size start m := by
  obtain ⟨-, full, rfl, -, rfl⟩ := h
  rw [append_nil]

theorem Absorbed.kept_length (h : Absorbed compress size start m s kept) : kept.length = m.length % size := by
  obtain ⟨hlt, full, rfl, ⟨n, hn⟩, -⟩ := h
  rw [length_append, hn, Nat.mul_add_mod, Nat.mod_eq_of_lt hlt]

/-! ## The buffer -/

abbrev Block : Type := { b : Bytes // b.length = 64 }

/-- The octets that are kept stand at the front of a buffer of one block. -/
def Buffered (compress : σ → Bytes → σ) (size : Nat) (start : σ) (m : Bytes) (s : σ) (buf : Bytes) : Prop :=
  buf.length = size ∧ ∃ kept tail, buf = kept ++ tail ∧ Absorbed compress size start m s kept

section Buffered

variable {buf : Bytes}

theorem zeros_add (a b : Nat) : zeros (a + b) = zeros a ++ zeros b := replicate_append_replicate.symm

theorem overwrite_end (kept d tail : Bytes) :
    overwrite kept.length d (kept ++ tail) = kept ++ d ++ tail.drop d.length := by
  unfold overwrite
  rw [take_left, drop_length_add_append]

theorem overwrite_length {off : Nat} (h : off + d.length ≤ buf.length) :
    (overwrite off d buf).length = buf.length := by
  unfold overwrite
  rw [length_append, length_append, length_take, length_drop]
  omega

theorem overwrite_overwrite {off off' : Nat} (buf a b : Bytes) (hoff : off' = off + a.length)
    (h : off' + b.length ≤ buf.length) :
    overwrite off' b (overwrite off a buf) = overwrite off (a ++ b) buf := by
  have hlen : (buf.take off ++ a).length = off' := by
    rw [length_append, length_take]
    omega
  have hend := overwrite_end (buf.take off ++ a) b (buf.drop off')
  rw [hlen, drop_drop, hoff] at hend
  unfold overwrite at hend ⊢
  rw [hoff, hend, length_append, ← append_assoc, Nat.add_assoc]

theorem Buffered.nil (hsize : 0 < size) (hbuf : buf.length = size) :
    Buffered compress size start [] start buf := ⟨hbuf, [], buf, rfl, Absorbed.nil hsize⟩

theorem Buffered.keep (h : Buffered compress size start m s buf) (hlen : m.length % size + d.length < size) :
    Buffered compress size start (m ++ d) s (overwrite (m.length % size) d buf) := by
  obtain ⟨hbuf, kept, tail, rfl, habs⟩ := h
  rw [← habs.kept_length] at hlen ⊢
  refine ⟨(overwrite_length ?_).trans hbuf, kept ++ d, tail.drop d.length, overwrite_end _ _ _, habs.keep hlen⟩
  omega

theorem Buffered.fill (h : Buffered compress size start m s buf) (hlen : m.length % size + d.length = size) :
    Buffered compress size start (m ++ d) (compress s (overwrite (m.length % size) d buf))
      (overwrite (m.length % size) d buf) := by
  obtain ⟨hbuf, kept, tail, rfl, habs⟩ := h
  rw [← habs.kept_length] at hlen ⊢
  refine ⟨(overwrite_length (by omega)).trans hbuf, [], _, rfl, ?_⟩
  have htail : tail.length ≤ d.length := by
    rw [length_append] at hbuf
    omega
  rw [overwrite_end, drop_eq_nil_of_le htail, append_nil]
  exact habs.fill hlen

theorem Buffered.block (h : Buffered compress size start m s buf) (hm : m.length % size = 0)
    (hd : d.length = size) : Buffered compress size start (m ++ d) (compress s d) buf := by
  obtain ⟨hbuf, kept, tail, rfl, habs⟩ := h
  have hkept := habs.kept_length
  rw [hm] at hkept
  obtain rfl := eq_nil_of_length_eq_zero hkept
  exact ⟨hbuf, [], _, rfl, habs.fill ((Nat.zero_add _).trans hd)⟩

theorem Buffered.eq_digest (h : Buffered compress size start m s buf) (hm : m.length % size = 0) :
    s = digest compress size start m := by
  obtain ⟨-, kept, tail, -, habs⟩ := h
  have hkept := habs.kept_length
  rw [hm] at hkept
  obtain rfl := eq_nil_of_length_eq_zero hkept
  exact habs.eq_digest

/-- A step that takes one piece takes a list of them. -/
theorem foldlM_of {Of : σ → Bytes → Prop} {ok : Bytes → Prop} {step : σ → Bytes → Option σ}
    (hstep : ∀ {s m} e, ok e → Of s m → ∃ s', step s e = some s' ∧ Of s' (m ++ e)) {elems : List Bytes}
    (hok : ∀ e ∈ elems, ok e) (h : Of s m) :
    ∃ s', elems.foldlM step s = some s' ∧ Of s' (m ++ elems.flatten) := by
  induction elems generalizing s m with
  | nil => exact ⟨s, rfl, by rwa [flatten_nil, append_nil]⟩
  | cons e elems ih =>
    obtain ⟨s₁, hs₁, hof⟩ := hstep e (hok e mem_cons_self) h
    obtain ⟨s', hs', hof⟩ := ih (fun e he => hok e (mem_cons_of_mem _ he)) hof
    refine ⟨s', ?_, by rwa [flatten_cons, ← append_assoc]⟩
    rw [foldlM_cons, hs₁]
    exact hs'

end Buffered

/-! ## Padding -/

/-- One bit, zeros up to the last eight octets of a block of 64, and a count in these. -/
def padding (len : Nat) (count : Bytes) : Bytes := 0x80 :: zeros ((119 - len % 64) % 64) ++ count

/-- The padding is put behind the `off` octets in the buffer. -/
def finish (compress : σ → Bytes → σ) (s : σ) (off : Nat) (buf count : Bytes) : σ :=
  let buf := overwrite off [0x80] buf
  let (s, buf) :=
    if 56 < off + 1 then
      let buf := overwrite (off + 1) (zeros (64 - (off + 1))) buf
      (compress s buf, overwrite 0 (zeros 56) buf)
    else
      (s, overwrite (off + 1) (zeros (56 - (off + 1))) buf)
  compress s (overwrite 56 count buf)

theorem padding_length {count : Bytes} (hcount : count.length = 8) :
    (m ++ padding m.length count).length % 64 = 0 := by
  unfold padding
  rw [length_append, length_append, length_cons, zeros_length, hcount]
  omega

theorem finish_eq_digest {buf count : Bytes} (h : Buffered compress 64 start m s buf)
    (hcount : count.length = 8) :
    finish compress s (m.length % 64) buf count = digest compress 64 start (m ++ padding m.length count) := by
  have hone : ∀ n, m.length % 64 + 1 + n ≤ 64 →
      overwrite (m.length % 64 + 1) (zeros n) (overwrite (m.length % 64) [0x80] buf) =
        overwrite (m.length % 64) (0x80 :: zeros n) buf := by
    intro n hn
    exact overwrite_overwrite _ [0x80] _ rfl (by rw [zeros_length, h.1]; exact hn)
  have hlen : ∀ n, (0x80 :: zeros n : Bytes).length = n + 1 := fun n => by rw [length_cons, zeros_length]
  unfold finish
  by_cases hlong : 56 < m.length % 64 + 1
  · -- the rest of the block is zeros, and the count is in another one
    have hfirst := h.fill (d := 0x80 :: zeros (64 - (m.length % 64 + 1))) (by rw [hlen]; omega)
    have hpos : (m ++ 0x80 :: zeros (64 - (m.length % 64 + 1))).length % 64 = 0 := by
      rw [length_append, hlen]
      omega
    have hlast := hfirst.fill (d := zeros 56 ++ count) (by rw [hpos, length_append, hcount, zeros_length])
    have hpad : padding m.length count = 0x80 :: zeros (64 - (m.length % 64 + 1)) ++ (zeros 56 ++ count) := by
      have hsum : (119 - m.length % 64) % 64 = 64 - (m.length % 64 + 1) + 56 := by omega
      unfold padding
      rw [hsum, zeros_add, cons_append, cons_append, append_assoc]
    rw [hpos, append_assoc, ← hpad] at hlast
    simp only [if_pos hlong]
    rw [hone _ (by omega), overwrite_overwrite _ (zeros 56) _ (by rw [zeros_length]) (by rw [hcount, hfirst.1])]
    exact hlast.eq_digest (padding_length hcount)
  · have hpad : padding m.length count = 0x80 :: zeros (56 - (m.length % 64 + 1)) ++ count := by
      have hsum : (119 - m.length % 64) % 64 = 56 - (m.length % 64 + 1) := by omega
      unfold padding
      rw [hsum]
    have hlast := h.fill (d := padding m.length count) (by rw [hpad, length_append, hlen, hcount]; omega)
    have hend : overwrite 56 count _ = overwrite (m.length % 64) _ buf :=
      overwrite_overwrite buf (0x80 :: zeros (56 - (m.length % 64 + 1))) count (by rw [hlen]; omega)
        (by rw [hcount, h.1])
    simp only [if_neg hlong]
    rw [hone _ (by omega), hend, ← hpad]
    exact hlast.eq_digest (padding_length hcount)

/-! ## Counting -/

theorem natBe_mod (len n : Nat) : natBe len (n % 256 ^ len) = natBe len n := by
  induction len generalizing n with
  | zero => rfl
  | succ len ih =>
    have hhigh : n % 256 ^ (len + 1) / 256 = n / 256 % 256 ^ len := by
      rw [pow_succ, Nat.mul_comm]
      exact Nat.mod_mul_right_div_self n 256 (256 ^ len)
    have hlow : UInt8.ofNat (n % 256 ^ (len + 1)) = UInt8.ofNat n := by
      apply UInt8.toNat_inj.mp
      rw [UInt8.toNat_ofNat', UInt8.toNat_ofNat']
      exact Nat.mod_mod_of_dvd n (Dvd.intro_left (256 ^ len) rfl)
    rw [natBe, natBe, hhigh, ih, hlow]

theorem natBe_add (a b n : Nat) : natBe (a + b) n = natBe a (n / 256 ^ b) ++ natBe b n := by
  induction b generalizing n with
  | zero => simp [natBe]
  | succ b ih => rw [← Nat.add_assoc, natBe, natBe, ih, append_assoc, Nat.div_div_eq_div_mul, pow_succ']

/-- A number of bits in two words. -/
def bitCount (hi lo : UInt32) : Nat := hi.toNat * 2 ^ 32 + lo.toNat

theorem carry_iff (a b : UInt32) : a + b < a ↔ 2 ^ 32 ≤ a.toNat + b.toNat := by
  have ha := a.toNat_lt
  have hb := b.toNat_lt
  rw [UInt32.lt_iff_toNat_lt, UInt32.toNat_add]
  omega

theorem carry_comm (a b : UInt32) : a + b < b ↔ a + b < a := by
  rw [carry_iff, UInt32.add_comm, carry_iff, Nat.add_comm]

theorem bitCount_add (hi lo len : UInt32) :
    bitCount ((if lo + (len <<< 3) < lo then hi + 1 else hi) + (len >>> 29)) (lo + (len <<< 3)) =
      (bitCount hi lo + len.toNat * 8) % 2 ^ 64 := by
  have hhi := hi.toNat_lt
  have hlo := lo.toNat_lt
  have hlen := len.toNat_lt
  have hshl : (len <<< 3).toNat = len.toNat * 8 % 2 ^ 32 := by
    rw [UInt32.toNat_shiftLeft]
    show len.toNat <<< 3 % 2 ^ 32 = _
    rw [Nat.shiftLeft_eq]
  have hshr : (len >>> 29).toNat = len.toNat / 2 ^ 29 := by
    rw [UInt32.toNat_shiftRight]
    show len.toNat >>> 29 = _
    rw [Nat.shiftRight_eq_div_pow]
  have hcarry := carry_iff lo (len <<< 3)
  unfold bitCount
  rw [UInt32.toNat_add, UInt32.toNat_add, hshr, hshl]
  rw [hshl] at hcarry
  have hlow : (lo.toNat + len.toNat * 8 % 2 ^ 32) % 2 ^ 32 = (lo.toNat + len.toNat * 8) % 2 ^ 32 := by omega
  split_ifs with hover
  · have hle := hcarry.mp hover
    have hone : (hi + 1).toNat = (hi.toNat + 1) % 2 ^ 32 := UInt32.toNat_add hi 1
    have hquot : (lo.toNat + len.toNat * 8) / 2 ^ 32 = len.toNat / 2 ^ 29 + 1 := by omega
    rw [hone]
    omega
  · have hlt : lo.toNat + len.toNat * 8 % 2 ^ 32 < 2 ^ 32 := by
      by_contra hge
      exact hover (hcarry.mpr (by omega))
    have hquot : (lo.toNat + len.toNat * 8) / 2 ^ 32 = len.toNat / 2 ^ 29 := by omega
    omega

theorem natBe_bitCount (hi lo : UInt32) : natBe 8 (bitCount hi lo) = natBe 4 hi.toNat ++ natBe 4 lo.toNat := by
  have hlo := lo.toNat_lt
  have hhigh : bitCount hi lo / 256 ^ 4 = hi.toNat := by
    unfold bitCount
    omega
  have hlow : bitCount hi lo % 256 ^ 4 = lo.toNat := by
    unfold bitCount
    omega
  rw [natBe_add 4 4, hhigh, ← natBe_mod 4 (bitCount hi lo), hlow]

theorem bitCount_octets {hi lo : UInt32} {n : Nat} (h : bitCount hi lo = n * 8 % 2 ^ 64) :
    ((lo >>> 3) &&& 0x3f).toNat = n % 64 := by
  have hlo := lo.toNat_lt
  have hshr : (lo >>> 3).toNat = lo.toNat / 8 := by
    rw [UInt32.toNat_shiftRight]
    show lo.toNat >>> 3 = _
    rw [Nat.shiftRight_eq_div_pow]
  have hmask : lo.toNat / 8 &&& 2 ^ 6 - 1 = lo.toNat / 8 % 2 ^ 6 := Nat.and_two_pow_sub_one_eq_mod _ 6
  unfold bitCount at h
  rw [UInt32.toNat_and, hshr]
  refine hmask.trans ?_
  omega

end BlockHash
