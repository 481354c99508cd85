import Hostap.Lib.BlockHash

/-!
# SHA-1

The internal implementation (`src/crypto/sha1-internal.c`): `SHA1Init()`, `SHA1Update()` and `SHA1Final()` on a
message in pieces, and `sha1_vector()` over them. `SHA1Final()` adds the padding with `SHA1Update()`, octet by
octet. `sha1Digest` is the digest of a whole message, and `sha1Vector_eq` says that they agree.

The registers of `SHA1Transform()` change their roles from one step to the next; here they are moved instead.
-/

namespace Hostap

open Octets BlockHash List

/-- The working variables, and the `state` they are added to. -/
structure Sha1Regs where
  a : UInt32
  b : UInt32
  c : UInt32
  d : UInt32
  e : UInt32
  deriving DecidableEq

namespace Sha1

def rol (value bits : UInt32) : UInt32 := value <<< bits ||| value >>> (32 - bits)

/-- The function and the constant of a step. `R0` and `R1` have them in common. -/
def mix (i : Nat) (w x y : UInt32) : UInt32 :=
  if i < 20 then ((w &&& (x ^^^ y)) ^^^ y) + 0x5A827999
  else if i < 40 then (w ^^^ x ^^^ y) + 0x6ED9EBA1
  else if i < 60 then (((w ||| x) &&& y) ||| (w &&& x)) + 0x8F1BBCDC
  else (w ^^^ x ^^^ y) + 0xCA62C1D6

/-- `blk()`, which takes the place of a word that was used 16 steps before. -/
def blk (block : List UInt32) (i : Nat) : UInt32 :=
  let l := fun k => block.getD (k % 16) 0
  rol (l (i + 13) ^^^ l (i + 8) ^^^ l (i + 2) ^^^ l i) 1

/-- `R0` to `R4` -/
def turn (r : Sha1Regs × List UInt32) (i : Nat) : Sha1Regs × List UInt32 :=
  let block := if i < 16 then r.2 else r.2.set (i % 16) (blk r.2 i)
  let s := r.1
  ({ a := s.e + mix i s.b s.c s.d + block.getD (i % 16) 0 + rol s.a 5, b := s.a, c := rol s.b 30, d := s.c,
     e := s.d }, block)

end Sha1

open Sha1

/-- `SHA1Transform()` -/
def sha1Transform (state : Sha1Regs) (buffer : Bytes) : Sha1Regs :=
  let block := (List.range 16).map fun i => UInt32.ofNat (beNat (slice buffer (4 * i) 4))
  let s := ((List.range 80).foldl turn (state, block)).1
  { a := state.a + s.a, b := state.b + s.b, c := state.c + s.c, d := state.d + s.d, e := state.e + s.e }

/-- `struct SHA1Context` -/
structure Sha1Context where
  state : Sha1Regs
  count0 : UInt32
  count1 : UInt32
  buffer : Bytes

def sha1Start : Sha1Regs where
  a := 0x67452301
  b := 0xEFCDAB89
  c := 0x98BADCFE
  d := 0x10325476
  e := 0xC3D2E1F0

/-- `SHA1Init()`, which leaves the octets of `buffer` as they are. -/
def sha1Init (buffer : Bytes) : Sha1Context := { state := sha1Start, count0 := 0, count1 := 0, buffer }

/-- The loop of `SHA1Update()`, where it does not read outside of the data. -/
def sha1Loop (state : Sha1Regs) (data : Bytes) (i len : Nat) : Option (Sha1Regs × Nat) :=
  if (i + 63) % 2 ^ 32 < len then
    if i + 64 ≤ data.length then sha1Loop (sha1Transform state (slice data i 64)) data (i + 64) len else none
  else some (state, i)
termination_by data.length - i

/-- `os_memcpy(&context->buffer[j], &data[i], len - i)`, where it does not go outside. -/
def sha1Copy (ctx : Sha1Context) (j : Nat) (data : Bytes) (i len : Nat) : Option Sha1Context :=
  if j + (len - i) ≤ 64 ∧ len ≤ data.length then
    some { ctx with buffer := overwrite j (slice data i (len - i)) ctx.buffer }
  else none

/-- The bit count of `SHA1Update()`. -/
def sha1Count (ctx : Sha1Context) (len : UInt32) : Sha1Context :=
  let count0 := ctx.count0 + (len <<< 3)
  { ctx with count0, count1 := (if count0 < len <<< 3 then ctx.count1 + 1 else ctx.count1) + (len >>> 29) }

/-- `SHA1Update()`. For a length close to `2 ^ 32` the sum of `j` and `len` overflows. -/
def sha1Update (ctx : Sha1Context) (data : Bytes) (len : UInt32) : Option Sha1Context :=
  let j := (ctx.count0 >>> 3) &&& 63
  let ctx := sha1Count ctx len
  if 63 < j + len then do
    let i := 64 - j.toNat
    let ctx ← sha1Copy ctx j.toNat data 0 i
    let (state, i) ← sha1Loop (sha1Transform ctx.state ctx.buffer) data i len.toNat
    sha1Copy { ctx with state } 0 data i len.toNat
  else
    sha1Copy ctx j.toNat data 0 len.toNat

/-- The zeros of `SHA1Final()`. There are no more than 63. -/
def sha1Zeros : Nat → Sha1Context → Option Sha1Context
  | 0, _ => none
  | n + 1, ctx =>
    if ctx.count0 &&& 504 ≠ 448 then do
      let ctx ← sha1Update ctx [0] 1
      sha1Zeros n ctx
    else some ctx

def sha1Output (s : Sha1Regs) : Bytes := [s.a, s.b, s.c, s.d, s.e].flatMap fun w => natBe 4 w.toNat

/-- `SHA1Final()` -/
def sha1Final (ctx : Sha1Context) : Option Bytes := do
  let finalcount := natBe 4 ctx.count1.toNat ++ natBe 4 ctx.count0.toNat
  let ctx ← sha1Update ctx [0x80] 1
  let ctx ← sha1Zeros 64 ctx
  let ctx ← sha1Update ctx finalcount 8
  return sha1Output ctx.state

/-- `sha1_vector()`, with what is on the stack where the context is. The length of an element is cut down to a
`u32`. -/
def sha1Vector (stack : Block) (elems : List Bytes) : Option Bytes := do
  let ctx ← elems.foldlM (fun ctx e => sha1Update ctx e (UInt32.ofNat e.length)) (sha1Init stack.val)
  sha1Final ctx

/-- The hash of a whole message. -/
def sha1Digest (data : Bytes) : Bytes :=
  sha1Output (digest sha1Transform 64 sha1Start (data ++ padding data.length (natBe 8 (data.length * 8))))

example : sha1Digest [0x61, 0x62, 0x63] = [0xa9, 0x99, 0x3e, 0x36, 0x47, 0x06, 0x81, 0x6a, 0xba, 0x3e, 0x25,
    0x71, 0x78, 0x50, 0xc2, 0x6c, 0x9c, 0xd0, 0xd8, 0x9d] := by
  decide +kernel

/-- A context that has taken a message. -/
structure Sha1Of (ctx : Sha1Context) (m : Bytes) : Prop where
  buffered : Buffered sha1Transform 64 sha1Start m ctx.state ctx.buffer
  count : bitCount ctx.count1 ctx.count0 = m.length * 8 % 2 ^ 64

section

variable {ctx : Sha1Context} {m data : Bytes}

theorem sha1Init_of {buffer : Bytes} (hbuf : buffer.length = 64) : Sha1Of (sha1Init buffer) [] := by
  refine ⟨.nil (by decide) hbuf, ?_⟩
  simp [bitCount, sha1Init]

theorem sha1Loop_buffered {state : Sha1Regs} {buf : Bytes} {i : Nat}
    (h : Buffered sha1Transform 64 sha1Start (m ++ data.take i) state buf)
    (hpos : (m ++ data.take i).length % 64 = 0)
    (hi : i ≤ data.length) (hlen : data.length + 63 < 2 ^ 32) :
    ∃ state' i', sha1Loop state data i data.length = some (state', i') ∧ i' ≤ data.length ∧
      data.length < i' + 64 ∧ Buffered sha1Transform 64 sha1Start (m ++ data.take i') state' buf ∧
      (m ++ data.take i').length % 64 = 0 := by
  have hmod : (i + 63) % 2 ^ 32 = i + 63 := Nat.mod_eq_of_lt (by omega)
  by_cases hmore : i + 63 < data.length
  · have hblock : (slice data i 64).length = 64 := slice_length (by omega)
    have htake : m ++ data.take i ++ slice data i 64 = m ++ data.take (i + 64) := by
      unfold slice
      rw [append_assoc, ← take_add]
    have hnext := h.block hpos hblock
    rw [htake] at hnext
    have hpos' : (m ++ data.take (i + 64)).length % 64 = 0 := by
      rw [← htake, length_append, hblock]
      omega
    obtain ⟨state', i', hloop, hrest⟩ := sha1Loop_buffered hnext hpos' (by omega) hlen
    refine ⟨state', i', ?_, hrest⟩
    rw [sha1Loop, hmod, if_pos hmore, if_pos (by omega)]
    exact hloop
  · refine ⟨state, i, ?_, hi, by omega, h, hpos⟩
    rw [sha1Loop, hmod, if_neg hmore]
termination_by data.length - i

theorem sha1Copy_eq {j i len : Nat} (hj : j + (len - i) ≤ 64) (hlen : len ≤ data.length) :
    sha1Copy ctx j data i len = some { ctx with buffer := overwrite j (slice data i (len - i)) ctx.buffer } :=
  if_pos ⟨hj, hlen⟩

theorem sha1Count_count (ctx : Sha1Context) (len : UInt32) :
    bitCount (sha1Count ctx len).count1 (sha1Count ctx len).count0 =
      (bitCount ctx.count1 ctx.count0 + len.toNat * 8) % 2 ^ 64 := by
  unfold sha1Count
  simp only [carry_comm]
  exact bitCount_add _ _ _

theorem sha1Update_of (data : Bytes) (h : Sha1Of ctx m) (hlen : data.length + 63 < 2 ^ 32) :
    ∃ ctx', sha1Update ctx data (UInt32.ofNat data.length) = some ctx' ∧ Sha1Of ctx' (m ++ data) := by
  have hu32 : (UInt32.ofNat data.length).toNat = data.length := by
    rw [UInt32.toNat_ofNat']
    exact Nat.mod_eq_of_lt (by omega)
  have hoff := bitCount_octets h.count
  have hcount := sha1Count_count ctx (UInt32.ofNat data.length)
  rw [h.count, hu32, show (m.length * 8 % 2 ^ 64 + data.length * 8) % 2 ^ 64 =
    (m ++ data).length * 8 % 2 ^ 64 by rw [length_append]; omega] at hcount
  have hsum : (63 : UInt32) < ((ctx.count0 >>> 3) &&& 63) + UInt32.ofNat data.length ↔
      63 < m.length % 64 + data.length := by
    rw [UInt32.lt_iff_toNat_lt, UInt32.toNat_add, hoff, hu32, Nat.mod_eq_of_lt (by omega)]
    rfl
  have hbuf : Buffered sha1Transform 64 sha1Start m (sha1Count ctx (UInt32.ofNat data.length)).state
    (sha1Count ctx (UInt32.ofNat data.length)).buffer := h.buffered
  unfold sha1Update
  simp only [hoff, hu32, hsum]
  generalize sha1Count ctx (UInt32.ofNat data.length) = ctx at hcount hbuf
  split_ifs with hfull
  · -- the block is filled, and the others are compressed where they stand
    have htake : (data.take (64 - m.length % 64)).length = 64 - m.length % 64 := by
      rw [length_take]
      omega
    have hfill := hbuf.fill (d := data.take (64 - m.length % 64)) (by omega)
    obtain ⟨state, i, hloop, hi, hrest, hlast, hpos⟩ := sha1Loop_buffered hfill
      (by rw [length_append, htake]; omega) (by omega) hlen
    have hkeep := hlast.keep (d := data.drop i) (by rw [hpos, length_drop]; omega)
    rw [hpos, append_assoc, take_append_drop] at hkeep
    have hslice : slice data i (data.length - i) = data.drop i := by
      unfold slice
      rw [take_of_length_le (by rw [length_drop])]
    refine ⟨{ ctx with
        state
        buffer := overwrite 0 (data.drop i)
          (overwrite (m.length % 64) (data.take (64 - m.length % 64)) ctx.buffer) }, ?_, hkeep, hcount⟩
    rw [sha1Copy_eq (by omega) (by omega)]
    have hfront : slice data 0 (64 - m.length % 64 - 0) = data.take (64 - m.length % 64) := rfl
    simp only [hfront, Option.bind_eq_bind, Option.bind_some, hloop]
    rw [sha1Copy_eq (by omega) (Nat.le_refl _), hslice]
  · have hkeep := hbuf.keep (d := data) (by omega)
    have hslice : slice data 0 (data.length - 0) = data := by
      unfold slice
      exact take_of_length_le (Nat.le_refl _)
    rw [sha1Copy_eq (by omega) (Nat.le_refl _), hslice]
    exact ⟨_, rfl, hkeep, hcount⟩

theorem sha1Octets_mask (x : UInt32) : x &&& 504 ≠ 448 ↔ ((x >>> 3) &&& 0x3f).toNat ≠ 56 := by
  have hall : ∀ n : Fin 512, n.val &&& 504 = 448 ↔ n.val / 8 = 56 := by decide +kernel
  have h := hall ⟨x.toNat % 512, Nat.mod_lt _ (by decide)⟩
  have hmask : (x &&& 504).toNat = x.toNat % 512 &&& 504 := by
    rw [← Nat.and_two_pow_sub_one_eq_mod x.toNat 9, Nat.and_assoc]
    exact UInt32.toNat_and x 504
  have hshift : ((x >>> 3) &&& 0x3f).toNat = x.toNat % 512 / 8 := by
    rw [UInt32.toNat_and, UInt32.toNat_shiftRight]
    show x.toNat >>> 3 &&& 2 ^ 6 - 1 = _
    rw [Nat.shiftRight_eq_div_pow, Nat.and_two_pow_sub_one_eq_mod]
    omega
  rw [hshift, Ne, ← UInt32.toNat_inj, hmask]
  exact not_congr h

theorem sha1Zeros_of {n : Nat} (h : Sha1Of ctx m) (hn : (120 - m.length % 64) % 64 < n) :
    ∃ ctx', sha1Zeros n ctx = some ctx' ∧ Sha1Of ctx' (m ++ zeros ((120 - m.length % 64) % 64)) := by
  induction n generalizing ctx m with
  | zero => omega
  | succ n ih =>
    have hmask := sha1Octets_mask ctx.count0
    rw [bitCount_octets h.count] at hmask
    unfold sha1Zeros
    by_cases hmore : m.length % 64 ≠ 56
    · obtain ⟨ctx₁, hupdate, hof⟩ := sha1Update_of [0] h (by decide)
      have hlen : (m ++ [0]).length = m.length + 1 := by rw [length_append, length_singleton]
      obtain ⟨ctx', hzeros, hof'⟩ := ih hof (by rw [hlen]; omega)
      have hsum : (120 - m.length % 64) % 64 = 1 + (120 - (m ++ [0]).length % 64) % 64 := by
        rw [hlen]
        omega
      refine ⟨ctx', ?_, ?_⟩
      · rw [if_pos (hmask.mpr hmore)]
        show (sha1Update ctx [0] (UInt32.ofNat ([0] : Bytes).length) >>= sha1Zeros n) = _
        rw [hupdate]
        exact hzeros
      · rw [hsum, zeros_add, ← append_assoc]
        exact hof'
    · refine ⟨ctx, if_neg fun h => hmore (hmask.mp h), ?_⟩
      rw [show (120 - m.length % 64) % 64 = 0 by omega]
      show Sha1Of ctx (m ++ [])
      rwa [append_nil]

theorem sha1Final_of (h : Sha1Of ctx m) : sha1Final ctx = some (sha1Digest m) := by
  have hcount : natBe 4 ctx.count1.toNat ++ natBe 4 ctx.count0.toNat = natBe 8 (m.length * 8) := by
    rw [← natBe_bitCount, h.count]
    exact natBe_mod 8 _
  obtain ⟨ctx₁, hone, hof₁⟩ := sha1Update_of [0x80] h (by decide)
  have hlen : (m ++ [0x80]).length = m.length + 1 := by rw [length_append, length_singleton]
  obtain ⟨ctx₂, hzeros, hof₂⟩ := sha1Zeros_of (n := 64) hof₁ (by omega)
  obtain ⟨ctx₃, hlast, hof₃⟩ := sha1Update_of (natBe 8 (m.length * 8)) hof₂ (by
    rw [natBe_length]
    decide)
  have hpad : m ++ [0x80] ++ zeros ((120 - (m ++ [0x80]).length % 64) % 64) ++ natBe 8 (m.length * 8) =
      m ++ padding m.length (natBe 8 (m.length * 8)) := by
    have hsum : (120 - (m ++ [0x80]).length % 64) % 64 = (119 - m.length % 64) % 64 := by
      rw [hlen]
      omega
    unfold padding
    rw [hsum, append_assoc, append_assoc]
    rfl
  rw [hpad] at hof₃
  have hdigest := hof₃.buffered.eq_digest (padding_length (natBe_length 8 _))
  rw [natBe_length] at hlast
  unfold sha1Final
  rw [hcount]
  show (sha1Update ctx [0x80] (UInt32.ofNat ([0x80] : Bytes).length) >>= _) = _
  rw [hone]
  show (sha1Zeros 64 ctx₁ >>= _) = _
  rw [hzeros]
  show (sha1Update ctx₂ (natBe 8 (m.length * 8)) 8 >>= _) = _
  rw [show (8 : UInt32) = UInt32.ofNat 8 from rfl, hlast]
  show some (sha1Output ctx₃.state) = _
  rw [hdigest]
  rfl

end

theorem sha1Vector_eq (stack : Block) (elems : List Bytes)
    (hlen : ∀ e ∈ elems, e.length + 63 < 2 ^ 32) :
    sha1Vector stack elems = some (sha1Digest elems.flatten) := by
  obtain ⟨ctx, hctx, hof⟩ := foldlM_of (fun e he h => sha1Update_of e h he) hlen (sha1Init_of stack.property)
  unfold sha1Vector
  rw [hctx]
  exact sha1Final_of hof

end Hostap
