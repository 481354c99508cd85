import Hostap.Lib.BlockHash
import Hostap.Radius.Md5

/-!
# MD5 of a message in pieces

`MD5Init()`, `MD5Update()` and `MD5Final()` of `src/crypto/md5-internal.c`, and `md5_vector()` over them. They
take the message in pieces, and `md5_vector_eq` says that they compute the digest of the whole message at once.
-/

namespace Hostap

open Octets BlockHash List

/-- `struct MD5Context` -/
structure Md5Context where
  buf : Md5State
  bits0 : UInt32
  bits1 : UInt32
  inp : Bytes

def md5Start : Md5State := ⟨0x67452301, 0xefcdab89, 0x98badcfe, 0x10325476⟩

/-- `MD5Init()`, which leaves the octets of `in` as they are. -/
def md5Init (inp : Bytes) : Md5Context := { buf := md5Start, bits0 := 0, bits1 := 0, inp }

/-- The bit count of `MD5Update()`. -/
def md5Count (ctx : Md5Context) (len : UInt32) : Md5Context :=
  let t := ctx.bits0
  let bits0 := t + (len <<< 3)
  { ctx with bits0, bits1 := (if bits0 < t then ctx.bits1 + 1 else ctx.bits1) + (len >>> 29) }

/-- The block in `in` is filled up and compressed. -/
def md5Fill (ctx : Md5Context) (off : Nat) (data : Bytes) : Md5Context :=
  let inp := overwrite off data ctx.inp
  { ctx with inp, buf := md5Transform ctx.buf inp }

/-- The loop of `MD5Update()` over the full blocks, and the octets behind them. -/
def md5Chunks (ctx : Md5Context) (buf : Bytes) (len : Nat) : Md5Context :=
  if 64 ≤ len then
    md5Chunks (md5Fill ctx 0 (buf.take 64)) (buf.drop 64) (len - 64)
  else
    { ctx with inp := overwrite 0 (buf.take len) ctx.inp }
termination_by len

/-- `MD5Update()` -/
def md5Update (ctx : Md5Context) (buf : Bytes) (len : UInt32) : Md5Context :=
  let p := ((ctx.bits0 >>> 3) &&& 0x3f).toNat
  let ctx := md5Count ctx len
  if p ≠ 0 then
    let t := 64 - p
    if len.toNat < t then
      { ctx with inp := overwrite p (buf.take len.toNat) ctx.inp }
    else
      md5Chunks (md5Fill ctx p (buf.take t)) (buf.drop t) (len.toNat - t)
  else
    md5Chunks ctx buf len.toNat

def md5Output (s : Md5State) : Bytes := md5Le32 s.a ++ md5Le32 s.b ++ md5Le32 s.c ++ md5Le32 s.d

/-- `MD5Final()` -/
def md5Final (ctx : Md5Context) : Bytes :=
  let p := ((ctx.bits0 >>> 3) &&& 0x3f).toNat
  let inp := overwrite p [0x80] ctx.inp
  let count := 64 - 1 - p
  let (buf, inp) :=
    if count < 8 then
      let inp := overwrite (p + 1) (zeros count) inp
      (md5Transform ctx.buf inp, overwrite 0 (zeros 56) inp)
    else
      (ctx.buf, overwrite (p + 1) (zeros (count - 8)) inp)
  let inp := overwrite 60 (md5Le32 ctx.bits1) (overwrite 56 (md5Le32 ctx.bits0) inp)
  md5Output (md5Transform buf inp)

/-- `md5_vector()`, with what is on the stack where the context is. The length of an element is cut down to an
`unsigned`. -/
def md5Vector (stack : Block) (elems : List Bytes) : Bytes :=
  md5Final (elems.foldl (fun ctx e => md5Update ctx e (UInt32.ofNat e.length)) (md5Init stack.val))

/-- A context that has taken a message. -/
structure Md5Of (ctx : Md5Context) (m : Bytes) : Prop where
  buffered : Buffered md5Transform 64 md5Start m ctx.buf ctx.inp
  bits : bitCount ctx.bits1 ctx.bits0 = m.length * 8 % 2 ^ 64

section

variable {ctx : Md5Context} {m buf : Bytes}

theorem md5Init_of {inp : Bytes} (hinp : inp.length = 64) : Md5Of (md5Init inp) [] := by
  refine ⟨.nil (by decide) hinp, ?_⟩
  simp [bitCount, md5Init]

theorem md5Fill_count (ctx : Md5Context) (off : Nat) (d : Bytes) :
    bitCount (md5Fill ctx off d).bits1 (md5Fill ctx off d).bits0 = bitCount ctx.bits1 ctx.bits0 := by
  unfold md5Fill
  rfl

theorem md5Chunks_count (ctx : Md5Context) (buf : Bytes) (len : Nat) :
    bitCount (md5Chunks ctx buf len).bits1 (md5Chunks ctx buf len).bits0 = bitCount ctx.bits1 ctx.bits0 := by
  fun_induction md5Chunks ctx buf len with
  | case1 ctx buf len hlen ih => rw [ih, md5Fill_count]
  | case2 => rfl

theorem md5Fill_buffered {d : Bytes} (h : Buffered md5Transform 64 md5Start m ctx.buf ctx.inp)
    (hlen : m.length % 64 + d.length = 64) :
    Buffered md5Transform 64 md5Start (m ++ d) (md5Fill ctx (m.length % 64) d).buf
      (md5Fill ctx (m.length % 64) d).inp := by
  have hfill := h.fill hlen
  unfold md5Fill
  exact hfill

theorem md5Chunks_buffered (buf : Bytes) (len : Nat) (h : Buffered md5Transform 64 md5Start m ctx.buf ctx.inp)
    (hm : m.length % 64 = 0) (hlen : len ≤ buf.length) :
    Buffered md5Transform 64 md5Start (m ++ buf.take len) (md5Chunks ctx buf len).buf
      (md5Chunks ctx buf len).inp := by
  fun_induction md5Chunks ctx buf len generalizing m with
  | case1 ctx buf len hge ih =>
    have hblock : (buf.take 64).length = 64 := by
      rw [length_take]
      omega
    have hfill := md5Fill_buffered (d := buf.take 64) h (by omega)
    rw [hm] at hfill
    have hmore := ih hfill (by rw [length_append]; omega) (by rw [length_drop]; omega)
    rwa [append_assoc, ← take_add, Nat.add_sub_cancel' hge] at hmore
  | case2 ctx buf len hlt =>
    have hkeep := h.keep (d := buf.take len) (by rw [length_take]; omega)
    rwa [hm] at hkeep

theorem md5Update_of (buf : Bytes) (len : UInt32) (h : Md5Of ctx m) (hlen : len.toNat ≤ buf.length) :
    Md5Of (md5Update ctx buf len) (m ++ buf.take len.toNat) := by
  have hoff := bitCount_octets h.bits
  have hbits : bitCount (md5Count ctx len).bits1 (md5Count ctx len).bits0 =
      (m ++ buf.take len.toNat).length * 8 % 2 ^ 64 := by
    have hadd := bitCount_add ctx.bits1 ctx.bits0 len
    rw [h.bits] at hadd
    refine hadd.trans ?_
    rw [length_append, length_take]
    omega
  have hbuf : Buffered md5Transform 64 md5Start m (md5Count ctx len).buf (md5Count ctx len).inp := h.buffered
  unfold md5Update
  simp only [hoff]
  generalize md5Count ctx len = ctx' at hbits hbuf
  split_ifs with hp hshort
  · -- the octets do not fill the block
    refine ⟨hbuf.keep ?_, hbits⟩
    rw [length_take]
    omega
  · -- they fill it, and the others follow
    have htake : (buf.take (64 - m.length % 64)).length = 64 - m.length % 64 := by
      rw [length_take]
      omega
    have hmore := md5Chunks_buffered (buf.drop (64 - m.length % 64)) (len.toNat - (64 - m.length % 64))
      (md5Fill_buffered (d := buf.take (64 - m.length % 64)) hbuf (by omega))
      (by rw [length_append]; omega) (by rw [length_drop]; omega)
    rw [append_assoc, ← take_add, Nat.add_sub_cancel' (by omega)] at hmore
    refine ⟨hmore, ?_⟩
    rw [md5Chunks_count, md5Fill_count, hbits]
  · refine ⟨md5Chunks_buffered buf _ hbuf (by omega) hlen, ?_⟩
    rw [md5Chunks_count, hbits]

theorem le16_congr {a b : Nat} (h : a % 2 ^ 16 = b % 2 ^ 16) : le16 a = le16 b := by
  have hlow : UInt8.ofNat a = UInt8.ofNat b := by
    apply UInt8.toNat_inj.mp
    rw [UInt8.toNat_ofNat', UInt8.toNat_ofNat']
    omega
  have hhigh : UInt8.ofNat (a / 256) = UInt8.ofNat (b / 256) := by
    apply UInt8.toNat_inj.mp
    rw [UInt8.toNat_ofNat', UInt8.toNat_ofNat']
    omega
  unfold le16
  rw [hlow, hhigh]

theorem md5Padding_eq (h : Md5Of ctx m) :
    md5Padding m.length = padding m.length (md5Le32 ctx.bits0 ++ md5Le32 ctx.bits1) := by
  have hbits := h.bits
  have hlo := ctx.bits0.toNat_lt
  unfold bitCount at hbits
  unfold md5Padding md5Le32 padding
  rw [le16_congr (show m.length * 8 % 2 ^ 16 = ctx.bits0.toNat % 2 ^ 16 by omega),
    le16_congr (show m.length * 8 / 2 ^ 16 % 2 ^ 16 = ctx.bits0.toNat / 2 ^ 16 % 2 ^ 16 by omega),
    le16_congr (show m.length * 8 / 2 ^ 32 % 2 ^ 16 = ctx.bits1.toNat % 2 ^ 16 by omega),
    le16_congr (show m.length * 8 / 2 ^ 48 % 2 ^ 16 = ctx.bits1.toNat / 2 ^ 16 % 2 ^ 16 by omega)]
  simp only [append_assoc]

theorem md5Le32_length (w : UInt32) : (md5Le32 w).length = 4 := rfl

theorem md5Blocks_eq (n : Nat) (s : Md5State) (data : Bytes) :
    md5Blocks n s data = blocks md5Transform 64 n s data := by
  induction n generalizing s data with
  | zero => rfl
  | succ n ih => exact ih _ _

theorem md5Final_eq_finish (hinp : ctx.inp.length = 64) (hp : ((ctx.bits0 >>> 3) &&& 0x3f).toNat < 64) :
    md5Final ctx = md5Output (finish md5Transform ctx.buf ((ctx.bits0 >>> 3) &&& 0x3f).toNat ctx.inp
      (md5Le32 ctx.bits0 ++ md5Le32 ctx.bits1)) := by
  have hbits : ∀ inp : Bytes, inp.length = 64 →
      overwrite 60 (md5Le32 ctx.bits1) (overwrite 56 (md5Le32 ctx.bits0) inp) =
        overwrite 56 (md5Le32 ctx.bits0 ++ md5Le32 ctx.bits1) inp := by
    intro inp hlen
    exact overwrite_overwrite _ _ _ rfl (by rw [hlen, md5Le32_length])
  unfold md5Final finish
  generalize ((ctx.bits0 >>> 3) &&& 0x3f).toNat = p at hp
  have hfirst : (overwrite p [0x80] ctx.inp).length = 64 :=
    (overwrite_length (by rw [hinp, length_singleton]; exact hp)).trans hinp
  have hrest : 64 - 1 - p = 64 - (p + 1) := by omega
  simp only [hrest]
  by_cases hlong : 64 - (p + 1) < 8
  · have hfilled : (overwrite (p + 1) (zeros (64 - (p + 1))) (overwrite p [0x80] ctx.inp)).length = 64 :=
      (overwrite_length (by rw [hfirst, zeros_length]; omega)).trans hfirst
    simp only [if_pos hlong, if_pos (show 56 < p + 1 by omega)]
    rw [hbits _ ((overwrite_length (by rw [hfilled, zeros_length]; decide)).trans hfilled)]
  · simp only [if_neg hlong, if_neg (show ¬ 56 < p + 1 by omega), show 64 - (p + 1) - 8 = 56 - (p + 1) by omega]
    rw [hbits _ ((overwrite_length (by rw [hfirst, zeros_length]; omega)).trans hfirst)]

theorem md5Final_of (h : Md5Of ctx m) : md5Final ctx = md5Digest m := by
  have hcount : (md5Le32 ctx.bits0 ++ md5Le32 ctx.bits1).length = 8 := rfl
  have hoff := bitCount_octets h.bits
  rw [md5Final_eq_finish h.buffered.1 (by omega), hoff, finish_eq_digest h.buffered hcount, ← md5Padding_eq h]
  unfold digest
  rw [← md5Blocks_eq]
  rfl

/-- Of an element of 4 GiB or more as many octets count as its length has modulo `2 ^ 32`. -/
theorem md5Vector_eq (stack : Block) (elems : List Bytes) :
    md5Vector stack elems = md5Digest (elems.flatMap fun e => e.take (e.length % 2 ^ 32)) := by
  have hall : ∀ (elems : List Bytes) (ctx : Md5Context) (m : Bytes), Md5Of ctx m →
      Md5Of (elems.foldl (fun ctx e => md5Update ctx e (UInt32.ofNat e.length)) ctx)
        (m ++ elems.flatMap fun e => e.take (e.length % 2 ^ 32)) := by
    intro elems
    induction elems with
    | nil =>
      intro ctx m h
      rwa [flatMap_nil, append_nil]
    | cons e elems ih =>
      intro ctx m h
      have hlen : (UInt32.ofNat e.length).toNat = e.length % 2 ^ 32 := UInt32.toNat_ofNat'
      have hstep := md5Update_of e (UInt32.ofNat e.length) h (hlen ▸ Nat.mod_le _ _)
      rw [hlen] at hstep
      rw [flatMap_cons, ← append_assoc]
      exact ih _ _ hstep
  exact md5Final_of (hall elems _ [] (md5Init_of stack.property))

end

end Hostap
