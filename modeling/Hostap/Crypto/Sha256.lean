import Hostap.Lib.BlockHash

/-!
# SHA-256

The internal implementation (`src/crypto/sha256-internal.c`): `sha256_init()`, `sha256_process()` and
`sha256_done()` on a message in pieces, and `sha256_vector()` over them. `sha256Digest` is the digest of a whole
message, with the padding behind it, and `sha256Vector_eq` says that they agree.
-/

namespace Hostap

open Octets BlockHash List

/-- The working variables, and the `state` they are added to. -/
structure Sha256Regs where
  a : UInt32
  b : UInt32
  c : UInt32
  d : UInt32
  e : UInt32
  f : UInt32
  g : UInt32
  h : UInt32
  deriving DecidableEq

/-- The `K` array. -/
def sha256K : List UInt32 := [
  0x428a2f98, 0x71374491, 0xb5c0fbcf, 0xe9b5dba5, 0x3956c25b, 0x59f111f1, 0x923f82a4, 0xab1c5ed5,
  0xd807aa98, 0x12835b01, 0x243185be, 0x550c7dc3, 0x72be5d74, 0x80deb1fe, 0x9bdc06a7, 0xc19bf174,
  0xe49b69c1, 0xefbe4786, 0x0fc19dc6, 0x240ca1cc, 0x2de92c6f, 0x4a7484aa, 0x5cb0a9dc, 0x76f988da,
  0x983e5152, 0xa831c66d, 0xb00327c8, 0xbf597fc7, 0xc6e00bf3, 0xd5a79147, 0x06ca6351, 0x14292967,
  0x27b70a85, 0x2e1b2138, 0x4d2c6dfc, 0x53380d13, 0x650a7354, 0x766a0abb, 0x81c2c92e, 0x92722c85,
  0xa2bfe8a1, 0xa81a664b, 0xc24b8b70, 0xc76c51a3, 0xd192e819, 0xd6990624, 0xf40e3585, 0x106aa070,
  0x19a4c116, 0x1e376c08, 0x2748774c, 0x34b0bcb5, 0x391c0cb3, 0x4ed8aa4a, 0x5b9cca4f, 0x682e6ff3,
  0x748f82ee, 0x78a5636f, 0x84c87814, 0x8cc70208, 0x90befffa, 0xa4506ceb, 0xbef9a3f7, 0xc67178f2]

namespace Sha256

/-- `RORc()` -/
def rorc (x y : UInt32) : UInt32 := x >>> y ||| x <<< (32 - y)

def ch (x y z : UInt32) : UInt32 := z ^^^ (x &&& (y ^^^ z))

def maj (x y z : UInt32) : UInt32 := ((x ||| y) &&& z) ||| (x &&& y)

def sigma0 (x : UInt32) : UInt32 := rorc x 2 ^^^ rorc x 13 ^^^ rorc x 22

def sigma1 (x : UInt32) : UInt32 := rorc x 6 ^^^ rorc x 11 ^^^ rorc x 25

def gamma0 (x : UInt32) : UInt32 := rorc x 7 ^^^ rorc x 18 ^^^ (x >>> 3)

def gamma1 (x : UInt32) : UInt32 := rorc x 17 ^^^ rorc x 19 ^^^ (x >>> 10)

/-- `RND()`, and the variables moved on. -/
def rnd (s : Sha256Regs) (k w : UInt32) : Sha256Regs :=
  let t0 := s.h + sigma1 s.e + ch s.e s.f s.g + k + w
  let t1 := sigma0 s.a + maj s.a s.b s.c
  { a := t0 + t1, b := s.a, c := s.b, d := s.c, e := s.d + t0, f := s.e, g := s.f, h := s.g }

/-- More words of `W`. -/
def extend : Nat → List UInt32 → List UInt32
  | 0, w => w
  | n + 1, w =>
    let i := w.length
    let word := gamma1 (w.getD (i - 2) 0) + w.getD (i - 7) 0 + gamma0 (w.getD (i - 15) 0) + w.getD (i - 16) 0
    extend n (w ++ [word])

end Sha256

open Sha256

/-- `sha256_compress()` -/
def sha256Compress (md : Sha256Regs) (buf : Bytes) : Sha256Regs :=
  let w := extend 48 ((List.range 16).map fun i => UInt32.ofNat (beNat (slice buf (4 * i) 4)))
  let s := (sha256K.zip w).foldl (fun s (k, w) => rnd s k w) md
  { a := md.a + s.a, b := md.b + s.b, c := md.c + s.c, d := md.d + s.d,
    e := md.e + s.e, f := md.f + s.f, g := md.g + s.g, h := md.h + s.h }

/-- `struct sha256_state` -/
structure Sha256State where
  length : UInt64
  state : Sha256Regs
  curlen : Nat
  buf : Bytes

def sha256Start : Sha256Regs where
  a := 0x6A09E667
  b := 0xBB67AE85
  c := 0x3C6EF372
  d := 0xA54FF53A
  e := 0x510E527F
  f := 0x9B05688C
  g := 0x1F83D9AB
  h := 0x5BE0CD19

/-- `sha256_init()`, which leaves the octets of `buf` as they are. -/
def sha256Init (buf : Bytes) : Sha256State := { length := 0, state := sha256Start, curlen := 0, buf }

/-- Octets are put into `buf`, which is compressed if it is full. -/
def sha256Put (md : Sha256State) (inp : Bytes) : Sha256State :=
  let buf := overwrite md.curlen inp md.buf
  let curlen := md.curlen + inp.length
  if curlen = 64 then
    { state := sha256Compress md.state buf, length := md.length + 8 * 64, curlen := 0, buf }
  else
    { md with curlen, buf }

/-- The loop of `sha256_process()`. Each round takes an octet at least. -/
def sha256Rounds : Nat → Sha256State → Bytes → Sha256State
  | 0, md, _ => md
  | n + 1, md, inp =>
    if inp.length = 0 then md
    else if md.curlen = 0 ∧ 64 ≤ inp.length then
      let md := { md with state := sha256Compress md.state (inp.take 64), length := md.length + 64 * 8 }
      sha256Rounds n md (inp.drop 64)
    else
      let k := min inp.length (64 - md.curlen)
      sha256Rounds n (sha256Put md (inp.take k)) (inp.drop k)

/-- `sha256_process()` -/
def sha256Process (md : Sha256State) (inp : Bytes) : Option Sha256State :=
  if 64 ≤ md.curlen then none else some (sha256Rounds inp.length md inp)

def sha256Output (s : Sha256Regs) : Bytes :=
  [s.a, s.b, s.c, s.d, s.e, s.f, s.g, s.h].flatMap fun w => natBe 4 w.toNat

/-- `sha256_done()` -/
def sha256Done (md : Sha256State) : Option Bytes :=
  if 64 ≤ md.curlen then none else
    let length := md.length + UInt64.ofNat (md.curlen * 8)
    let buf := overwrite md.curlen [0x80] md.buf
    let curlen := md.curlen + 1
    let (state, buf) :=
      if 56 < curlen then
        let buf := overwrite curlen (zeros (64 - curlen)) buf
        (sha256Compress md.state buf, overwrite 0 (zeros 56) buf)
      else
        (md.state, overwrite curlen (zeros (56 - curlen)) buf)
    some (sha256Output (sha256Compress state (overwrite 56 (natBe 8 length.toNat) buf)))

/-- `sha256_vector()`, with what is on the stack where the state is. -/
def sha256Vector (stack : Block) (elems : List Bytes) : Option Bytes := do
  let ctx ← elems.foldlM sha256Process (sha256Init stack.val)
  sha256Done ctx

/-- The hash of a whole message: the blocks of the message with its padding, one after the other. -/
def sha256Digest (data : Bytes) : Bytes :=
  sha256Output (digest sha256Compress 64 sha256Start (data ++ padding data.length (natBe 8 (data.length * 8))))

example : sha256Digest [0x61, 0x62, 0x63] = [
    0xba, 0x78, 0x16, 0xbf, 0x8f, 0x01, 0xcf, 0xea, 0x41, 0x41, 0x40, 0xde, 0x5d, 0xae, 0x22, 0x23,
    0xb0, 0x03, 0x61, 0xa3, 0x96, 0x17, 0x7a, 0x9c, 0xb4, 0x10, 0xff, 0x61, 0xf2, 0x00, 0x15, 0xad] := by
  decide +kernel

/-- A state that has taken a message. -/
structure Sha256Of (md : Sha256State) (m : Bytes) : Prop where
  buffered : Buffered sha256Compress 64 sha256Start m md.state md.buf
  curlen : md.curlen = m.length % 64
  length : md.length.toNat = m.length / 64 * 512 % 2 ^ 64

section

variable {md : Sha256State} {m inp : Bytes}

theorem sha256Init_of {buf : Bytes} (hbuf : buf.length = 64) : Sha256Of (sha256Init buf) [] :=
  ⟨.nil (by decide) hbuf, rfl, rfl⟩

theorem sha256Length_add {length : UInt64} {n : Nat} (h : length.toNat = n * 512 % 2 ^ 64) :
    (length + 512).toNat = (n + 1) * 512 % 2 ^ 64 := by
  have hadd : (length + 512).toNat = (length.toNat + 512) % 2 ^ 64 := UInt64.toNat_add length 512
  rw [hadd, h]
  omega

theorem sha256Put_of (inp : Bytes) (h : Sha256Of md m) (hlen : md.curlen + inp.length ≤ 64) :
    Sha256Of (sha256Put md inp) (m ++ inp) := by
  obtain ⟨hbuf, hcur, hlength⟩ := h
  unfold sha256Put
  rw [hcur] at hlen
  simp only [hcur]
  split_ifs with hfull
  · refine ⟨hbuf.fill hfull, ?_, ?_⟩
    · rw [length_append]
      show 0 = _
      omega
    · rw [length_append, show (m.length + inp.length) / 64 = m.length / 64 + 1 by omega]
      exact sha256Length_add hlength
  · refine ⟨hbuf.keep (by omega), ?_, ?_⟩
    · rw [length_append]
      show m.length % 64 + inp.length = _
      omega
    · rw [length_append, show (m.length + inp.length) / 64 = m.length / 64 by omega]
      exact hlength

theorem sha256Rounds_of {n : Nat} (inp : Bytes) (h : Sha256Of md m) (hn : inp.length ≤ n) :
    Sha256Of (sha256Rounds n md inp) (m ++ inp) := by
  induction n generalizing md m inp with
  | zero =>
    rw [eq_nil_of_length_eq_zero (Nat.le_zero.mp hn), append_nil]
    exact h
  | succ n ih =>
    have hcur := h.curlen
    unfold sha256Rounds
    split_ifs with hnil hblock
    · rw [eq_nil_of_length_eq_zero hnil, append_nil]
      exact h
    · -- a whole block, which does not go through the buffer
      have htake : (inp.take 64).length = 64 := by
        rw [length_take]
        omega
      have hnext : Sha256Of { md with state := sha256Compress md.state (inp.take 64)
                                      length := md.length + 64 * 8 } (m ++ inp.take 64) := by
        refine ⟨h.buffered.block (by omega) htake, ?_, ?_⟩
        · rw [length_append, htake, Nat.add_mod_right]
          exact hcur
        · rw [length_append, htake, show (m.length + 64) / 64 = m.length / 64 + 1 by omega]
          exact sha256Length_add h.length
      have hrest := ih (inp.drop 64) hnext (by rw [length_drop]; omega)
      rwa [append_assoc, take_append_drop] at hrest
    · -- as much as the buffer has room for
      have htake : (inp.take (min inp.length (64 - md.curlen))).length = min inp.length (64 - md.curlen) := by
        rw [length_take]
        omega
      have hrest := ih (inp.drop (min inp.length (64 - md.curlen)))
        (sha256Put_of (inp.take (min inp.length (64 - md.curlen))) h (by omega)) (by rw [length_drop]; omega)
      rwa [append_assoc, take_append_drop] at hrest

theorem sha256Process_of (inp : Bytes) (h : Sha256Of md m) :
    ∃ md', sha256Process md inp = some md' ∧ Sha256Of md' (m ++ inp) := by
  have hcur := h.curlen
  refine ⟨_, if_neg (by omega), sha256Rounds_of inp h (Nat.le_refl _)⟩

theorem sha256Done_of (h : Sha256Of md m) : sha256Done md = some (sha256Digest m) := by
  have hcur := h.curlen
  have hlength := h.length
  have hbits : natBe 8 (md.length + UInt64.ofNat (md.curlen * 8)).toNat = natBe 8 (m.length * 8) := by
    have hadd : (md.length + UInt64.ofNat (md.curlen * 8)).toNat = m.length * 8 % 256 ^ 8 := by
      rw [UInt64.toNat_add, UInt64.toNat_ofNat', hlength, hcur]
      omega
    rw [hadd, natBe_mod]
  have hdone : sha256Done md = some (sha256Output (finish sha256Compress md.state md.curlen md.buf
      (natBe 8 (md.length + UInt64.ofNat (md.curlen * 8)).toNat))) := if_neg (by omega)
  rw [hdone, hbits, hcur, finish_eq_digest h.buffered (natBe_length 8 _)]
  rfl

end

theorem sha256Vector_eq (stack : Block) (elems : List Bytes) :
    sha256Vector stack elems = some (sha256Digest elems.flatten) := by
  have hall : ∀ e ∈ elems, True := fun _ _ => trivial
  obtain ⟨md, hmd, hof⟩ := foldlM_of (fun e _ h => sha256Process_of e h) hall (sha256Init_of stack.property)
  unfold sha256Vector
  rw [hmd]
  exact sha256Done_of hof

end Hostap
