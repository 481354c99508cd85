import Hostap.Lib.Octets

/-!
# MD5 and HMAC-MD5

The digest of `src/crypto/md5-internal.c`, on the whole message at once, and `hmac_md5()` of
`src/crypto/md5.c` over any digest of 16 octets: a build with a TLS library takes MD5 from there
(`Md5Lib`). The registers of `MD5Transform()` change their roles from one step to the next; here they
are moved instead.
-/

namespace Hostap

open Octets

/-- `MD5_MAC_LEN`. -/
abbrev md5MacLen : Nat := 16

/-- A digest of 16 octets, as `md5_vector()` computes it over the concatenation of its arguments. -/
structure Md5Lib where
  md5 : Bytes → Bytes
  md5_length : ∀ data, (md5 data).length = md5MacLen

/-- The pads of `hmac_md5_vector()`: the key with zeros up to 64 octets, and an octet added to each. -/
def hmacPad (key : Bytes) (b : UInt8) : Bytes := (key ++ zeros (64 - key.length)).map (· ^^^ b)

/-- `hmac_md5()`. A key longer than 64 octets is replaced by its digest. -/
def hmacMd5 (lib : Md5Lib) (key data : Bytes) : Bytes :=
  let key := if 64 < key.length then lib.md5 key else key
  lib.md5 (hmacPad key 0x5c ++ lib.md5 (hmacPad key 0x36 ++ data))

@[simp] theorem hmacMd5_length (lib : Md5Lib) (key data : Bytes) :
    (hmacMd5 lib key data).length = md5MacLen := lib.md5_length _

/-! ## The internal implementation -/

/-- The four registers. -/
structure Md5State where
  a : UInt32
  b : UInt32
  c : UInt32
  d : UInt32
  deriving DecidableEq

/-- The four core functions. -/
inductive Md5Round
  | f1
  | f2
  | f3
  | f4

def Md5Round.core : Md5Round → UInt32 → UInt32 → UInt32 → UInt32
  | .f1, x, y, z => z ^^^ (x &&& (y ^^^ z))
  | .f2, x, y, z => y ^^^ (z &&& (x ^^^ y))
  | .f3, x, y, z => x ^^^ y ^^^ z
  | .f4, x, y, z => y ^^^ (x ||| ~~~ z)

/-- `MD5STEP`, with the registers moved on. -/
def Md5State.step (s : Md5State) (f : Md5Round) (data : UInt32) (shift : UInt32) : Md5State :=
  let w := s.a + f.core s.b s.c s.d + data
  { a := s.d, b := (w <<< shift ||| w >>> (32 - shift)) + s.b, c := s.b, d := s.c }

/-- The steps of a round: the index of the input word and the constant. The shifts repeat. -/
def md5Rounds : List (Md5Round × List UInt32 × List (Nat × UInt32)) := [
  (.f1, [7, 12, 17, 22], [
    (0, 0xd76aa478), (1, 0xe8c7b756), (2, 0x242070db), (3, 0xc1bdceee),
    (4, 0xf57c0faf), (5, 0x4787c62a), (6, 0xa8304613), (7, 0xfd469501),
    (8, 0x698098d8), (9, 0x8b44f7af), (10, 0xffff5bb1), (11, 0x895cd7be),
    (12, 0x6b901122), (13, 0xfd987193), (14, 0xa679438e), (15, 0x49b40821)]),
  (.f2, [5, 9, 14, 20], [
    (1, 0xf61e2562), (6, 0xc040b340), (11, 0x265e5a51), (0, 0xe9b6c7aa),
    (5, 0xd62f105d), (10, 0x02441453), (15, 0xd8a1e681), (4, 0xe7d3fbc8),
    (9, 0x21e1cde6), (14, 0xc33707d6), (3, 0xf4d50d87), (8, 0x455a14ed),
    (13, 0xa9e3e905), (2, 0xfcefa3f8), (7, 0x676f02d9), (12, 0x8d2a4c8a)]),
  (.f3, [4, 11, 16, 23], [
    (5, 0xfffa3942), (8, 0x8771f681), (11, 0x6d9d6122), (14, 0xfde5380c),
    (1, 0xa4beea44), (4, 0x4bdecfa9), (7, 0xf6bb4b60), (10, 0xbebfbc70),
    (13, 0x289b7ec6), (0, 0xeaa127fa), (3, 0xd4ef3085), (6, 0x04881d05),
    (9, 0xd9d4d039), (12, 0xe6db99e5), (15, 0x1fa27cf8), (2, 0xc4ac5665)]),
  (.f4, [6, 10, 15, 21], [
    (0, 0xf4292244), (7, 0x432aff97), (14, 0xab9423a7), (5, 0xfc93a039),
    (12, 0x655b59c3), (3, 0x8f0ccc92), (10, 0xffeff47d), (1, 0x85845dd1),
    (8, 0x6fa87e4f), (15, 0xfe2ce6e0), (6, 0xa3014314), (13, 0x4e0811a1),
    (4, 0xf7537e82), (11, 0xbd3af235), (2, 0x2ad7d2bb), (9, 0xeb86d391)])]

def md5Word (block : Bytes) (i : Nat) : UInt32 :=
  UInt32.ofNat (getLe16 (block.drop (4 * i)) + 65536 * getLe16 (block.drop (4 * i + 2)))

/-- `MD5Transform()`. -/
def md5Transform (s : Md5State) (block : Bytes) : Md5State :=
  let t := md5Rounds.foldl (fun t (f, shifts, steps) =>
    (steps.zip (shifts ++ shifts ++ shifts ++ shifts)).foldl
      (fun t ((i, k), shift) => t.step f (md5Word block i + k) shift) t) s
  { a := s.a + t.a, b := s.b + t.b, c := s.c + t.c, d := s.d + t.d }

/-- The padding of `MD5Final()` for a message of a given length. -/
def md5Padding (len : Nat) : Bytes :=
  0x80 :: zeros ((119 - len % 64) % 64) ++
    le16 (len * 8) ++ le16 (len * 8 / 2 ^ 16) ++ le16 (len * 8 / 2 ^ 32) ++ le16 (len * 8 / 2 ^ 48)

def md5Blocks : Nat → Md5State → Bytes → Md5State
  | 0, s, _ => s
  | n + 1, s, data => md5Blocks n (md5Transform s (data.take 64)) (data.drop 64)

def md5Le32 (w : UInt32) : Bytes := le16 w.toNat ++ le16 (w.toNat / 2 ^ 16)

/-- The digest of `md5-internal.c`. -/
def md5Digest (data : Bytes) : Bytes :=
  let padded := data ++ md5Padding data.length
  let s := md5Blocks (padded.length / 64) ⟨0x67452301, 0xefcdab89, 0x98badcfe, 0x10325476⟩ padded
  md5Le32 s.a ++ md5Le32 s.b ++ md5Le32 s.c ++ md5Le32 s.d

def md5Internal : Md5Lib where
  md5 := md5Digest
  md5_length _ := rfl

example : md5Internal.md5 [0x61, 0x62, 0x63] = [0x90, 0x01, 0x50, 0x98, 0x3c, 0xd2, 0x4f, 0xb0, 0xd6,
    0x96, 0x3f, 0x7d, 0x28, 0xe1, 0x7f, 0x72] := by
  decide +kernel

end Hostap
