import Hostap.Crypto.Md5Vector
import Hostap.Crypto.Sha1
import Hostap.Crypto.Sha256
import Mathlib.Data.List.Basic

/-!
# HMAC over a vector

`hmac_md5_vector()`, `hmac_sha1_vector()` and `hmac_sha256_vector()` (`src/crypto/md5.c`, `sha1.c`, `sha256.c`)
are the same function over three hashes. The stack is another one each time the hash is called.
-/

namespace Hostap

open Octets BlockHash List

/-- The three functions. `vector i` is the `i`-th call of the hash. -/
def hmacVector (vector : Nat → List Bytes → Option Bytes) (key : Bytes) (elems : List Bytes) : Option Bytes :=
  if 5 < elems.length then none else
    (if 64 < key.length then vector 0 [key] else some key).bind fun key =>
      (vector 1 (hmacPad key 0x36 :: elems)).bind fun mac => vector 2 [hmacPad key 0x5c, mac]

variable (stack : Nat → Block)

def hmacMd5Vector : Bytes → List Bytes → Option Bytes :=
  hmacVector fun i elems => some (md5Vector (stack i) elems)

def hmacSha1Vector : Bytes → List Bytes → Option Bytes :=
  hmacVector fun i => sha1Vector (stack i)

def hmacSha256Vector : Bytes → List Bytes → Option Bytes :=
  hmacVector fun i => sha256Vector (stack i)

/-- HMAC of a whole message. -/
def hmacOf (hash : Bytes → Bytes) (key data : Bytes) : Bytes :=
  let key := if 64 < key.length then hash key else key
  hash (hmacPad key 0x5c ++ hash (hmacPad key 0x36 ++ data))

section

variable {vector : Nat → List Bytes → Option Bytes} {hash : Bytes → Bytes} {ok : Bytes → Prop} {key : Bytes}
  {elems : List Bytes}

theorem hmacPad_length (b : UInt8) (hkey : key.length ≤ 64) : (hmacPad key b).length ≤ 64 := by
  unfold hmacPad
  rw [length_map, length_append, zeros_length]
  omega

/-- HMAC over a hash that does not depend on how its elements, which are `ok`, are cut. -/
theorem hmacVector_eq (hok : ∀ e : Bytes, e.length ≤ 64 → ok e) (hhash : ∀ data, (hash data).length ≤ 64)
    (hvector : ∀ i elems, (∀ e ∈ elems, ok e) → vector i elems = some (hash elems.flatten))
    (hall : ∀ e ∈ key :: elems, ok e) :
    hmacVector vector key elems = if 5 < elems.length then none else some (hmacOf hash key elems.flatten) := by
  have hkey : (if 64 < key.length then vector 0 [key] else some key) =
      some (if 64 < key.length then hash key else key) := by
    split
    · rw [hvector 0 [key] (forall_mem_singleton.mpr (hall key mem_cons_self)), flatten_singleton]
    · rfl
  have hle : (if 64 < key.length then hash key else key).length ≤ 64 := by
    split
    · exact hhash key
    · omega
  unfold hmacVector hmacOf
  split
  · rfl
  -- what matters of the key from here on is that it fits into a block
  generalize (if 64 < key.length then hash key else key) = key' at hkey hle
  have hinner := hvector 1 (hmacPad key' 0x36 :: elems) (forall_mem_cons.mpr
    ⟨hok _ (hmacPad_length _ hle), fun e he => hall e (mem_cons_of_mem _ he)⟩)
  have houter := hvector 2 [hmacPad key' 0x5c, hash (hmacPad key' 0x36 ++ elems.flatten)] (forall_mem_cons.mpr
    ⟨hok _ (hmacPad_length _ hle), forall_mem_singleton.mpr (hok _ (hhash _))⟩)
  rw [hkey, Option.bind_some, hinner, Option.bind_some, flatten_cons, houter, flatten_cons, flatten_singleton]

end

variable (key : Bytes) (elems : List Bytes)

/-- **MD5 in pieces.** However it is cut, the digest and the HMAC are those of the message as a whole. -/
theorem md5_in_pieces (hall : ∀ e ∈ key :: elems, e.length < 2 ^ 32) :
    md5Vector (stack 0) elems = md5Digest elems.flatten ∧
    hmacMd5Vector stack key elems =
      if 5 < elems.length then none else some (hmacMd5 md5Internal key elems.flatten) := by
  have hvector : ∀ i elems, (∀ e ∈ elems, e.length < 2 ^ 32) →
      md5Vector (stack i) elems = md5Digest elems.flatten := by
    intro i elems hlen
    have htake : ∀ e ∈ elems, e.take (e.length % 2 ^ 32) = id e := fun e he => by
      rw [Nat.mod_eq_of_lt (hlen e he), take_length, id]
    rw [md5Vector_eq, flatMap_congr htake, flatMap_id]
  exact ⟨hvector 0 elems fun e he => hall e (mem_cons_of_mem _ he),
    hmacVector_eq (fun e he => by omega) (fun data => (md5Internal.md5_length data).trans_le (by decide))
      (fun i elems h => congrArg some (hvector i elems h)) hall⟩

theorem md5_in_pieces_small : hmacMd5Vector (fun _ => ⟨zeros 64, rfl⟩) [1] [[2], [3]] =
    some (hmacMd5 md5Internal [1] [2, 3]) := (md5_in_pieces _ _ _ (by decide)).2

/-- **SHA-1 in pieces.** If no piece is close to 4 GiB, nothing outside of them is read either. -/
theorem sha1_in_pieces (hall : ∀ e ∈ key :: elems, e.length + 63 < 2 ^ 32) :
    sha1Vector (stack 0) elems = some (sha1Digest elems.flatten) ∧
    hmacSha1Vector stack key elems =
      if 5 < elems.length then none else some (hmacOf sha1Digest key elems.flatten) :=
  ⟨sha1Vector_eq _ _ fun e he => hall e (mem_cons_of_mem _ he),
    hmacVector_eq (fun e he => by omega) (fun data => by simp [sha1Digest, sha1Output, natBe_length])
      (fun i elems h => sha1Vector_eq (stack i) elems h) hall⟩

theorem sha1_in_pieces_small : hmacSha1Vector (fun _ => ⟨zeros 64, rfl⟩) [1] [[2], [3]] =
    some (hmacOf sha1Digest [1] [2, 3]) := (sha1_in_pieces _ _ _ (by decide)).2

/-- **SHA-256 in pieces.** -/
theorem sha256_in_pieces :
    sha256Vector (stack 0) elems = some (sha256Digest elems.flatten) ∧
    hmacSha256Vector stack key elems =
      if 5 < elems.length then none else some (hmacOf sha256Digest key elems.flatten) :=
  ⟨sha256Vector_eq _ _, hmacVector_eq (fun _ _ => trivial)
    (fun data => by simp [sha256Digest, sha256Output, natBe_length])
    (fun i elems _ => sha256Vector_eq (stack i) elems) fun _ _ => trivial⟩

end Hostap
