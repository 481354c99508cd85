import Hostap.Lib.Octets

/-!
# Type-length-value records

A `Format` is a fixed-length header that says the type of a record and the length of its value. `next`
reads one record off the front of a buffer, as one iteration of the loops that go through such a
buffer does, and `next_encode` is what those loops need: a record that was written is read back, with
what follows it left over. `encodeAll` is a list of records one after the other. `le16Format` is the header
of two 16-bit numbers, least significant octet first.
-/

namespace Tlv

open Octets List

/-- A header for types `τ`. Not every type and length need be possible (`fits`). -/
structure Format (τ : Type) where
  hdrLen : Nat
  header : τ → Nat → Bytes
  read : Bytes → Option (τ × Nat)
  fits : τ → Nat → Prop
  hdrLen_pos : 0 < hdrLen
  header_length : ∀ t n, (header t n).length = hdrLen
  read_header : ∀ t n rest, fits t n → read (header t n ++ rest) = some (t, n)

variable {τ : Type} {F : Format τ}

/-- A record. -/
def encode (F : Format τ) (r : τ × Bytes) : Bytes := F.header r.1 r.2.length ++ r.2

/-- A list of records. -/
def encodeAll (F : Format τ) (l : List (τ × Bytes)) : Bytes := l.flatMap (encode F)

/-- The record at the front of a buffer and what follows it. -/
def next (F : Format τ) (bs : Bytes) : Option (τ × Bytes × Bytes) :=
  if bs.length < F.hdrLen then
    none
  else
    match F.read bs with
    | none => none
    | some (t, n) =>
      let rest := bs.drop F.hdrLen
      if rest.length < n then none else some (t, rest.take n, rest.drop n)

@[simp] theorem encode_length (r : τ × Bytes) : (encode F r).length = F.hdrLen + r.2.length := by
  simp [encode, F.header_length]

@[simp] theorem encodeAll_nil : encodeAll F [] = [] := rfl

@[simp] theorem encodeAll_cons (r : τ × Bytes) (l : List (τ × Bytes)) :
    encodeAll F (r :: l) = encode F r ++ encodeAll F l := rfl

theorem encodeAll_append (l l' : List (τ × Bytes)) :
    encodeAll F (l ++ l') = encodeAll F l ++ encodeAll F l' := by
  simp [encodeAll]

theorem encode_ne_nil (r : τ × Bytes) (rest : Bytes) : encode F r ++ rest ≠ [] := by
  intro h
  have hlen := congrArg List.length h
  have hpos := F.hdrLen_pos
  simp only [length_append, encode_length, length_nil] at hlen
  omega

theorem next_encode {r : τ × Bytes} (h : F.fits r.1 r.2.length) (rest : Bytes) :
    next F (encode F r ++ rest) = some (r.1, r.2, rest) := by
  have hdrop : (encode F r ++ rest).drop F.hdrLen = r.2 ++ rest := by
    rw [encode, append_assoc, ← F.header_length r.1 r.2.length, drop_left]
  have hread : F.read (encode F r ++ rest) = some (r.1, r.2.length) := by
    rw [encode, append_assoc]
    exact F.read_header _ _ _ h
  unfold next
  rw [if_neg (by simp only [length_append, encode_length]; omega), hread]
  simp only [hdrop]
  rw [if_neg (by simp)]
  simp

/-- A record that is read takes its header and its value off the buffer. -/
theorem next_length {bs value rest : Bytes} {t : τ} (h : next F bs = some (t, value, rest)) :
    bs.length = F.hdrLen + value.length + rest.length := by
  unfold next at h
  split at h
  · cases h
  · rename_i hhdr
    split at h
    · cases h
    · dsimp only at h
      split at h
      · cases h
      · rename_i hvalue
        cases h
        have hdrop : (bs.drop F.hdrLen).length = bs.length - F.hdrLen := length_drop
        rw [hdrop] at hvalue
        rw [length_take, length_drop, length_drop]
        omega

theorem next_nil : next F [] = none := by
  unfold next
  rw [if_pos (by simpa using F.hdrLen_pos)]

/-! ## Two 16-bit numbers -/

theorem getLe16_le16_append {n : Nat} (h : n ≤ 0xffff) (rest : Bytes) : getLe16 (le16 n ++ rest) = n := by
  simp only [getLe16, le16, cons_append, getD_cons_zero, getD_cons_succ, UInt8.toNat_ofNat']
  omega

theorem read_le16 (type : UInt16) {n : Nat} (h : n ≤ 0xffff) (rest : Bytes) :
    some (UInt16.ofNat (getLe16 (le16 type.toNat ++ le16 n ++ rest)),
      getLe16 ((le16 type.toNat ++ le16 n ++ rest).drop 2)) = some (type, n) := by
  have htype : type.toNat ≤ 0xffff := Nat.le_of_lt_succ type.toNat_lt
  have hdrop : (le16 type.toNat ++ le16 n ++ rest).drop 2 = le16 n ++ rest := by
    rw [append_assoc]
    rfl
  rw [hdrop, append_assoc, getLe16_le16_append htype, getLe16_le16_append h, UInt16.ofNat_toNat]

/-- Type and length are 16-bit numbers. -/
def le16Format : Format UInt16 where
  hdrLen := 4
  header type n := le16 type.toNat ++ le16 n
  read bs := some (UInt16.ofNat (getLe16 bs), getLe16 (bs.drop 2))
  fits _ n := n ≤ 0xffff
  hdrLen_pos := by decide
  header_length _ _ := rfl
  read_header type _ rest h := read_le16 type h rest

end Tlv
