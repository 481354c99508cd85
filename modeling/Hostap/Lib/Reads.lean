import Hostap.Lib.Buffer

/-!
# Reads within what is given

A C function that is given `len` octets may read those and no others, and its pointers into them are offsets
here. `octetAt` reads one of the octets, `part` reads several, and `diff` is a difference of pointers or of
unsigned numbers. Each of them stops where the C code would read outside or wrap.
-/

namespace Buffer

open Octets

/-- Reads one octet. -/
def octetAt (buf : Bytes) (off : Nat) : Except OutOfBounds UInt8 :=
  match buf[off]? with
  | some c => .ok c
  | none => .error ⟨off, 1⟩

/-- Reads `len` octets. -/
def part (buf : Bytes) (off len : Nat) : Except OutOfBounds Bytes :=
  if off + len ≤ buf.length then .ok (slice buf off len) else .error ⟨off, len⟩

/-- `a - b`, which stops instead of wrapping. -/
def diff (a b : Nat) : Except OutOfBounds Nat := if b ≤ a then .ok (a - b) else .error ⟨a, b⟩

variable {buf : Bytes} {off len : Nat}

theorem octetAt_ok (h : off < buf.length) : octetAt buf off = .ok buf[off] := by
  unfold octetAt
  rw [List.getElem?_eq_getElem h]

/-- An octet behind the pointer `pos`. -/
theorem octetAt_add {pos i : Nat} (h : pos + i < buf.length) :
    octetAt buf (pos + i) = .ok ((buf.drop pos).getD i 0) := by
  rw [octetAt_ok h, List.getD_eq_getElem?_getD, List.getElem?_drop, List.getElem?_eq_getElem h]
  rfl

theorem octetAt_middle {a c : Bytes} {x : UInt8} (ha : a.length = off) : octetAt (a ++ x :: c) off = .ok x := by
  unfold octetAt
  rw [← ha, List.getElem?_append_right (Nat.le_refl _), Nat.sub_self]
  rfl

theorem part_ok (h : off + len ≤ buf.length) : part buf off len = .ok (slice buf off len) := if_pos h

theorem diff_ok {a b : Nat} (h : b ≤ a) : diff a b = .ok (a - b) := if_pos h

end Buffer
