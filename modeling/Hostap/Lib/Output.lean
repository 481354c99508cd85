import Hostap.Lib.Buffer

/-!
# Text written into a buffer of a given size

A C function that writes text keeps a pointer behind what it has written so far. Such a function is a
function of what is written: `put` stores octets behind it, and stops where they would leave the buffer.
`print` is `snprintf()` at the pointer with the room that is left, after which the pointer moves by the
length of the whole text, also when only a part of it fits. No octet outside the buffer is written by that,
but the next `put` stops.

`hexDigits` is what `%02x` prints of an octet, and `hex04` is what `%04x` prints.
-/

namespace Output

open Octets Buffer

/-- Stores octets behind what is written. -/
def put (size : Nat) (data out : Bytes) : Except OutOfBounds Bytes :=
  if out.length + data.length ≤ size then .ok (out ++ data) else .error ⟨out.length, data.length⟩

/-- `pos += snprintf(pos, end - pos, …)`; a pointer behind the end makes the room a huge number. -/
def print (size : Nat) (text out : Bytes) : Except OutOfBounds Bytes :=
  if out.length ≤ size then .ok (out ++ text) else .error ⟨out.length, text.length⟩

/-- The octets of an ASCII text. -/
def ascii (s : String) : Bytes := s.toList.map fun c => UInt8.ofNat c.toNat

/-- A hexadecimal digit. -/
def hexDigit (n : Nat) : UInt8 := UInt8.ofNat (if n < 10 then 0x30 + n else 0x57 + n)

/-- The low `len` hexadecimal digits of a number. -/
def hexDigits : Nat → Nat → Bytes
  | 0, _ => []
  | len + 1, n => hexDigits len (n / 16) ++ [hexDigit (n % 16)]

/-- `%04x`: four digits, or as many as the number has. -/
def hex04 (n : Nat) : Bytes := hexDigits (max 4 ((numBits n + 3) / 4)) n

variable {size : Nat} {data out : Bytes}

theorem put_ok (h : out.length + data.length ≤ size) : put size data out = .ok (out ++ data) := if_pos h

theorem print_ok (h : out.length ≤ size) : print size data out = .ok (out ++ data) := if_pos h

theorem put_eq_ok {r : Bytes} (h : put size data out = .ok r) :
    r = out ++ data ∧ r.length ≤ size := by
  unfold put at h
  split at h
  · rename_i hle
    cases h
    exact ⟨rfl, by rw [List.length_append]; exact hle⟩
  · cases h

@[simp] theorem hexDigits_length (len n : Nat) : (hexDigits len n).length = len := by
  induction len generalizing n with
  | zero => rfl
  | succ len ih => simp [hexDigits, ih]

theorem hexDigit_mem {n : Nat} (h : n < 16) :
    (0x30 ≤ hexDigit n ∧ hexDigit n ≤ 0x39) ∨ (0x61 ≤ hexDigit n ∧ hexDigit n ≤ 0x66) := by
  have hall : ∀ m : Fin 16,
      (0x30 ≤ hexDigit m ∧ hexDigit m ≤ 0x39) ∨ (0x61 ≤ hexDigit m ∧ hexDigit m ≤ 0x66) := by
    decide
  exact hall ⟨n, h⟩

theorem hexDigits_two (c : UInt8) :
    hexDigits 2 c.toNat = [hexDigit (c.toNat / 16), hexDigit (c.toNat % 16)] := by
  have hc := c.toNat_lt
  show [hexDigit (c.toNat / 16 % 16), hexDigit (c.toNat % 16)] = _
  rw [Nat.mod_eq_of_lt (show c.toNat / 16 < 16 by omega)]

end Output
