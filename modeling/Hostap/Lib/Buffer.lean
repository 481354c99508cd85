import Hostap.Lib.Octets
import Hostap.Lib.Prog

/-!
# Buffers written in place

A C function that is given a buffer may read and write it, but only between its first octet and its
last one. Such a function is a program on the octets of the buffer, and stops where it would leave
them: `load` reads a part and `store` writes over one, each of them only within the buffer.

`InPlace m buf` says that the program stays within the buffer and leaves it as it found it. A part
that is written over comes back when what was loaded from it is stored again (`overwrite_slice`), also
after other parts were written over and came back (`overwrite_comm`).
-/

namespace Buffer

open Octets Prog List

/-- An access that is not within the buffer. -/
structure OutOfBounds where
  off : Nat
  len : Nat
  deriving DecidableEq, Repr

/-- A program on a buffer. -/
abbrev BufferM (α : Type) := Prog Bytes OutOfBounds α

/-- Reads `len` octets from `off` on. -/
def load (off len : Nat) : BufferM Bytes := fun buf =>
  if off + len ≤ buf.length then .ok (slice buf off len, buf) else .error ⟨off, len⟩

/-- Writes over the octets from `off` on. -/
def store (off : Nat) (data : Bytes) : BufferM Unit := fun buf =>
  if off + data.length ≤ buf.length then .ok ((), overwrite off data buf) else .error ⟨off, data.length⟩

/-- The program makes no access outside the buffer, and the buffer is the same afterwards. -/
def InPlace {α : Type} (m : BufferM α) (buf : Bytes) : Prop :=
  wp m (fun _ buf' => buf' = buf) (fun _ => False) buf

/-- The program makes no access outside the buffer. -/
def Inside {α : Type} (m : BufferM α) (buf : Bytes) : Prop := wp m (fun _ _ => True) (fun _ => False) buf

theorem load_ok {off len : Nat} {buf : Bytes} (h : off + len ≤ buf.length) :
    load off len buf = .ok (slice buf off len, buf) := if_pos h

theorem load_error {off len : Nat} {buf : Bytes} (h : ¬ off + len ≤ buf.length) :
    load off len buf = .error ⟨off, len⟩ := if_neg h

theorem store_ok {off : Nat} {data buf : Bytes} (h : off + data.length ≤ buf.length) :
    store off data buf = .ok ((), overwrite off data buf) := if_pos h

theorem inPlace_congr {α : Type} {m m' : BufferM α} {buf : Bytes} (h : m buf = m' buf) :
    InPlace m buf ↔ InPlace m' buf := by
  unfold InPlace wp
  rw [h]

/-- A program that returns is in place if it brings the buffer back. -/
theorem inPlace_of_ok {α : Type} {m : BufferM α} {buf buf' : Bytes} {a : α}
    (h : m buf = .ok (a, buf')) : InPlace m buf ↔ buf' = buf := by
  unfold InPlace wp
  rw [h]

theorem not_inPlace_of_error {α : Type} {m : BufferM α} {buf : Bytes} {e : OutOfBounds}
    (h : m buf = .error e) : ¬ InPlace m buf := by
  unfold InPlace wp
  rw [h]
  exact id

theorem inside_of_ok {α : Type} {m : BufferM α} {buf : Bytes} {r : α × Bytes} (h : m buf = .ok r) :
    Inside m buf := by
  unfold Inside wp
  rw [h]
  trivial

theorem not_inside_of_error {α : Type} {m : BufferM α} {buf : Bytes} {e : OutOfBounds}
    (h : m buf = .error e) : ¬ Inside m buf := by
  unfold Inside wp
  rw [h]
  exact id

theorem load_middle {a b c : Bytes} {off len : Nat} (ha : a.length = off) (hb : b.length = len) :
    load off len (a ++ (b ++ c)) = .ok (b, a ++ (b ++ c)) := by
  rw [load_ok (by rw [length_append, length_append]; omega), slice_middle ha hb]

theorem load_front {b c : Bytes} {len : Nat} (hb : b.length = len) : load 0 len (b ++ c) = .ok (b, b ++ c) :=
  load_middle (a := []) rfl hb

theorem load_one {a c : Bytes} {x : UInt8} {off : Nat} (ha : a.length = off) :
    load off 1 (a ++ x :: c) = .ok ([x], a ++ x :: c) := load_middle (b := [x]) ha rfl

theorem store_middle {a b c data : Bytes} {off : Nat} (ha : a.length = off)
    (hb : b.length = data.length) : store off data (a ++ (b ++ c)) = .ok ((), a ++ (data ++ c)) := by
  rw [store_ok (by rw [length_append, length_append]; omega), overwrite_middle ha hb]

theorem exists_front {buf : Bytes} {n : Nat} (h : n ≤ buf.length) :
    ∃ front rest, buf = front ++ rest ∧ front.length = n ∧ rest.length = buf.length - n :=
  ⟨buf.take n, buf.drop n, (take_append_drop n buf).symm, length_take_of_le h, length_drop⟩

/-! ## Parts that are written over -/

variable {buf data : Bytes} {off : Nat}

theorem overwrite_length (h : off + data.length ≤ buf.length) :
    (overwrite off data buf).length = buf.length := by
  unfold overwrite
  rw [length_append, length_append, length_take, length_drop]
  omega

/-- A buffer is what is before a part, the part, and what is behind it. -/
theorem split_at (buf : Bytes) (off len : Nat) :
    buf = buf.take off ++ (slice buf off len ++ buf.drop (off + len)) := by
  unfold slice
  rw [← drop_drop, take_append_drop, take_append_drop]

theorem overwrite_slice (h : off + data.length ≤ buf.length) :
    overwrite off (slice buf off data.length) (overwrite off data buf) = buf := by
  have htake : (buf.take off).length = off := by
    rw [length_take]
    omega
  have hslice : (slice buf off data.length).length = data.length := slice_length h
  have hover : overwrite off data buf = buf.take off ++ (data ++ buf.drop (off + data.length)) := by
    unfold overwrite
    rw [append_assoc]
  rw [hover, overwrite_middle htake hslice.symm]
  exact (split_at buf off data.length).symm

theorem getElem?_overwrite (h : off + data.length ≤ buf.length) (i : Nat) :
    (overwrite off data buf)[i]? =
      if off ≤ i ∧ i < off + data.length then data[i - off]? else buf[i]? := by
  unfold overwrite
  rw [append_assoc]
  rcases Nat.lt_or_ge i off with hlt | hge
  · rw [if_neg (by omega), getElem?_append_left (by rw [length_take]; omega),
      getElem?_take_of_lt hlt]
  have htake : (buf.take off).length = off := by
    rw [length_take]
    omega
  rw [getElem?_append_right (by omega), htake]
  rcases Nat.lt_or_ge i (off + data.length) with hlt | hge'
  · rw [if_pos ⟨hge, hlt⟩, getElem?_append_left (by omega)]
  · rw [if_neg (by omega), getElem?_append_right (by omega), getElem?_drop]
    congr 1
    omega

theorem overwrite_zero (data buf : Bytes) : overwrite 0 data buf = data ++ buf.drop data.length := by
  unfold overwrite
  rw [take_zero, nil_append, Nat.zero_add]

/-- Two parts next to each other are written over as one. -/
theorem overwrite_append {data' : Bytes} (h : off ≤ buf.length) :
    overwrite (off + data.length) data' (overwrite off data buf) = overwrite off (data ++ data') buf := by
  have hfront : (buf.take off ++ data).length = off + data.length := by
    rw [length_append, length_take_of_le h]
  have hdrop : (overwrite off data buf).drop (off + data.length + data'.length) =
      buf.drop (off + (data ++ data').length) := by
    unfold overwrite
    rw [← drop_drop, ← hfront, drop_left, hfront, drop_drop, length_append, Nat.add_assoc]
  have htake : (overwrite off data buf).take (off + data.length) = buf.take off ++ data := by
    unfold overwrite
    rw [← hfront, take_left]
  unfold overwrite at *
  rw [hdrop, htake, append_assoc (buf.take off)]

/-- A part that ends in front of what is written stays as it is. -/
theorem slice_overwrite {off' len : Nat} (h : off' + len ≤ off) (hlen : off + data.length ≤ buf.length) :
    slice (overwrite off data buf) off' len = slice buf off' len := by
  unfold slice
  apply ext_getElem?
  intro i
  rcases Nat.lt_or_ge i len with hlt | hge
  · rw [getElem?_take_of_lt hlt, getElem?_take_of_lt hlt, getElem?_drop,
      getElem?_drop, getElem?_overwrite hlen, if_neg (by omega)]
  · rw [getElem?_take_eq_none hge, getElem?_take_eq_none hge]

/-- Two parts that do not meet are written over in either order. -/
theorem overwrite_comm {off' : Nat} {data' : Bytes} (h : off' + data'.length ≤ off)
    (hlen : off + data.length ≤ buf.length) :
    overwrite off data (overwrite off' data' buf) = overwrite off' data' (overwrite off data buf) := by
  have hlen' : off' + data'.length ≤ buf.length := by omega
  apply ext_getElem?
  intro i
  rw [getElem?_overwrite (by rw [overwrite_length hlen']; exact hlen), getElem?_overwrite hlen',
    getElem?_overwrite (by rw [overwrite_length hlen]; exact hlen'), getElem?_overwrite hlen]
  split <;> split <;> first | rfl | omega

end Buffer
