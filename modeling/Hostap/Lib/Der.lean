import Hostap.Lib.Octets
import Mathlib.Data.Nat.Digits.Defs

/-!
# Readers and distinguished encoding rules

A reader takes something off the front of its input. What it takes does not depend on what follows: this is
`Reads`, and it makes the place where the input is cut unique.

`Element` is an element in distinguished encoding: one identifier octet, and the shortest length octets there
are. `oid` is the value of an object identifier, each number in the fewest octets of seven bits.
-/

namespace Der

open Octets

/-! ## Readers -/

variable {α β : Type}

/-- What was taken is a piece of the input that gives the same in front of anything. -/
def Reads (read : Bytes → Option (α × Bytes)) : Prop :=
  ∀ ⦃w a r⦄, read w = some (a, r) → ∃ h, w = h ++ r ∧ ∀ s, read (h ++ s) = some (a, s)

theorem Reads.append {read : Bytes → Option (α × Bytes)} (hread : Reads read) {h : Bytes} {a : α}
    (heq : read h = some (a, [])) (s : Bytes) : read (h ++ s) = some (a, s) := by
  obtain ⟨h', hsplit, hall⟩ := hread heq
  rw [List.append_nil] at hsplit
  rw [hsplit]
  exact hall s

/-- Two pieces that are each read, at the front of one input, are the same piece. -/
theorem Reads.unique {read : Bytes → Option (α × Bytes)} (hread : Reads read) {h h' r r' : Bytes} {a a' : α}
    (hh : read h = some (a, [])) (hh' : read h' = some (a', [])) (heq : h ++ r = h' ++ r') :
    h = h' ∧ r = r' ∧ a = a' := by
  have hboth := hread.append hh' r'
  rw [← heq, hread.append hh r] at hboth
  cases hboth
  exact ⟨List.append_cancel_right heq, rfl, rfl⟩

theorem Reads.bind {read : Bytes → Option (α × Bytes)} {next : α → Bytes → Option (β × Bytes)}
    (hread : Reads read) (hnext : ∀ a, Reads (next a)) :
    Reads fun w => (read w).bind fun x => next x.1 x.2 := by
  intro w b r heq
  obtain ⟨⟨a, mid⟩, hfirst, hsecond⟩ := Option.bind_eq_some_iff.mp heq
  obtain ⟨h, rfl, hall⟩ := hread hfirst
  obtain ⟨h', rfl, hall'⟩ := hnext a hsecond
  refine ⟨h ++ h', by rw [List.append_assoc], fun s => ?_⟩
  show (read (h ++ h' ++ s)).bind _ = _
  rw [List.append_assoc, hall, Option.bind_some]
  exact hall' s

theorem reads_map {read : Bytes → Option (α × Bytes)} (hread : Reads read) (f : α → β) :
    Reads fun w => (read w).map fun x => (f x.1, x.2) := by
  intro w b r heq
  obtain ⟨⟨a, mid⟩, hfirst, heq⟩ := Option.map_eq_some_iff.mp heq
  cases heq
  obtain ⟨h, rfl, hall⟩ := hread hfirst
  refine ⟨h, rfl, fun s => ?_⟩
  show (read (h ++ s)).map _ = _
  rw [hall s, Option.map_some]

/-! ## Elements -/

/-- The octets of a length. -/
inductive LengthOctets : Nat → Bytes → Prop
  | short {n : Nat} (hn : n < 128) : LengthOctets n [UInt8.ofNat n]
  | long {n : Nat} (hn : 128 ≤ n) (hmax : numBytes n ≤ 126) :
      LengthOctets n (UInt8.ofNat (128 + numBytes n) :: natBe (numBytes n) n)

/-- The identifier and the length of an element. -/
inductive Header (identifier : UInt8) (n : Nat) : Bytes → Prop
  | mk {octets : Bytes} (hlen : LengthOctets n octets) : Header identifier n (identifier :: octets)

/-- An element. -/
inductive Element (identifier : UInt8) (content : Bytes) : Bytes → Prop
  | mk {header : Bytes} (hheader : Header identifier content.length header) :
      Element identifier content (header ++ content)

/-- The octets of an identifier: one, or more for a tag above 30. -/
inductive Identifier : Bytes → Prop
  | low {c : UInt8} (hc : c &&& 0x1f ≠ 0x1f) : Identifier [c]
  | high {c last : UInt8} {more : Bytes} (hc : c &&& 0x1f = 0x1f) (hmore : ∀ d ∈ more, d &&& 0x80 ≠ 0)
      (hlast : last &&& 0x80 = 0) : Identifier (c :: (more ++ [last]))

/-- An element with any identifier. -/
inductive Tlv (identifier content : Bytes) : Bytes → Prop
  | mk {length : Bytes} (hlen : LengthOctets content.length length) :
      Tlv identifier content (identifier ++ length ++ content)

theorem Element.tlv {identifier : UInt8} {content w : Bytes} (h : Element identifier content w) :
    Tlv [identifier] content w := by
  cases h with
  | mk hheader =>
    cases hheader with
    | mk hlen => exact .mk hlen

/-- One thing behind the other. -/
inductive Concat (octets : α → Bytes → Prop) : List α → Bytes → Prop
  | nil : Concat octets [] []
  | cons {a : α} {as : List α} {w ws : Bytes} (ha : octets a w) (has : Concat octets as ws) :
      Concat octets (a :: as) (w ++ ws)

theorem concat_flatMap {octets : α → Bytes → Prop} {encode : α → Bytes} (as : List α)
    (hencode : ∀ a ∈ as, octets a (encode a)) : Concat octets as (as.flatMap encode) := by
  induction as with
  | nil => exact .nil
  | cons a as ih =>
    rw [List.flatMap_cons]
    exact .cons (hencode a List.mem_cons_self) (ih fun b hb => hencode b (List.mem_cons_of_mem _ hb))

/-- An element with few octets. -/
def short (identifier : UInt8) (content : Bytes) : Bytes := identifier :: UInt8.ofNat content.length :: content

theorem element_short {identifier : UInt8} {content : Bytes} (hlen : content.length < 128) :
    Element identifier content (short identifier content) := .mk (.mk (.short hlen))

/-! ## Object identifiers -/

/-- The octets of a number before its last seven bits. -/
def oidHigh (val : Nat) : Bytes := ((Nat.digits 128 val).map fun d => UInt8.ofNat (128 + d)).reverse

/-- One number. -/
def oidValue (val : Nat) : Bytes := oidHigh (val / 128) ++ [UInt8.ofNat (val % 128)]

/-- The first two numbers are in one. -/
def oid : List Nat → Bytes
  | a :: b :: rest => oidValue (a * 40 + b) ++ rest.flatMap oidValue
  | _ => []

@[simp] theorem oidHigh_zero : oidHigh 0 = [] := by
  simp [oidHigh]

theorem oidHigh_pos {val : Nat} (hpos : 0 < val) :
    oidHigh val = oidHigh (val / 128) ++ [UInt8.ofNat (128 + val % 128)] := by
  unfold oidHigh
  rw [Nat.digits_def' (by decide) hpos, List.map_cons, List.reverse_cons]

example : oid [1, 3, 14, 3, 2, 26] = [0x2b, 0x0e, 0x03, 0x02, 0x1a] := by decide +kernel

example : oid [1, 2, 840, 113549, 2, 5] = [0x2a, 0x86, 0x48, 0x86, 0xf7, 0x0d, 0x02, 0x05] := by decide +kernel

end Der
