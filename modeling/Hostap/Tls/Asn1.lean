import Hostap.Lib.Octets

/-!
# ASN.1 headers

`asn1_get_next()` and what is built on it (`tls/asn1.c`). A pointer is the memory from it on, so that a
function that is given more octets than the object has reads what comes after the object, as the C code
does. An element is within the octets the function is given, or there is none.
-/

namespace Hostap

open Octets

/-- `struct asn1_hdr`. The payload is the memory that starts with it. -/
structure Asn1Hdr where
  cls : Nat
  tag : Nat
  length : Nat
  payload : Bytes
deriving DecidableEq

def Asn1Hdr.content (hdr : Asn1Hdr) : Bytes := hdr.payload.take hdr.length

def Asn1Hdr.next (hdr : Asn1Hdr) : Bytes := hdr.payload.drop hdr.length

def asn1ExtendedTag (tag : Nat) : Bytes → Option (Nat × Bytes)
  | [] => none
  | octet :: rest =>
    let tag := (tag * 128 + octet.toNat % 128) % 2 ^ 32
    if octet &&& 0x80 ≠ 0 then asn1ExtendedTag tag rest else some (tag, rest)

def asn1Identifier : Bytes → Option (Nat × Nat × Bytes)
  | [] => none
  | identifier :: rest =>
    if identifier &&& 0x1f = 0x1f then
      (asn1ExtendedTag 0 rest).map fun t => (identifier.toNat / 64, t.1, t.2)
    else
      some (identifier.toNat / 64, identifier.toNat % 32, rest)

/-- The length: at most four octets when it has octets of its own. -/
def asn1Length : Bytes → Option (Nat × Bytes)
  | [] => none
  | octet :: rest =>
    if octet &&& 0x80 = 0 then some (octet.toNat, rest)
    else
      let count := octet.toNat % 128
      if octet = 0xff ∨ 4 < count ∨ rest.length < count then none
      else some (beNat (rest.take count), rest.drop count)

/-- `asn1_get_next()`. -/
def asn1GetNext (pos : Bytes) (len : Nat) : Option Asn1Hdr :=
  match asn1Identifier (pos.take len) with
  | none => none
  | some (cls, tag, rest) =>
    match asn1Length rest with
    | none => none
    | some (length, rest) =>
      if rest.length < length then none
      else some { cls, tag, length, payload := pos.drop ((pos.take len).length - rest.length) }

def asn1GetUniversal (tag : Nat) (pos : Bytes) (len : Nat) : Option Asn1Hdr :=
  (asn1GetNext pos len).filter fun hdr => hdr.cls = 0 ∧ hdr.tag = tag

def asn1OidValue (val : Nat) : Bytes → Option (Nat × Bytes)
  | [] => none
  | octet :: rest =>
    let val := (val * 128 + octet.toNat % 128) % 2 ^ 64
    if octet &&& 0x80 ≠ 0 then asn1OidValue val rest else some (val, rest)

/-- The values of an OID, of which there are at most `ASN1_MAX_OID_LEN`. Every value takes an octet. -/
def asn1OidValues : Nat → List Nat → Bytes → Option (List Nat)
  | _, oid, [] => some oid
  | 0, _, _ :: _ => none
  | n + 1, oid, octets@(_ :: _) =>
    match asn1OidValue 0 octets with
    | none => none
    | some (val, rest) =>
      if 20 ≤ oid.length then none
      else
        match oid with
        | [] => asn1OidValues n [min (val / 40) 2, val - min (val / 40) 2 * 40] rest
        | _ => asn1OidValues n (oid ++ [val]) rest

/-- `asn1_parse_oid()`. -/
def asn1ParseOid (octets : Bytes) : Option (List Nat) := asn1OidValues octets.length [] octets

/-- `asn1_get_oid()`: the OID and what follows it. -/
def asn1GetOid (pos : Bytes) (len : Nat) : Option (List Nat × Bytes) :=
  match asn1GetUniversal 6 pos len with
  | none => none
  | some hdr => if hdr.length = 0 then none else (asn1ParseOid hdr.content).map fun oid => (oid, hdr.next)

/-- `rotate_bits()`. -/
def rotateBits (octet : UInt8) : Nat :=
  (List.range 8).foldl (fun res i => res + (octet.toNat / 2 ^ i % 2) * 2 ^ (7 - i)) 0

/-- `asn1_bit_string_to_long()`: up to 32 bits, without the octet with the number of unused ones. -/
def asn1BitStringToLong (octets : Bytes) : Nat :=
  let bits := (octets.drop 1).take 4
  (bits.zipIdx.map fun (octet, i) => rotateBits octet * 256 ^ i).sum

end Hostap
