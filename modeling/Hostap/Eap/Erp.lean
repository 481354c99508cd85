import Hostap.Lib.Output

/-!
# EAP headers and the EAP Re-authentication Protocol

What the state machines of the EAP peer and the EAP server share: the EAP header
(`eap_common/eap_common.c`), the TVs/TLVs of the re-authentication messages, and the keys of ERP. Both
derive from the EMSK of a method a name, a root key rRK and an integrity key rIK, and in each
re-authentication a session key rMSK from rRK and the sequence number; they do it in two copies of the same
code.

`tagged_iff` says what the check of an Authentication Tag is about.
-/

namespace Hostap

namespace Erp

open Octets Output

/-! ## The EAP header -/

/-- `EAP_CODE_*`. -/
abbrev codeRequest : UInt8 := 1
abbrev codeResponse : UInt8 := 2
abbrev codeSuccess : UInt8 := 3
abbrev codeFailure : UInt8 := 4
abbrev codeInitiate : UInt8 := 5
abbrev codeFinish : UInt8 := 6

/-- `EAP_TYPE_*` that the state machines know. -/
abbrev typeNone : Nat := 0
abbrev typeIdentity : Nat := 1
abbrev typeNotification : Nat := 2
abbrev typeNak : Nat := 3
abbrev typeTls : Nat := 13
abbrev typeLeap : Nat := 17
abbrev typePeap : Nat := 25
abbrev typeExpanded : Nat := 254

/-- `EAP_VENDOR_IETF`. -/
abbrev vendorIetf : Nat := 0

/-- `EAP_ERP_TYPE_*`. -/
abbrev typeReauthStart : UInt8 := 1
abbrev typeReauth : UInt8 := 2

def eapHdrLen (msg : Bytes) : Nat := getBe16 (msg.drop 2)

/-- `eap_hdr_len_valid()`. -/
def eapHdrLenValid (msg : Option Bytes) (minPayload : Nat) : Bool :=
  msg.any fun msg => 4 ≤ msg.length && 4 + minPayload ≤ eapHdrLen msg && eapHdrLen msg ≤ msg.length

/-- `eap_hdr_validate()` for a type of the IETF: the length of the header with its type. -/
def eapHdrValidate (eapType : UInt8) (msg : Option Bytes) : Option Nat :=
  if !eapHdrLenValid msg 1 then
    none
  else
    let msg := msg.getD []
    if msg.getD 4 0 = 254 then
      if eapHdrLen msg < 12 then
        none
      else if beNat (slice msg 5 3) ≠ vendorIetf ∨ beNat (slice msg 8 4) ≠ eapType.toNat then
        none
      else
        some 12
    else if msg.getD 4 0 ≠ eapType then
      none
    else
      some 5

/-- `eap_msg_alloc()` for a type of the IETF, with its payload. -/
def eapMsg (eapType code id : UInt8) (payload : Bytes) : Bytes :=
  [code, id] ++ natBe 2 (5 + payload.length) ++ [eapType] ++ payload

def eapHdr (code id : UInt8) : Bytes := [code, id, 0, 4]

/-! ## TVs and TLVs -/

/-- `struct erp_tlvs`. A key name comes with the octets that follow it. -/
structure ErpTlvs where
  keyname : Option Bytes := none
  afterKeyname : Bytes := []
  domain : Option Bytes := none
  deriving DecidableEq, Repr

def isTlv (tlvType : UInt8) : Bool :=
  tlvType == 1 || (4 ≤ tlvType && tlvType ≤ 6) || (128 ≤ tlvType && tlvType ≤ 191)

/-- `erp_parse_tlvs()`. What follows a type that is not known is not looked at. -/
def erpParseTlvs (stopAtKeyname : Bool) : Nat → Bytes → ErpTlvs → Option ErpTlvs
  | 0, _, tlvs => some tlvs
  | _ + 1, [], tlvs => some tlvs
  | fuel + 1, tlvType :: pos, tlvs =>
    if tlvType = 2 ∨ tlvType = 3 then
      if pos.length < 4 then none else erpParseTlvs stopAtKeyname fuel (pos.drop 4) tlvs
    else if isTlv tlvType then
      match pos with
      | [] => none
      | tlvLen :: pos =>
        if pos.length < tlvLen.toNat then
          none
        else
          let value := pos.take tlvLen.toNat
          let rest := pos.drop tlvLen.toNat
          if tlvType = 1 then
            if tlvs.keyname.isSome then
              none
            else
              let tlvs := { tlvs with keyname := some value, afterKeyname := rest }
              if stopAtKeyname then some tlvs else erpParseTlvs stopAtKeyname fuel rest tlvs
          else
            erpParseTlvs stopAtKeyname fuel rest
            (if tlvType = 4 then { tlvs with domain := some value } else tlvs)
    else
      some tlvs

/-- `erp_parse_tlvs()` of a buffer. -/
def parseTlvs (stopAtKeyname : Bool) (pos : Bytes) : Option ErpTlvs :=
  erpParseTlvs stopAtKeyname pos.length pos {}

theorem erpParseTlvs_room {stopAtKeyname : Bool} {fuel bound : Nat} {pos : Bytes} {tlvs parse : ErpTlvs}
    (h : erpParseTlvs stopAtKeyname fuel pos tlvs = some parse) (hpos : pos.length ≤ bound)
    (htlvs : tlvs.afterKeyname.length ≤ bound) : parse.afterKeyname.length ≤ bound := by
  fun_induction erpParseTlvs stopAtKeyname fuel pos tlvs
  case case1 | case2 | case11 =>
    cases h
    exact htlvs
  case case3 | case5 | case6 | case7 => cases h
  case case4 pos _ _ _ ih =>
    refine ih h ?_ htlvs
    rw [List.length_drop]
    rw [List.length_cons] at hpos
    omega
  case case8 pos _ value rest _ tlvs _ _ _ =>
    rw [← Option.some.inj h]
    show (pos.drop _).length ≤ bound
    rw [List.length_drop]
    rw [List.length_cons, List.length_cons] at hpos
    omega
  case case9 pos _ value rest _ tlvs _ _ _ ih =>
    have hrest : rest.length ≤ bound := by
      show (pos.drop _).length ≤ bound
      rw [List.length_drop]
      rw [List.length_cons, List.length_cons] at hpos
      omega
    exact ih h hrest hrest
  case case10 pos _ value rest _ ih =>
    refine ih h ?_ ?_
    · show (pos.drop _).length ≤ bound
      rw [List.length_drop]
      rw [List.length_cons, List.length_cons] at hpos
      omega
    · split
      · exact htlvs
      · exact htlvs

def naiString (keyname : Bytes) : Bytes := keyname.takeWhile (· != 0)

/-! ## Keys -/

/-- The HMAC and the key derivation function in use. -/
structure ErpLib where
  /-- `hmac_sha256()`: key and data. -/
  hmacSha256 : Bytes → Bytes → Bytes
  /-- `hmac_sha256_kdf()`: secret, label, seed and length. -/
  hmacSha256Kdf : Bytes → String → Bytes → Nat → Bytes

/-- `EAP_ERP_CS_*`. -/
abbrev csHmacSha256128 : UInt8 := 2
abbrev csHmacSha256256 : UInt8 := 3

/-- `ERP_MAX_KEY_LEN`. -/
abbrev erpMaxKeyLen : Nat := 64

/-- `wpa_snprintf_hex()`. -/
def hexOctets (bs : Bytes) : Bytes := bs.flatMap fun b => [hexDigit (b.toNat / 16), hexDigit (b.toNat % 16)]

def keynameNai (lib : ErpLib) (sessionId domain : Bytes) : Bytes :=
  hexOctets (lib.hmacSha256Kdf sessionId "EMSK" (natBe 2 8) 8) ++ [0x40] ++ domain

def rRK (lib : ErpLib) (emsk : Bytes) : Bytes :=
  lib.hmacSha256Kdf emsk "EAP Re-authentication Root Key@ietf.org" (natBe 2 emsk.length) emsk.length

def rIK (lib : ErpLib) (rrk : Bytes) : Bytes :=
  lib.hmacSha256Kdf rrk "Re-authentication Integrity Key@ietf.org"
  (csHmacSha256128 :: natBe 2 rrk.length) rrk.length

def rMSK (lib : ErpLib) (rrk : Bytes) (seq : Nat) : Bytes :=
  lib.hmacSha256Kdf rrk "Re-authentication Master Session Key@ietf.org"
  (natBe 2 seq ++ natBe 2 rrk.length) rrk.length

/-- A message ends in a cryptosuite and an Authentication Tag of so many octets that is the one of all before
the tag. -/
def Tagged (lib : ErpLib) (rik : Bytes) (cryptosuite : UInt8) (hashLen : Nat) (frame : Bytes) : Prop :=
  hashLen + 1 ≤ frame.length ∧ frame.getD (frame.length - (hashLen + 1)) 0 = cryptosuite ∧
    frame.drop (frame.length - hashLen) =
      (lib.hmacSha256 rik (frame.take (frame.length - hashLen))).take hashLen

def tagMatches (lib : ErpLib) (rik : Bytes) (hashLen : Nat) (frame : Bytes) : Bool :=
  frame.drop (frame.length - hashLen) == (lib.hmacSha256 rik (frame.take (frame.length - hashLen))).take hashLen

/-- The octet of the cryptosuite before a tag of so many octets. -/
def suiteAt (hashLen : Nat) (frame : Bytes) : UInt8 := frame.getD (frame.length - (hashLen + 1)) 0

theorem tagged_iff {lib : ErpLib} {rik : Bytes} {cryptosuite : UInt8} {hashLen : Nat} {frame : Bytes} :
    Tagged lib rik cryptosuite hashLen frame ↔
      hashLen + 1 ≤ frame.length ∧ suiteAt hashLen frame = cryptosuite ∧ tagMatches lib rik hashLen frame =
      true := by
  unfold Tagged suiteAt tagMatches
  rw [beq_iff_eq]

/-! ## Small functions for examples -/

def smallErpLib : ErpLib where
  hmacSha256 := fun key data => (key ++ data ++ List.replicate 32 0).take 32
  hmacSha256Kdf := fun secret _ seed len => (secret ++ seed ++ List.replicate len 0).take len

end Erp

end Hostap
