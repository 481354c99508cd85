import Hostap.Ft.IesSpans
import Hostap.Lib.Buffer

/-!
# Elements of a management frame

`ieee802_11_parse_elems()` of `src/common/ieee802_11_common.c` goes once through the elements of a frame and
points to the bodies of those it knows. `Elem` has the pointers under the names they have in
`struct ieee802_11_elems`; a case of the switch that sets one is `ElemAction.set`. All octets are read through
`readOctet`, which stops where it would leave the buffer.
-/

namespace Hostap

open Octets Spans Buffer

/-! ## What is pointed to -/

/-- The pointers of `struct ieee802_11_elems`, apart from `mb_ies`. -/
inductive Elem
  | ssid | suppRates | dsParams | challenge | erpInfo | extSuppRates | wpaIe | rsnIe | wmm | wmmTspec | wpsIe
  | suppChannels | mdie | ftie | timeoutInt | htCapabilities | htOperation | meshConfig | meshId | peerMgmt
  | vhtCapabilities | vhtOperation | vhtOpmodeNotif | vendorHtCap | vendorVht | p2p | wfd | linkId
  | interworking | qosMapSet | hs20 | extCapab | bssMaxIdlePeriod | ssidList | osen | mbo | ampe | mic
  | prefFreqList | suppOpClasses | rrmEnabled | cagNumber | apCsn | filsIndic | dils | assocDelayInfo
  | filsReqParams | filsKeyConfirm | filsSession | filsHlp | filsIpAddrAssign | keyDelivery | filsWrappedData
  | filsPk | filsNonce | oweDh | powerCapab | roamingConsSel | passwordId
  deriving DecidableEq

/-- `struct ieee802_11_elems`. A pointer that has no length in the source has that of its body here. -/
structure Ieee80211Elems where
  ptr : Elem → Option Span := fun _ => none
  /-- `mb_ies`; `nof_ies` is its length. -/
  mbIes : List Span := []

/-- What an element does to `struct ieee802_11_elems`. -/
inductive ElemAction
  /-- A pointer is set, and its length if it has one. -/
  | set (m : Elem) (body : Span)
  | multiBand (body : Span)
  | ignored
  | unknown

/-- `MAX_NOF_MB_IES_SUPPORTED`. -/
def maxNofMbIes : Nat := 5

def Ieee80211Elems.apply (elems : Ieee80211Elems) : ElemAction → Ieee80211Elems
  | .set m body => { elems with ptr := fun m' => if m' = m then some body else elems.ptr m' }
  | .multiBand body =>
    if maxNofMbIes ≤ elems.mbIes.length then elems else { elems with mbIes := elems.mbIes ++ [body] }
  | .ignored => elems
  | .unknown => elems

def ElemAction.countUnknown (unknown : Nat) : ElemAction → Nat
  | .unknown => unknown + 1
  | _ => unknown

/-! ## Identifiers -/

section Identifiers

@[match_pattern] abbrev eidSsid : UInt8 := 0
@[match_pattern] abbrev eidSuppRates : UInt8 := 1
@[match_pattern] abbrev eidDsParams : UInt8 := 3
@[match_pattern] abbrev eidCfParams : UInt8 := 4
@[match_pattern] abbrev eidTim : UInt8 := 5
@[match_pattern] abbrev eidChallenge : UInt8 := 16
@[match_pattern] abbrev eidPwrCapability : UInt8 := 33
@[match_pattern] abbrev eidSupportedChannels : UInt8 := 36
@[match_pattern] abbrev eidErpInfo : UInt8 := 42
@[match_pattern] abbrev eidHtCap : UInt8 := 45
@[match_pattern] abbrev eidExtSuppRates : UInt8 := 50
@[match_pattern] abbrev eidSupportedOperatingClasses : UInt8 := 59
@[match_pattern] abbrev eidHtOperation : UInt8 := 61
@[match_pattern] abbrev eidRrmEnabledCapabilities : UInt8 := 70
@[match_pattern] abbrev eidSsidList : UInt8 := 84
@[match_pattern] abbrev eidBssMaxIdlePeriod : UInt8 := 90
@[match_pattern] abbrev eidLinkId : UInt8 := 101
@[match_pattern] abbrev eidInterworking : UInt8 := 107
@[match_pattern] abbrev eidQosMapSet : UInt8 := 110
@[match_pattern] abbrev eidMeshConfig : UInt8 := 113
@[match_pattern] abbrev eidMeshId : UInt8 := 114
@[match_pattern] abbrev eidPeerMgmt : UInt8 := 117
@[match_pattern] abbrev eidExtCapab : UInt8 := 127
@[match_pattern] abbrev eidAmpe : UInt8 := 139
@[match_pattern] abbrev eidMic : UInt8 := 140
@[match_pattern] abbrev eidMultiBand : UInt8 := 158
@[match_pattern] abbrev eidVhtCap : UInt8 := 191
@[match_pattern] abbrev eidVhtOperation : UInt8 := 192
@[match_pattern] abbrev eidVhtOperatingModeNotification : UInt8 := 199
@[match_pattern] abbrev eidVendorSpecific : UInt8 := 221
@[match_pattern] abbrev eidCagNumber : UInt8 := 237
@[match_pattern] abbrev eidApCsn : UInt8 := 239
@[match_pattern] abbrev eidFilsIndication : UInt8 := 240
@[match_pattern] abbrev eidDils : UInt8 := 241
@[match_pattern] abbrev eidFragment : UInt8 := 242
@[match_pattern] abbrev eidExtension : UInt8 := 255

abbrev ouiMicrosoft : Nat := 0x0050f2
abbrev ouiWfa : Nat := 0x506f9a
abbrev ouiBroadcom : Nat := 0x00904c
abbrev ouiQca : Nat := 0x001374

end Identifiers

/-! ## The parser -/

def readOctet (buf : Bytes) (off : Nat) : Except OutOfBounds UInt8 :=
  if off < buf.length then .ok (buf.getD off 0) else .error ⟨off, 1⟩

/-- `WPA_GET_BE24()`. -/
def readBe24 (buf : Bytes) (off : Nat) : Except OutOfBounds Nat := do
  let a ← readOctet buf off
  let b ← readOctet buf (off + 1)
  let c ← readOctet buf (off + 2)
  pure (beNat [a, b, c])

/-- The switch of `ieee802_11_parse_vendor_specific()` over the OUI and the octet behind it. -/
def vendorAction (buf : Bytes) (pos elen oui : Nat) (type : UInt8) : Except OutOfBounds ElemAction :=
  if oui = ouiMicrosoft then
    match type with
    | 1 => pure (.set .wpaIe ⟨pos, elen⟩)
    | 2 =>
      if elen < 5 then
        pure .unknown
      else do
        let subtype ← readOctet buf (pos + 4)
        if subtype = 0 ∨ subtype = 1 then pure (.set .wmm ⟨pos, elen⟩)
        else if subtype = 2 then pure (.set .wmmTspec ⟨pos, elen⟩)
        else pure .unknown
    | 4 => pure (.set .wpsIe ⟨pos, elen⟩)
    | _ => pure .unknown
  else if oui = ouiWfa then
    match type with
    | 9 => pure (.set .p2p ⟨pos, elen⟩)
    | 10 => pure (.set .wfd ⟨pos, elen⟩)
    | 16 => pure (.set .hs20 ⟨pos, elen⟩)
    | 18 => pure (.set .osen ⟨pos, elen⟩)
    | 22 => pure (.set .mbo ⟨pos, elen⟩)
    | 29 => pure (.set .roamingConsSel ⟨pos, elen⟩)
    | _ => pure .unknown
  else if oui = ouiBroadcom then
    match type with
    | 0x33 => pure (.set .vendorHtCap ⟨pos, elen⟩)
    | 4 =>
      if 4 < elen then do
        let subtype ← readOctet buf (pos + 4)
        if subtype = 8 ∨ subtype = 0 then pure (.set .vendorVht ⟨pos, elen⟩) else pure .unknown
      else
        pure .unknown
    | _ => pure .unknown
  else if oui = ouiQca then
    match type with
    | 0 => pure (.set .prefFreqList ⟨pos, elen⟩)
    | _ => pure .unknown
  else
    pure .unknown

/-- `ieee802_11_parse_vendor_specific()`. -/
def parseVendorSpecific (buf : Bytes) (pos elen : Nat) : Except OutOfBounds ElemAction :=
  if elen < 4 then
    pure .unknown
  else do
    let oui ← readBe24 buf pos
    let type ← readOctet buf (pos + 3)
    vendorAction buf pos elen oui type

/-- The switch of `ieee802_11_parse_extension()`; `pos` and `elen` are those behind the id. -/
def extensionAction (extId : UInt8) (pos elen : Nat) : ElemAction :=
  match extId with
  | 1 => if elen ≠ 1 then .ignored else .set .assocDelayInfo ⟨pos, elen⟩
  | 2 => if elen < 3 then .ignored else .set .filsReqParams ⟨pos, elen⟩
  | 3 => .set .filsKeyConfirm ⟨pos, elen⟩
  | 4 => if elen ≠ 8 then .ignored else .set .filsSession ⟨pos, elen⟩
  | 5 => if elen < 2 * 6 then .ignored else .set .filsHlp ⟨pos, elen⟩
  | 6 => if elen < 1 then .ignored else .set .filsIpAddrAssign ⟨pos, elen⟩
  | 7 => if elen < 8 then .ignored else .set .keyDelivery ⟨pos, elen⟩
  | 8 => .set .filsWrappedData ⟨pos, elen⟩
  | 12 => if elen < 1 then .ignored else .set .filsPk ⟨pos, elen⟩
  | 13 => if elen ≠ 16 then .ignored else .set .filsNonce ⟨pos, elen⟩
  | 32 => if elen < 2 then .ignored else .set .oweDh ⟨pos, elen⟩
  | 33 => .set .passwordId ⟨pos, elen⟩
  | _ => .unknown

/-- `ieee802_11_parse_extension()`. -/
def parseExtension (buf : Bytes) (pos elen : Nat) : Except OutOfBounds ElemAction :=
  if elen < 1 then
    pure .unknown
  else do
    let extId ← readOctet buf pos
    pure (extensionAction extId (pos + 1) (elen - 1))

/-- The switch of `ieee802_11_parse_elems()`. -/
def parseElement (buf : Bytes) (id : UInt8) (pos elen : Nat) : Except OutOfBounds ElemAction :=
  match id with
  | eidSsid => pure (if 32 < elen then .ignored else .set .ssid ⟨pos, elen⟩)
  | eidSuppRates => pure (.set .suppRates ⟨pos, elen⟩)
  | eidDsParams => pure (if elen < 1 then .ignored else .set .dsParams ⟨pos, elen⟩)
  | eidCfParams => pure .ignored
  | eidTim => pure .ignored
  | eidChallenge => pure (.set .challenge ⟨pos, elen⟩)
  | eidErpInfo => pure (if elen < 1 then .ignored else .set .erpInfo ⟨pos, elen⟩)
  | eidExtSuppRates => pure (.set .extSuppRates ⟨pos, elen⟩)
  | eidVendorSpecific => parseVendorSpecific buf pos elen
  | eidRsn => pure (.set .rsnIe ⟨pos, elen⟩)
  | eidPwrCapability => pure (if elen < 2 then .ignored else .set .powerCapab ⟨pos, elen⟩)
  | eidSupportedChannels => pure (.set .suppChannels ⟨pos, elen⟩)
  | eidMobilityDomain => pure (if elen < 3 then .ignored else .set .mdie ⟨pos, elen⟩)
  | eidFastBssTransition => pure (if elen < 82 then .ignored else .set .ftie ⟨pos, elen⟩)
  | eidTimeoutInterval => pure (if elen ≠ 5 then .ignored else .set .timeoutInt ⟨pos, elen⟩)
  | eidHtCap => pure (if elen < 26 then .ignored else .set .htCapabilities ⟨pos, elen⟩)
  | eidHtOperation => pure (if elen < 22 then .ignored else .set .htOperation ⟨pos, elen⟩)
  | eidMeshConfig => pure (.set .meshConfig ⟨pos, elen⟩)
  | eidMeshId => pure (.set .meshId ⟨pos, elen⟩)
  | eidPeerMgmt => pure (.set .peerMgmt ⟨pos, elen⟩)
  | eidVhtCap => pure (if elen < 12 then .ignored else .set .vhtCapabilities ⟨pos, elen⟩)
  | eidVhtOperation => pure (if elen < 5 then .ignored else .set .vhtOperation ⟨pos, elen⟩)
  | eidVhtOperatingModeNotification => pure (if elen ≠ 1 then .ignored else .set .vhtOpmodeNotif ⟨pos, elen⟩)
  | eidLinkId => pure (if elen < 18 then .ignored else .set .linkId ⟨pos, elen⟩)
  | eidInterworking => pure (.set .interworking ⟨pos, elen⟩)
  | eidQosMapSet => pure (if elen < 16 then .ignored else .set .qosMapSet ⟨pos, elen⟩)
  | eidExtCapab => pure (.set .extCapab ⟨pos, elen⟩)
  | eidBssMaxIdlePeriod => pure (if elen < 3 then .ignored else .set .bssMaxIdlePeriod ⟨pos, elen⟩)
  | eidSsidList => pure (.set .ssidList ⟨pos, elen⟩)
  | eidAmpe => pure (.set .ampe ⟨pos, elen⟩)
  | eidMic => pure (.set .mic ⟨pos, elen⟩)
  | eidMultiBand => pure (.multiBand ⟨pos, elen⟩)
  | eidSupportedOperatingClasses => pure (.set .suppOpClasses ⟨pos, elen⟩)
  | eidRrmEnabledCapabilities => pure (.set .rrmEnabled ⟨pos, elen⟩)
  | eidCagNumber => pure (.set .cagNumber ⟨pos, elen⟩)
  | eidApCsn => pure (if elen < 1 then .ignored else .set .apCsn ⟨pos, elen⟩)
  | eidFilsIndication => pure (if elen < 2 then .ignored else .set .filsIndic ⟨pos, elen⟩)
  | eidDils => pure (if elen < 2 then .ignored else .set .dils ⟨pos, elen⟩)
  | eidFragment => pure .ignored
  | eidExtension => parseExtension buf pos elen
  | _ => pure .unknown

/-- `ParseRes`. -/
inductive ParseRes
  | ok
  | unknown
  | failed
  deriving DecidableEq

/-- The loop of `ieee802_11_parse_elems()`: every turn takes two octets at least off what is left. -/
def parseElemsFrom (buf : Bytes) (pos left unknown : Nat) (elems : Ieee80211Elems) :
    Except OutOfBounds (ParseRes × Ieee80211Elems) :=
  if 2 ≤ left then do
    let id ← readOctet buf pos
    let len ← readOctet buf (pos + 1)
    let elen := len.toNat
    if left - 2 < elen then
      pure (.failed, elems)
    else do
      let action ← parseElement buf id (pos + 2) elen
      -- behind the MIC everything is encrypted
      let left := if id = eidMic then elen else left - 2
      parseElemsFrom buf (pos + 2 + elen) (left - elen) (action.countUnknown unknown) (elems.apply action)
  else if left ≠ 0 then
    pure (.failed, elems)
  else
    pure (if unknown ≠ 0 then .unknown else .ok, elems)
termination_by left
decreasing_by
  split <;> omega

/-- `ieee802_11_parse_elems()`. -/
def ieee80211ParseElems (buf : Bytes) : Except OutOfBounds (ParseRes × Ieee80211Elems) :=
  parseElemsFrom buf 0 buf.length 0 {}

end Hostap
