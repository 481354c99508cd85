import Hostap.Lib.Octets

/-!
# Key Data of EAPOL-Key frames

`wpa_supplicant_parse_ies()` and `wpa_parse_generic()`: the elements and KDEs the key handshakes
look at. The elements of TDLS and of station capabilities that the same loop collects are not used
by the handshakes and are left out.
-/

namespace Hostap

open Octets

/-- `struct wpa_eapol_ie_parse`: elements with their headers, KDEs without their selectors. -/
structure WpaEapolIeParse where
  wpaIe : Option Bytes := none
  rsnIe : Option Bytes := none
  pmkid : Option Bytes := none
  gtk : Option Bytes := none
  igtk : Option Bytes := none
  mdie : Option Bytes := none
  ftie : Option Bytes := none
  deriving DecidableEq, Repr

/-- `RSN_SELECTOR_GET()`. -/
def rsnSelector (body : Bytes) : Nat := beNat (body.take 4)

/-- `RSN_KEY_DATA_PMKID` and the other selectors. -/
def rsnKeyDataPmkid : Nat := 0x000fac04
def rsnKeyDataGroupkey : Nat := 0x000fac01
def rsnKeyDataMacAddr : Nat := 0x000fac03
def rsnKeyDataIgtk : Nat := 0x000fac09
def wpaOuiType : Nat := 0x0050f201

/-- `wpa_parse_generic()` on the body of a vendor-specific element. -/
def wpaParseGeneric (elem body : Bytes) (ie : WpaEapolIeParse) : WpaEapolIeParse :=
  if 6 ≤ body.length ∧ rsnSelector body = wpaOuiType ∧ body.getD 4 0 = 1 ∧ body.getD 5 0 = 0 then
    { ie with wpaIe := some elem }
  else if 4 + 16 ≤ body.length ∧ rsnSelector body = rsnKeyDataPmkid then
    { ie with pmkid := some (slice body 4 16) }
  else if 4 + 2 < body.length ∧ rsnSelector body = rsnKeyDataGroupkey then
    { ie with gtk := some (body.drop 4) }
  else if 4 + 2 < body.length ∧ rsnSelector body = rsnKeyDataMacAddr then
    ie
  else if 4 + 2 < body.length ∧ rsnSelector body = rsnKeyDataIgtk then
    { ie with igtk := some (body.drop 4) }
  else
    ie

/-- `WLAN_EID_RSN` and the other element identifiers. -/
def wlanEidRsn : UInt8 := 48
def wlanEidMobilityDomain : UInt8 := 54
def wlanEidFastBssTransition : UInt8 := 55
def wlanEidVendorSpecific : UInt8 := 221

/-- The loop of `wpa_supplicant_parse_ies()`; every element takes two octets at least, so the
length of the Key Data bounds the rounds. `none` is an element that runs past the end. -/
def wpaSupplicantParseIesLoop : (fuel : Nat) → Bytes → WpaEapolIeParse → Option WpaEapolIeParse
  | 0, _, ie => some ie
  | fuel + 1, pos, ie =>
    match pos with
    | eid :: len :: rest =>
      let body := rest.take len.toNat
      let elem := eid :: len :: body
      if eid = wlanEidVendorSpecific ∧ len = 0 then
        -- padding
        some ie
      else if rest.length < len.toNat then
        none
      else if eid = wlanEidVendorSpecific then
        if len.toNat < 4 then
          -- `wpa_parse_vendor_specific()` ends the loop at a short element
          some ie
        else
          wpaSupplicantParseIesLoop fuel (rest.drop len.toNat) (wpaParseGeneric elem body ie)
      else
        let ie :=
          if eid = wlanEidRsn then { ie with rsnIe := some elem }
          else if eid = wlanEidMobilityDomain ∧ 3 ≤ len.toNat then { ie with mdie := some elem }
          else if eid = wlanEidFastBssTransition ∧ 82 ≤ len.toNat then { ie with ftie := some elem }
          else ie
        wpaSupplicantParseIesLoop fuel (rest.drop len.toNat) ie
    | _ => some ie

/-- `wpa_supplicant_parse_ies()`. -/
def wpaSupplicantParseIes (buf : Bytes) : Option WpaEapolIeParse :=
  wpaSupplicantParseIesLoop buf.length buf {}

/-- A GTK KDE and the element that follows it. -/
example : wpaSupplicantParseIes
    ([221, 8, 0, 0x0f, 0xac, 1, 1, 0, 7, 9] ++ [48, 1, 5] ++ [221, 0, 3]) =
    some { gtk := some [1, 0, 7, 9], rsnIe := some [48, 1, 5] } := by decide

end Hostap
