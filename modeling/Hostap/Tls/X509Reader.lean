import Hostap.Lib.Bounded
import Hostap.Tls.X509
import Hostap.Utils.Common

/-!
# Reading a certificate

`x509_certificate_parse()` and the functions below it (`tls/x509v3.c`, `tls/asn1.c`), with what they read. A
function is given the octets of a value and no more: to read behind them is `Stop.outside`, whatever is there in
memory. `asn1_get_next()` looks at the identifier and at the first octet of the length before it looks at the
end.

Tests that a length is not beyond the end are left out where `asn1_get_next()` has just made them. Memory is
there.
-/

namespace Hostap

open Octets Bounded

/-! ## Elements -/

/-- The octets of a tag above 30. The end is `extra` octets behind the value. -/
def asn1ReadTag (extra tag : Nat) : Bytes → Except Stop (Nat × Bytes)
  | [] => if extra = 0 then .error .invalid else .error .outside
  | octet :: rest =>
    let tag := (tag * 128 + octet.toNat % 128) % 2 ^ 32
    if octet &&& 0x80 ≠ 0 then asn1ReadTag extra tag rest else .ok (tag, rest)

def asn1ReadIdentifier (extra : Nat) : Bytes → Except Stop (Nat × Nat × Bytes)
  | [] => .error .outside
  | identifier :: rest =>
    if identifier &&& 0x1f = 0x1f then
      (asn1ReadTag extra 0 rest).map fun t => (identifier.toNat / 64, t.1, t.2)
    else
      .ok (identifier.toNat / 64, identifier.toNat % 32, rest)

/-- The length. That it has a first octet is not tested, that it has the others is. -/
def asn1ReadLength (extra : Nat) : Bytes → Except Stop (Nat × Bytes)
  | [] => .error .outside
  | octet :: rest =>
    if octet &&& 0x80 = 0 then .ok (octet.toNat, rest)
    else
      let count := octet.toNat % 128
      if octet = 0xff ∨ 4 < count then .error .invalid
      else if rest.length < count then
        if extra = 0 then .error .invalid else .error .outside
      else .ok (beNat (rest.take count), rest.drop count)

/-- `asn1_get_next()` at the front of `w`, with an end that is `extra` octets behind that of `w`. -/
def asn1ReadNext (w : Bytes) (extra : Nat) : Except Stop Asn1Hdr := do
  let x ← asn1ReadIdentifier extra w
  let y ← asn1ReadLength extra x.2.2
  -- what is left is taken as an `unsigned int`
  require (y.1 ≤ (y.2.length + extra) % 2 ^ 32)
  return { cls := x.1, tag := x.2.1, length := y.1, payload := y.2 }

def asn1ReadUniversal (tag : Nat) (w : Bytes) : Except Stop Asn1Hdr := do
  let hdr ← asn1ReadNext w 0
  require (hdr.cls = 0 ∧ hdr.tag = tag)
  return hdr

/-- `asn1_get_oid()`: the OID and what follows it. -/
def asn1ReadOid (w : Bytes) : Except Stop (List Nat × Bytes) := do
  let hdr ← asn1ReadNext w 0
  require (hdr.length ≠ 0)
  require (hdr.cls = 0 ∧ hdr.tag = 6)
  let oid ← ofOption (asn1ParseOid hdr.content)
  return (oid, hdr.next)

def asn1ReadContent (hdr : Asn1Hdr) : Except Stop Bytes :=
  if hdr.payload.length < hdr.length then .error .outside else .ok hdr.content

/-! ## Certificates with all their fields -/

/-- The names of `struct x509_name` from an extension. -/
structure X509AltNames where
  altEmail : Option Bytes := none
  dns : Option Bytes := none
  uri : Option Bytes := none
  ip : Option Bytes := none
  rid : List Nat := []
deriving DecidableEq

/-- `struct x509_certificate` with the fields that a chain is not validated with. -/
structure X509FullCertificate extends X509Certificate where
  serialNumber : Bytes := []
  subjectDn : Bytes := []
  publicKeyAlg : List Nat := []
  signatureAlg : List Nat := []
  issuerAlt : X509AltNames := {}
  subjectAlt : X509AltNames := {}
  subjectAltNamePresent : Bool := false
  issuerAltNamePresent : Bool := false
  extKeyUsagePresent : Bool := false
  extKeyUsage : Nat := 0
deriving DecidableEq

/-! ## Parts -/

/-- `x509_parse_algorithm_identifier()`: the OID and what follows the element. -/
def x509ReadAlgorithmIdentifier (w : Bytes) : Except Stop (List Nat × Bytes) := do
  let seq ← asn1ReadUniversal 16 w
  let id ← asn1ReadOid seq.content
  return (id.1, seq.next)

/-- `x509_parse_public_key()`: the algorithm, the key and what follows. Unused bits are part of the key. -/
def x509ReadPublicKey (w : Bytes) : Except Stop (List Nat × Bytes × Bytes) := do
  let seq ← asn1ReadUniversal 16 w
  let alg ← x509ReadAlgorithmIdentifier seq.content
  let bits ← asn1ReadUniversal 3 alg.2
  require (1 ≤ bits.length)
  return (alg.1, bits.content.drop 1, seq.next)

def x509NameAttrType (oid : List Nat) : X509NameAttrType :=
  if oid = [2, 5, 4, 3] then .cn
  else if oid = [2, 5, 4, 6] then .c
  else if oid = [2, 5, 4, 7] then .l
  else if oid = [2, 5, 4, 8] then .st
  else if oid = [2, 5, 4, 10] then .o
  else if oid = [2, 5, 4, 11] then .ou
  else if oid = [0, 9, 2342, 19200300, 100, 1, 25] then .dc
  else .notUsed

def x509AddAttr (name : X509Name) (oid : List Nat) (value : Bytes) : Option X509Name :=
  if oid = [1, 2, 840, 113549, 1, 9, 1] then
    -- as a string it ends with the first zero
    some { name with email := some (value.takeWhile (· ≠ 0)) }
  else if x509NameAttrType oid = .notUsed then some name
  else if name.attr.length = 20 then none
  else if 0 ∈ value then none
  else some { name with attr := name.attr ++ [(x509NameAttrType oid, value)] }

/-- A turn of `x509_parse_name()`: of a SET the first element is looked at. -/
def x509ReadRdn (name : X509Name) (w : Bytes) : Except Stop (X509Name × Bytes) := do
  let set ← asn1ReadUniversal 17 w
  let seq ← asn1ReadUniversal 16 set.content
  let oid ← asn1ReadOid seq.content
  let value ← asn1ReadNext oid.2 0
  require (value.cls = 0)
  let name ← ofOption (x509AddAttr name oid.1 value.content)
  return (name, set.next)

/-- `x509_parse_name()`: the name and what follows. -/
def x509ReadName (w : Bytes) : Except Stop (X509Name × Bytes) := do
  let seq ← asn1ReadUniversal 16 w
  let name ← pieces x509ReadRdn seq.content.length {} seq.content
  return (name, seq.next)

/-! ## Times -/

/-- `sscanf()` of a decimal number with at most `width` characters. Spaces in front of it do not count. -/
def scanDecimal (width : Nat) (s : Bytes) : Option Int :=
  let field := (s.dropWhile Common.isSpace).take width
  let digits := if field.headD 0 = 0x2d ∨ field.headD 0 = 0x2b then field.drop 1 else field
  if ¬ Common.isDigit (digits.headD 0) then none
  else if field.headD 0 = 0x2d then some (-Common.digitsValue 0 digits)
  else some (Common.digitsValue 0 digits)

/-- A date and a time of day. -/
structure CalendarTime where
  year : Int
  month : Int
  day : Int
  hour : Int
  min : Int
  sec : Int

/-- `os_mktime()` over the conversion of the C library. -/
def osMktime (mktime : CalendarTime → Int) (t : CalendarTime) : Option Int :=
  if t.year < 1970 ∨ t.month < 1 ∨ 12 < t.month ∨ t.day < 1 ∨ 31 < t.day ∨ t.hour < 0 ∨ 23 < t.hour ∨
      t.min < 0 ∨ 59 < t.min ∨ t.sec < 0 ∨ 60 < t.sec then none
  else some (mktime t)

/-- The year of a time and what follows it. The last octet is a letter, so that a number ends there. -/
def x509ParseYear (octets : Bytes) (tag : Nat) : Option (Int × Bytes) :=
  if tag = 23 then
    if octets.length ≠ 13 ∨ octets.getD 12 0 ≠ 0x5a then none
    else (scanDecimal 2 octets).map fun year => (if year < 50 then year + 2000 else year + 1900, octets.drop 2)
  else if tag = 24 then
    if octets.length ≠ 15 ∨ octets.getD 14 0 ≠ 0x5a then none
    else (scanDecimal 4 octets).map fun year => (year, octets.drop 4)
  else none

/-- `x509_parse_time()`: a time before 1970 is the start of 1970. -/
def x509ParseTime (mktime : CalendarTime → Int) (octets : Bytes) (tag : Nat) : Option Int := do
  let (year, pos) ← x509ParseYear octets (tag % 256)
  let month ← scanDecimal 2 pos
  let day ← scanDecimal 2 (pos.drop 2)
  let hour ← scanDecimal 2 (pos.drop 4)
  let min ← scanDecimal 2 (pos.drop 6)
  let sec ← scanDecimal 2 (pos.drop 8)
  match osMktime mktime { year, month, day, hour, min, sec } with
  | some val => some val
  | none => if year < 1970 then some 0 else none

def x509ReadTime (mktime : CalendarTime → Int) (w : Bytes) : Except Stop (Int × Bytes) := do
  let hdr ← asn1ReadNext w 0
  require (hdr.cls = 0)
  let val ← ofOption (x509ParseTime mktime hdr.content hdr.tag)
  return (val, hdr.next)

/-- `x509_parse_validity()`: the two times and what follows. -/
def x509ReadValidity (mktime : CalendarTime → Int) (w : Bytes) : Except Stop (Int × Int × Bytes) := do
  let seq ← asn1ReadUniversal 16 w
  let notBefore ← x509ReadTime mktime seq.content
  let notAfter ← x509ReadTime mktime notBefore.2
  return (notBefore.1, notAfter.1, seq.next)

/-! ## Extensions -/

/-- `x509_parse_ext_key_usage()`. -/
def x509ReadExtKeyUsage (cert : X509FullCertificate) (w : Bytes) : Except Stop X509FullCertificate := do
  let hdr ← asn1ReadUniversal 3 w
  require (1 ≤ hdr.length)
  return { cert with keyUsagePresent := true, keyUsage := asn1BitStringToLong hdr.content }

/-- The end of `x509_parse_ext_basic_constraints()`. -/
def x509ReadPathLenConstraint (cert : X509FullCertificate) (hdr : Asn1Hdr) :
    Except Stop X509FullCertificate := do
  require (hdr.tag = 2)
  let octets ← asn1ReadContent hdr
  return { cert with pathLenConstraint := beNat octets % 2 ^ 64, pathLenConstraintPresent := true }

/-- What follows the value of the BOOLEAN, to the end of the extension. -/
def behindCa (seq hdr : Asn1Hdr) : Bytes := seq.payload.drop (seq.length - hdr.payload.length + 1)

/-- `x509_parse_ext_basic_constraints()`. -/
def x509ReadExtBasicConstraints (cert : X509FullCertificate) (w : Bytes) :
    Except Stop X509FullCertificate := do
  let seq ← asn1ReadUniversal 16 w
  let cert := { cert with basicConstraintsPresent := true }
  if seq.length = 0 then return cert
  else do
    let hdr ← asn1ReadNext seq.content 0
    require (hdr.cls = 0)
    if hdr.tag = 1 then do
      require (hdr.length = 1)
      let cert := { cert with ca := hdr.payload.headD 0 }
      let next := behindCa seq hdr
      if next = [] then return cert
      else do
        -- only the value is taken from the octets of the extension, not what is in front of it
        let hdr ← asn1ReadNext next (w.length - 1 - next.length)
        require (hdr.cls = 0)
        x509ReadPathLenConstraint cert hdr
    else x509ReadPathLenConstraint cert hdr

def x509AddAltName (name : X509AltNames) (tag : Nat) (octets : Bytes) : Option X509AltNames :=
  if tag = 1 then if 0 ∈ octets then none else some { name with altEmail := some octets }
  else if tag = 2 then if 0 ∈ octets then none else some { name with dns := some octets }
  else if tag = 6 then if 0 ∈ octets then none else some { name with uri := some octets }
  else if tag = 7 then some { name with ip := some octets }
  else if tag = 8 then (asn1ParseOid octets).map fun oid => { name with rid := oid }
  else some name

/-- A turn of `x509_parse_ext_alt_name()`. -/
def x509ReadAltName (name : X509AltNames) (w : Bytes) : Except Stop (X509AltNames × Bytes) := do
  let hdr ← asn1ReadNext w 0
  if hdr.cls ≠ 2 then return (name, hdr.next)
  else do
    let name ← ofOption (x509AddAltName name hdr.tag hdr.content)
    return (name, hdr.next)

/-- `x509_parse_ext_subject_alt_name()` and `x509_parse_ext_issuer_alt_name()`, from the names before. -/
def x509ReadExtAltName (name : X509AltNames) (w : Bytes) : Except Stop X509AltNames := do
  let seq ← asn1ReadUniversal 16 w
  pieces x509ReadAltName seq.content.length name seq.content

/-- The bit of a purpose in `ext_key_usage`. An OID for any purpose has one number more than the standard's. -/
def x509KeyPurpose (oid : List Nat) : Nat :=
  if oid.length = 6 ∧ oid.take 3 = [2, 5, 29] ∧ oid.getD 3 0 = 37 ∧ oid.getD 4 0 = 0 then 1
  else if oid = [1, 3, 6, 1, 5, 5, 7, 3, 1] then 2
  else if oid = [1, 3, 6, 1, 5, 5, 7, 3, 2] then 4
  else if oid = [1, 3, 6, 1, 5, 5, 7, 3, 9] then 8
  else 0

/-- A turn of `x509_parse_ext_ext_key_usage()`. -/
def x509ReadKeyPurpose (usage : Nat) (w : Bytes) : Except Stop (Nat × Bytes) := do
  let oid ← asn1ReadOid w
  return (usage ||| x509KeyPurpose oid.1, oid.2)

/-- `x509_parse_ext_ext_key_usage()`. -/
def x509ReadExtExtKeyUsage (cert : X509FullCertificate) (w : Bytes) : Except Stop X509FullCertificate := do
  let seq ← asn1ReadUniversal 16 w
  let usage ← pieces x509ReadKeyPurpose seq.content.length cert.extKeyUsage seq.content
  return { cert with extKeyUsage := usage, extKeyUsagePresent := true }

/-- `x509_parse_extension_data()`: the certificate, and whether the extension is known. -/
def x509ReadExtensionData (cert : X509FullCertificate) (oid : List Nat) (w : Bytes) :
    Except Stop (X509FullCertificate × Bool) :=
  if ¬ (4 ≤ oid.length ∧ oid.take 3 = [2, 5, 29]) then .ok (cert, false)
  else
    let ext := oid.getD 3 0
    if ext = 15 then (x509ReadExtKeyUsage cert w).map (·, true)
    else if ext = 17 then (x509ReadExtAltName cert.subjectAlt w).map fun name =>
      ({ cert with subjectAlt := name, subjectAltNamePresent := true }, true)
    else if ext = 18 then (x509ReadExtAltName cert.issuerAlt w).map fun name =>
      ({ cert with issuerAlt := name, issuerAltNamePresent := true }, true)
    else if ext = 19 then (x509ReadExtBasicConstraints cert w).map (·, true)
    else if ext = 37 then (x509ReadExtExtKeyUsage cert w).map (·, true)
    else .ok (cert, false)

/-- The value of an extension, and whether the extension is critical. After a BOOLEAN it is looked for from the
value of the BOOLEAN on: 0xff and the tag make an extended tag of the private class. -/
def x509ReadExtensionValue (w : Bytes) : Except Stop (Asn1Hdr × Bool) := do
  let hdr ← asn1ReadNext w 0
  require (hdr.cls = 0 ∧ (hdr.tag = 1 ∨ hdr.tag = 4))
  if hdr.tag = 1 then do
    require (hdr.length = 1)
    let value ← asn1ReadNext hdr.payload 0
    require ((value.cls = 0 ∨ value.cls = 3) ∧ value.tag = 4)
    return (value, hdr.payload.headD 0 ≠ 0)
  else return (hdr, false)

/-- `x509_parse_extension()`: the certificate and what follows. -/
def x509ReadExtension (cert : X509FullCertificate) (w : Bytes) : Except Stop (X509FullCertificate × Bytes) := do
  let ext ← asn1ReadUniversal 16 w
  let oid ← asn1ReadOid ext.content
  let value ← x509ReadExtensionValue oid.2
  let res ← x509ReadExtensionData cert oid.1 value.1.content
  require (res.2 ∨ value.2 = false)
  return (res.1, ext.next)

/-- `x509_parse_extensions()`. -/
def x509ReadExtensions (cert : X509FullCertificate) (w : Bytes) : Except Stop X509FullCertificate := do
  let seq ← asn1ReadUniversal 16 w
  pieces x509ReadExtension seq.content.length cert seq.content

/-! ## The certificate -/

def x509VersionOf (octet : UInt8) : Option X509Version :=
  if octet = 0 then some .v1
  else if octet = 1 then some .v2
  else if octet = 2 then some .v3
  else none

def x509ReadVersion (w : Bytes) : Except Stop (X509Version × Asn1Hdr) := do
  let hdr ← asn1ReadNext w 0
  if hdr.cls = 2 then do
    let num ← asn1ReadUniversal 2 hdr.payload
    require (num.length = 1)
    let version ← ofOption (x509VersionOf (num.payload.headD 0))
    -- what follows the number is the serial number, whatever the length of the element around the number
    let serial ← asn1ReadNext num.next 0
    return (version, serial)
  else return (.v1, hdr)

/-- The fields of `x509_parse_tbs_certificate()` that every certificate has, and what follows them. -/
def x509ReadTbsFields (mktime : CalendarTime → Int) (w : Bytes) :
    Except Stop (X509FullCertificate × Bytes) := do
  let first ← x509ReadVersion w
  let serial := first.2
  require (serial.cls = 0 ∧ serial.tag = 2 ∧ 1 ≤ serial.length ∧ serial.length ≤ 20)
  let signature ← x509ReadAlgorithmIdentifier serial.next
  let issuer ← x509ReadName signature.2
  let validity ← x509ReadValidity mktime issuer.2
  let subjectDn := validity.2.2
  let subject ← x509ReadName subjectDn
  let key ← x509ReadPublicKey subject.2
  return ({
    version := first.1
    signatureOid := signature.1
    issuer := issuer.1
    subject := subject.1
    notBefore := validity.1
    notAfter := validity.2.1
    publicKey := key.2.1
    serialNumber := serial.content.dropWhile (· = 0)
    subjectDn := subjectDn.take (subjectDn.length - subject.2.length)
    publicKeyAlg := key.1 }, key.2.2)

/-- The element after a unique identifier with this tag, if it is one; nothing if it is the last. -/
def x509SkipUniqueId (tag : Nat) (hdr : Asn1Hdr) : Except Stop (Option Asn1Hdr) :=
  if hdr.tag ≠ tag then .ok (some hdr)
  else if hdr.next = [] then .ok none
  else do
    let hdr ← asn1ReadNext hdr.next 0
    require (hdr.cls = 2)
    return some hdr

/-- The end of `x509_parse_tbs_certificate()`: what is not the extensions is ignored. -/
def x509ReadTbsExtensions (cert : X509FullCertificate) (hdr : Asn1Hdr) : Except Stop X509FullCertificate :=
  if hdr.tag ≠ 3 then .ok cert
  else do
    require (cert.version = .v3)
    x509ReadExtensions cert hdr.content

/-- The optional fields of `x509_parse_tbs_certificate()`. -/
def x509ReadTbsOptional (cert : X509FullCertificate) (w : Bytes) : Except Stop X509FullCertificate :=
  if w = [] ∨ cert.version = .v1 then .ok cert
  else do
    let hdr ← asn1ReadNext w 0
    require (hdr.cls = 2)
    let hdr ← x509SkipUniqueId 1 hdr
    match hdr with
    | none => return cert
    | some hdr => do
      let hdr ← x509SkipUniqueId 2 hdr
      match hdr with
      | none => return cert
      | some hdr => x509ReadTbsExtensions cert hdr

/-- `x509_parse_tbs_certificate()`: the certificate and what follows. -/
def x509ReadTbsCertificate (mktime : CalendarTime → Int) (w : Bytes) :
    Except Stop (X509FullCertificate × Bytes) := do
  let tbs ← asn1ReadUniversal 16 w
  let fields ← x509ReadTbsFields mktime tbs.content
  let cert ← x509ReadTbsOptional fields.1 fields.2
  return (cert, tbs.next)

/-- `x509_certificate_parse()`. What follows the certificate is ignored. -/
def x509CertificateParse (mktime : CalendarTime → Int) (buf : Bytes) : Except Stop X509FullCertificate := do
  let hdr ← asn1ReadUniversal 16 buf
  let body := hdr.content
  let tbs ← x509ReadTbsCertificate mktime body
  let signatureAlg ← x509ReadAlgorithmIdentifier tbs.2
  let bits ← asn1ReadUniversal 3 signatureAlg.2
  require (1 ≤ bits.length)
  require (bits.payload.headD 0 = 0)
  return { tbs.1 with
    tbsCert := body.take (body.length - tbs.2.length)
    signatureAlg := signatureAlg.1
    signValue := bits.content.drop 1 }

end Hostap
