import Hostap.Tls.X509Inside

/-!
# The octets of a certificate

Where a certificate is the result, the fields that are octets of the input are the ranges of it that the ASN.1
structure says: `CertificateRanges` cuts the input at the headers. That all octets that are read are in the
value a function is given, and so in the input, holds of an input if and only if it is `CertificateInside`.
-/

namespace Hostap

open Octets Der Bounded

/-! ## Layout -/

/-- A header and as many octets as it says. -/
inductive IsElement (cls tag : Nat) : Bytes → Prop
  | mk {head content : Bytes} (hhead : IsHeader cls tag content.length head) :
      IsElement cls tag (head ++ content)

/-- The BIT STRING of a key or of a signature, in which the first octet is the number of unused bits. -/
inductive BitString (unused : UInt8) (octets : Bytes) : Bytes → Prop
  | mk {head : Bytes} (hhead : IsHeader 0 3 (octets.length + 1) head) :
      BitString unused octets (head ++ unused :: octets)

/-- The element of the version: the number is in it, and may be longer than it says. -/
inductive VersionField : Bytes → Prop
  | absent : VersionField []
  | mk {tag length : Nat} {head num : Bytes} (hhead : IsHeader 2 tag length head) (hnum : IsElement 0 2 num) :
      VersionField (head ++ num)

/-- SubjectPublicKeyInfo with the key. -/
inductive PublicKeyRange (key : Bytes) : Bytes → Prop
  | mk {head alg bits after : Bytes} {unused : UInt8}
      (hhead : IsHeader 0 16 (alg ++ (bits ++ after)).length head) (halg : IsElement 0 16 alg)
      (hbits : BitString unused key bits) : PublicKeyRange key (head ++ (alg ++ (bits ++ after)))

/-- The fields of a tbsCertificate, with the name of the subject and the key. -/
inductive TbsFields (subjectDn key : Bytes) : Bytes → Prop
  | mk {version serial signature issuer validity info after : Bytes} (hversion : VersionField version)
      (hserial : IsElement 0 2 serial) (hsignature : IsElement 0 16 signature) (hissuer : IsElement 0 16 issuer)
      (hvalidity : IsElement 0 16 validity) (hsubject : IsElement 0 16 subjectDn)
      (hinfo : PublicKeyRange key info) :
      TbsFields subjectDn key
        (version ++ (serial ++ (signature ++ (issuer ++ (validity ++ (subjectDn ++ (info ++ after)))))))

/-- The element of a tbsCertificate. -/
inductive TbsRange (subjectDn key : Bytes) : Bytes → Prop
  | mk {head fields : Bytes} (hhead : IsHeader 0 16 fields.length head)
      (hfields : TbsFields subjectDn key fields) : TbsRange subjectDn key (head ++ fields)

/-- The octets of a certificate, with the fields that are parts of them. Behind it there may be more. -/
inductive CertificateRanges (cert : X509FullCertificate) : Bytes → Prop
  | mk {head alg bits inner after : Bytes}
      (hhead : IsHeader 0 16 (cert.tbsCert ++ (alg ++ (bits ++ inner))).length head)
      (htbs : TbsRange cert.subjectDn cert.publicKey cert.tbsCert) (halg : IsElement 0 16 alg)
      (hbits : BitString 0 cert.signValue bits) :
      CertificateRanges cert (head ++ ((cert.tbsCert ++ (alg ++ (bits ++ inner))) ++ after))

/-! ## Elements -/

theorem asn1ReadUniversal_element {tag : Nat} {w : Bytes} {hdr : Asn1Hdr}
    (h : asn1ReadUniversal tag w = .ok hdr) :
    ∃ head, IsHeader 0 tag hdr.content.length head ∧ w = head ++ (hdr.content ++ hdr.next) := by
  obtain ⟨hnext, hcls, htag⟩ := asn1ReadUniversal_ok.mp h
  obtain ⟨head, hhead, hw, -⟩ := asn1ReadNext_element hnext
  rw [hcls, htag] at hhead
  exact ⟨head, hhead, hw⟩

theorem asn1ReadUniversal_range {tag : Nat} {w : Bytes} {hdr : Asn1Hdr}
    (h : asn1ReadUniversal tag w = .ok hdr) : ∃ el, IsElement 0 tag el ∧ w = el ++ hdr.next := by
  obtain ⟨head, hhead, hw⟩ := asn1ReadUniversal_element h
  exact ⟨head ++ hdr.content, .mk hhead, by rw [List.append_assoc]; exact hw⟩

theorem x509ReadAlgorithmIdentifier_range {w : Bytes} {alg : List Nat × Bytes}
    (h : x509ReadAlgorithmIdentifier w = .ok alg) : ∃ el, IsElement 0 16 el ∧ w = el ++ alg.2 := by
  obtain ⟨seq, hseq, h⟩ := except_bind_ok h
  obtain ⟨_, _, h⟩ := except_bind_ok h
  cases h
  exact asn1ReadUniversal_range hseq

theorem x509ReadName_range {w : Bytes} {name : X509Name × Bytes} (h : x509ReadName w = .ok name) :
    ∃ el, IsElement 0 16 el ∧ w = el ++ name.2 := by
  obtain ⟨seq, hseq, h⟩ := except_bind_ok h
  obtain ⟨_, _, h⟩ := except_bind_ok h
  cases h
  exact asn1ReadUniversal_range hseq

theorem bitString_range {w : Bytes} {bits : Asn1Hdr} (h : asn1ReadUniversal 3 w = .ok bits)
    (hlen : 1 ≤ bits.length) :
    ∃ el, BitString (bits.payload.headD 0) (bits.content.drop 1) el ∧ w = el ++ bits.next := by
  obtain ⟨head, hhead, hw⟩ := asn1ReadUniversal_element h
  obtain ⟨-, -, -, hcontent⟩ := asn1ReadNext_element (asn1ReadUniversal_ok.mp h).1
  have hcons : bits.content = bits.payload.headD 0 :: bits.content.drop 1 := by
    unfold Asn1Hdr.content
    obtain ⟨n, hn⟩ : ∃ n, bits.length = n + 1 := ⟨bits.length - 1, by omega⟩
    cases hpayload : bits.payload with
    | nil =>
      have hzero : bits.content.length = 0 := by
        unfold Asn1Hdr.content
        rw [hpayload]
        simp
      omega
    | cons b rest => simp [hn]
  rw [hcons] at hw
  rw [show bits.content.length = (bits.content.drop 1).length + 1 by rw [List.length_drop]; omega] at hhead
  exact ⟨_, .mk hhead, by rw [List.append_assoc]; exact hw⟩

theorem x509ReadPublicKey_range {w : Bytes} {key : List Nat × Bytes × Bytes}
    (h : x509ReadPublicKey w = .ok key) : ∃ el, PublicKeyRange key.2.1 el ∧ w = el ++ key.2.2 := by
  obtain ⟨seq, hseq, h⟩ := except_bind_ok h
  obtain ⟨alg, halg, h⟩ := except_bind_ok h
  obtain ⟨bits, hbits, h⟩ := except_bind_ok h
  obtain ⟨_, hlen, h⟩ := except_bind_ok h
  cases h
  obtain ⟨head, hhead, hw⟩ := asn1ReadUniversal_element hseq
  obtain ⟨algEl, halgEl, hcontent⟩ := x509ReadAlgorithmIdentifier_range halg
  obtain ⟨bitsEl, hbitsEl, hrest⟩ := bitString_range hbits (require_ok.mp hlen)
  rw [hrest] at hcontent
  rw [hcontent] at hhead hw
  exact ⟨_, .mk hhead halgEl hbitsEl, by rw [List.append_assoc]; exact hw⟩

section Validity

variable {mktime : CalendarTime → Int}

theorem x509ReadValidity_range {w : Bytes} {validity : Int × Int × Bytes}
    (h : x509ReadValidity mktime w = .ok validity) : ∃ el, IsElement 0 16 el ∧ w = el ++ validity.2.2 := by
  obtain ⟨seq, hseq, h⟩ := except_bind_ok h
  obtain ⟨_, _, h⟩ := except_bind_ok h
  obtain ⟨_, _, h⟩ := except_bind_ok h
  cases h
  exact asn1ReadUniversal_range hseq

end Validity

theorem x509ReadVersion_range {w : Bytes} {first : X509Version × Asn1Hdr} (h : x509ReadVersion w = .ok first)
    (hserial : SerialFits first.2) :
    ∃ version serial, VersionField version ∧ IsElement 0 2 serial ∧
      w = version ++ (serial ++ first.2.next) := by
  obtain ⟨hdr, hhdr, h⟩ := except_bind_ok h
  obtain ⟨hcls, htag, -, -⟩ := hserial
  by_cases hctx : hdr.cls = 2
  · rw [if_pos hctx] at h
    obtain ⟨num, hnum, h⟩ := except_bind_ok h
    obtain ⟨_, _, h⟩ := except_bind_ok h
    obtain ⟨version, _, h⟩ := except_bind_ok h
    obtain ⟨serial, hserial, h⟩ := except_bind_ok h
    cases h
    obtain ⟨head, hhead, hw, -⟩ := asn1ReadNext_element hhdr
    obtain ⟨numEl, hnumEl, hpayload⟩ := asn1ReadUniversal_range hnum
    obtain ⟨serialEl, hserialEl, hrest⟩ := asn1ReadUniversal_range
      (asn1ReadUniversal_ok.mpr ⟨hserial, hcls, htag⟩)
    rw [hctx] at hhead
    refine ⟨head ++ numEl, serialEl, .mk hhead hnumEl, hserialEl, ?_⟩
    rw [List.append_assoc, ← hrest, ← hpayload]
    rw [hw]
    exact congrArg _ (List.take_append_drop _ _)
  · rw [if_neg hctx] at h
    cases h
    obtain ⟨serialEl, hserialEl, hw⟩ := asn1ReadUniversal_range (asn1ReadUniversal_ok.mpr ⟨hhdr, hcls, htag⟩)
    exact ⟨[], serialEl, .absent, hserialEl, hw⟩

/-! ## Fields -/

section Certificate

variable {mktime : CalendarTime → Int}

theorem x509ReadTbsFields_range {w : Bytes} {fields : X509FullCertificate × Bytes}
    (h : x509ReadTbsFields mktime w = .ok fields) :
    TbsFields fields.1.subjectDn fields.1.publicKey w := by
  obtain ⟨first, hfirst, h⟩ := except_bind_ok h
  obtain ⟨_, hserial, h⟩ := except_bind_ok h
  obtain ⟨signature, hsignature, h⟩ := except_bind_ok h
  obtain ⟨issuer, hissuer, h⟩ := except_bind_ok h
  obtain ⟨validity, hvalidity, h⟩ := except_bind_ok h
  obtain ⟨subject, hsubject, h⟩ := except_bind_ok h
  obtain ⟨key, hkey, h⟩ := except_bind_ok h
  cases h
  have hfits := require_ok.mp hserial
  obtain ⟨version, serial, hversion, hserialEl, rfl⟩ := x509ReadVersion_range hfirst hfits
  obtain ⟨signatureEl, hsignatureEl, hw⟩ := x509ReadAlgorithmIdentifier_range hsignature
  obtain ⟨issuerEl, hissuerEl, hw₁⟩ := x509ReadName_range hissuer
  obtain ⟨validityEl, hvalidityEl, hw₂⟩ := x509ReadValidity_range hvalidity
  obtain ⟨subjectEl, hsubjectEl, hw₃⟩ := x509ReadName_range hsubject
  obtain ⟨info, hinfo, hw₄⟩ := x509ReadPublicKey_range hkey
  -- the name of the subject is what was taken from the front
  have hdn : validity.2.2.take (validity.2.2.length - subject.2.length) = subjectEl := by
    rw [hw₃, List.length_append, Nat.add_sub_cancel_right, List.take_left' rfl]
  rw [hw, hw₁, hw₂]
  show TbsFields (validity.2.2.take (validity.2.2.length - subject.2.length)) key.2.1 _
  rw [hdn, hw₃, hw₄]
  exact .mk hversion hserialEl hsignatureEl hissuerEl hvalidityEl hsubjectEl hinfo

/-- The extensions do not touch the key and the name of the subject. -/
def octetFields (cert : X509FullCertificate) : Bytes × Bytes := (cert.publicKey, cert.subjectDn)

theorem x509ReadPathLenConstraint_keeps {cert cert' : X509FullCertificate} {hdr : Asn1Hdr}
    (h : x509ReadPathLenConstraint cert hdr = .ok cert') : octetFields cert' = octetFields cert := by
  obtain ⟨_, _, h⟩ := except_bind_ok h
  obtain ⟨_, _, h⟩ := except_bind_ok h
  cases h
  rfl

theorem x509ReadExtBasicConstraints_keeps {cert cert' : X509FullCertificate} {w : Bytes}
    (h : x509ReadExtBasicConstraints cert w = .ok cert') : octetFields cert' = octetFields cert := by
  obtain ⟨seq, _, h⟩ := except_bind_ok h
  dsimp only at h
  by_cases hempty : seq.length = 0
  · rw [if_pos hempty] at h
    cases h
    rfl
  rw [if_neg hempty] at h
  obtain ⟨hdr, _, h⟩ := except_bind_ok h
  obtain ⟨_, _, h⟩ := except_bind_ok h
  by_cases htag : hdr.tag = 1
  swap
  · rw [if_neg htag] at h
    exact (x509ReadPathLenConstraint_keeps h).trans rfl
  rw [if_pos htag] at h
  obtain ⟨_, _, h⟩ := except_bind_ok h
  by_cases hnext : behindCa seq hdr = []
  · rw [if_pos hnext] at h
    cases h
    rfl
  rw [if_neg hnext] at h
  obtain ⟨_, _, h⟩ := except_bind_ok h
  obtain ⟨_, _, h⟩ := except_bind_ok h
  exact (x509ReadPathLenConstraint_keeps h).trans rfl

theorem x509ReadExtensionData_keeps {cert : X509FullCertificate} {oid : List Nat} {w : Bytes}
    {res : X509FullCertificate × Bool} (h : x509ReadExtensionData cert oid w = .ok res) :
    octetFields res.1 = octetFields cert := by
  unfold x509ReadExtensionData at h
  by_cases hce : 4 ≤ oid.length ∧ oid.take 3 = [2, 5, 29]
  swap
  · rw [if_pos hce] at h
    cases h
    rfl
  rw [if_neg (not_not.mpr hce)] at h
  dsimp only at h
  generalize oid.getD 3 0 = ext at h
  by_cases h15 : ext = 15
  · rw [if_pos h15] at h
    obtain ⟨cert', hread, rfl⟩ := except_map_ok h
    obtain ⟨_, _, hread⟩ := except_bind_ok hread
    obtain ⟨_, _, hread⟩ := except_bind_ok hread
    cases hread
    rfl
  rw [if_neg h15] at h
  by_cases h17 : ext = 17
  · rw [if_pos h17] at h
    obtain ⟨name, _, rfl⟩ := except_map_ok h
    rfl
  rw [if_neg h17] at h
  by_cases h18 : ext = 18
  · rw [if_pos h18] at h
    obtain ⟨name, _, rfl⟩ := except_map_ok h
    rfl
  rw [if_neg h18] at h
  by_cases h19 : ext = 19
  · rw [if_pos h19] at h
    obtain ⟨cert', hread, rfl⟩ := except_map_ok h
    exact x509ReadExtBasicConstraints_keeps hread
  rw [if_neg h19] at h
  by_cases h37 : ext = 37
  · rw [if_pos h37] at h
    obtain ⟨cert', hread, rfl⟩ := except_map_ok h
    obtain ⟨_, _, hread⟩ := except_bind_ok hread
    obtain ⟨_, _, hread⟩ := except_bind_ok hread
    cases hread
    rfl
  rw [if_neg h37] at h
  cases h
  rfl

theorem x509ReadExtension_keeps {cert cert' : X509FullCertificate} {w rest : Bytes}
    (h : x509ReadExtension cert w = .ok (cert', rest)) : octetFields cert' = octetFields cert := by
  obtain ⟨_, _, h⟩ := except_bind_ok h
  obtain ⟨_, _, h⟩ := except_bind_ok h
  obtain ⟨_, _, h⟩ := except_bind_ok h
  obtain ⟨res, hres, h⟩ := except_bind_ok h
  obtain ⟨_, _, h⟩ := except_bind_ok h
  cases h
  exact x509ReadExtensionData_keeps hres

theorem x509ReadExtensions_keeps {cert cert' : X509FullCertificate} {w : Bytes}
    (h : x509ReadExtensions cert w = .ok cert') : octetFields cert' = octetFields cert := by
  obtain ⟨seq, _, h⟩ := except_bind_ok h
  exact pieces_keeps (fun _ _ _ _ => x509ReadExtension_keeps) h

theorem x509ReadTbsExtensions_keeps {cert cert' : X509FullCertificate} {hdr : Asn1Hdr}
    (h : x509ReadTbsExtensions cert hdr = .ok cert') : octetFields cert' = octetFields cert := by
  unfold x509ReadTbsExtensions at h
  by_cases htag : hdr.tag = 3
  swap
  · rw [if_pos htag] at h
    cases h
    rfl
  rw [if_neg (not_not.mpr htag)] at h
  obtain ⟨_, _, h⟩ := except_bind_ok h
  exact x509ReadExtensions_keeps h

theorem x509ReadTbsOptional_keeps {cert cert' : X509FullCertificate} {w : Bytes}
    (h : x509ReadTbsOptional cert w = .ok cert') : octetFields cert' = octetFields cert := by
  unfold x509ReadTbsOptional at h
  by_cases hnone : w = [] ∨ cert.version = .v1
  · rw [if_pos hnone] at h
    cases h
    rfl
  rw [if_neg hnone] at h
  obtain ⟨hdr, _, h⟩ := except_bind_ok h
  obtain ⟨_, _, h⟩ := except_bind_ok h
  obtain ⟨second, _, h⟩ := except_bind_ok h
  cases second with
  | none => cases h; rfl
  | some second =>
    obtain ⟨third, _, h⟩ := except_bind_ok h
    cases third with
    | none => cases h; rfl
    | some third => exact x509ReadTbsExtensions_keeps h

theorem x509ReadTbsCertificate_range {w : Bytes} {tbs : X509FullCertificate × Bytes}
    (h : x509ReadTbsCertificate mktime w = .ok tbs) :
    ∃ el, TbsRange tbs.1.subjectDn tbs.1.publicKey el ∧ w = el ++ tbs.2 := by
  obtain ⟨hdr, hhdr, h⟩ := except_bind_ok h
  obtain ⟨fields, hfields, h⟩ := except_bind_ok h
  obtain ⟨cert, hcert, h⟩ := except_bind_ok h
  cases h
  have hkeeps := x509ReadTbsOptional_keeps hcert
  obtain ⟨head, hhead, hw⟩ := asn1ReadUniversal_element hhdr
  refine ⟨head ++ hdr.content, .mk hhead ?_, by rw [List.append_assoc]; exact hw⟩
  have hkey : cert.publicKey = fields.1.publicKey := congrArg Prod.fst hkeeps
  have hsubject : cert.subjectDn = fields.1.subjectDn := congrArg Prod.snd hkeeps
  show TbsFields cert.subjectDn cert.publicKey hdr.content
  rw [hkey, hsubject]
  exact x509ReadTbsFields_range hfields

theorem x509CertificateParse_ranges {buf : Bytes} {cert : X509FullCertificate}
    (h : x509CertificateParse mktime buf = .ok cert) : CertificateRanges cert buf := by
  obtain ⟨hdr, hhdr, h⟩ := except_bind_ok h
  obtain ⟨tbs, htbs, h⟩ := except_bind_ok h
  obtain ⟨alg, halg, h⟩ := except_bind_ok h
  obtain ⟨bits, hbits, h⟩ := except_bind_ok h
  obtain ⟨_, hlen, h⟩ := except_bind_ok h
  obtain ⟨_, hunused, h⟩ := except_bind_ok h
  cases h
  obtain ⟨head, hhead, hbuf⟩ := asn1ReadUniversal_element hhdr
  obtain ⟨tbsEl, htbsEl, hbody⟩ := x509ReadTbsCertificate_range htbs
  obtain ⟨algEl, halgEl, hrest⟩ := x509ReadAlgorithmIdentifier_range halg
  obtain ⟨bitsEl, hbitsEl, hsign⟩ := bitString_range hbits (require_ok.mp hlen)
  rw [require_ok.mp hunused] at hbitsEl
  have htbsCert : hdr.content.take (hdr.content.length - tbs.2.length) = tbsEl := by
    rw [hbody, List.length_append, Nat.add_sub_cancel_right, List.take_left' rfl]
  rw [htbsCert]
  rw [hbody, hrest, hsign] at hhead hbuf
  rw [hbuf]
  exact .mk hhead htbsEl halgEl hbitsEl

/-- A certificate of version 1 without names. -/
example :
    (x509CertificateParse (fun _ => 0) ([
      0x30, 0x47, 0x30, 0x3c, 0x02, 0x01, 0x01, 0x30, 0x03, 0x06, 0x01, 0x2a, 0x30, 0x00, 0x30, 0x1e,
      0x17, 0x0d, 0x37, 0x30, 0x30, 0x31, 0x30, 0x31, 0x30, 0x30, 0x30, 0x30, 0x30, 0x30, 0x5a, 0x17,
      0x0d, 0x37, 0x30, 0x30, 0x31, 0x30, 0x31, 0x30, 0x30, 0x30, 0x30, 0x30, 0x30, 0x5a, 0x30, 0x00,
      0x30, 0x0e, 0x30, 0x03, 0x06, 0x01, 0x2a, 0x03, 0x07, 0x00, 0x01, 0x02, 0x03, 0x04, 0x05, 0x06,
      0x30, 0x03, 0x06, 0x01, 0x2a, 0x03, 0x02, 0x00, 0xaa] : Bytes)).toOption.map
      (fun cert => (cert.publicKey, cert.subjectDn, cert.signValue)) =
      some ([1, 2, 3, 4, 5, 6], [0x30, 0x00], [0xaa]) := by decide +kernel

end Certificate

/-- So is what is behind a cut one, and behind a SEQUENCE that is empty. -/
example : x509CertificateParse (fun _ => 0) [0x30] = .error .outside ∧
    x509CertificateParse (fun _ => 0) [0x30, 0x00] = .error .outside := by decide +kernel

end Hostap
