import Hostap.Tls.Asn1Read

/-!
# When a certificate is read inside its values

For each function that reads a part of a certificate, what the part has to have so that nothing outside of it is
read: wherever an element is looked for, there has to be the start of one. A function goes on only behind what
it has taken, so that the condition on an element speaks of the elements in front of it that were read.

All of them end: a loop takes an element in each turn.
-/

namespace Hostap

open Octets Der Bounded

/-! ## Elements -/

/-- There is the start of an element, and with the element that is read, if it has this tag, it goes on. -/
def StartsElement (tag : Nat) (w : Bytes) (next : Asn1Hdr → Prop) : Prop :=
  Asn1Starts w ∧ ∀ hdr, asn1ReadUniversal tag w = .ok hdr → next hdr

theorem asn1ReadUniversal_inside {tag : Nat} {w : Bytes} :
    Avoids .outside (asn1ReadUniversal tag w) ↔ Asn1Starts w := by
  unfold asn1ReadUniversal
  rw [avoids_bind, asn1ReadNext_inside]
  exact and_iff_left fun _ _ => (avoids_require_bind (by decide)).mpr fun _ => avoids_pure _

theorem startsElement_iff {α : Type} {tag : Nat} {w : Bytes} {f : Asn1Hdr → Except Stop α} :
    Avoids .outside (asn1ReadUniversal tag w >>= f) ↔
      StartsElement tag w fun hdr => Avoids .outside (f hdr) := by
  rw [avoids_bind, asn1ReadUniversal_inside]
  exact Iff.rfl

theorem StartsElement.congr {tag : Nat} {w : Bytes} {next next' : Asn1Hdr → Prop}
    (h : ∀ hdr, next hdr ↔ next' hdr) : StartsElement tag w next ↔ StartsElement tag w next' :=
  and_congr_right fun _ => forall₂_congr fun hdr _ => h hdr

theorem asn1ReadOid_inside {w : Bytes} : Avoids .outside (asn1ReadOid w) ↔ Asn1Starts w := by
  unfold asn1ReadOid
  rw [avoids_bind, asn1ReadNext_inside]
  refine and_iff_left fun _ _ => (avoids_require_bind (by decide)).mpr fun _ => ?_
  exact (avoids_require_bind (by decide)).mpr fun _ =>
    avoids_then (avoids_ofOption (by decide) _) fun _ => avoids_pure _

theorem asn1ReadUniversal_ends (tag : Nat) (w : Bytes) : Avoids .running (asn1ReadUniversal tag w) :=
  avoids_then (asn1ReadNext_ends w 0) fun _ => avoids_then (avoids_require (by decide)) fun _ => avoids_pure _

theorem asn1ReadOid_ends (w : Bytes) : Avoids .running (asn1ReadOid w) := by
  refine avoids_then (asn1ReadNext_ends w 0) fun _ => avoids_then (avoids_require (by decide)) fun _ => ?_
  exact avoids_then (avoids_require (by decide)) fun _ =>
    avoids_then (avoids_ofOption (by decide) _) fun _ => avoids_pure _

/-! ## Parts -/

def AlgorithmIdentifierStarts (w : Bytes) : Prop := StartsElement 16 w fun seq => Asn1Starts seq.content

theorem x509ReadAlgorithmIdentifier_inside {w : Bytes} :
    Avoids .outside (x509ReadAlgorithmIdentifier w) ↔ AlgorithmIdentifierStarts w := by
  unfold x509ReadAlgorithmIdentifier AlgorithmIdentifierStarts
  rw [startsElement_iff]
  refine StartsElement.congr fun seq => ?_
  rw [avoids_bind, asn1ReadOid_inside]
  exact and_iff_left fun _ _ => avoids_pure _

theorem x509ReadAlgorithmIdentifier_ends (w : Bytes) : Avoids .running (x509ReadAlgorithmIdentifier w) :=
  avoids_then (asn1ReadUniversal_ends 16 w) fun _ => avoids_then (asn1ReadOid_ends _) fun _ => avoids_pure _

def PublicKeyStarts (w : Bytes) : Prop :=
  StartsElement 16 w fun seq => AlgorithmIdentifierStarts seq.content ∧
    ∀ alg, x509ReadAlgorithmIdentifier seq.content = .ok alg → Asn1Starts alg.2

theorem x509ReadPublicKey_inside {w : Bytes} : Avoids .outside (x509ReadPublicKey w) ↔ PublicKeyStarts w := by
  unfold x509ReadPublicKey PublicKeyStarts
  rw [startsElement_iff]
  refine StartsElement.congr fun seq => ?_
  rw [avoids_bind, x509ReadAlgorithmIdentifier_inside]
  refine and_congr_right fun _ => forall₂_congr fun alg _ => ?_
  rw [avoids_bind, asn1ReadUniversal_inside]
  exact and_iff_left fun _ _ => (avoids_require_bind (by decide)).mpr fun _ => avoids_pure _

theorem x509ReadPublicKey_ends (w : Bytes) : Avoids .running (x509ReadPublicKey w) := by
  refine avoids_then (asn1ReadUniversal_ends 16 w) fun seq => ?_
  refine avoids_then (x509ReadAlgorithmIdentifier_ends _) fun alg => ?_
  exact avoids_then (asn1ReadUniversal_ends 3 _) fun _ =>
    avoids_then (avoids_require (by decide)) fun _ => avoids_pure _

def RdnStarts (w : Bytes) : Prop :=
  StartsElement 17 w fun set => StartsElement 16 set.content fun seq =>
    Asn1Starts seq.content ∧ ∀ oid, asn1ReadOid seq.content = .ok oid → Asn1Starts oid.2

theorem x509ReadRdn_inside {name : X509Name} {w : Bytes} :
    Avoids .outside (x509ReadRdn name w) ↔ RdnStarts w := by
  unfold x509ReadRdn RdnStarts
  rw [startsElement_iff]
  refine StartsElement.congr fun set => ?_
  rw [startsElement_iff]
  refine StartsElement.congr fun seq => ?_
  rw [avoids_bind, asn1ReadOid_inside]
  refine and_congr_right fun _ => forall₂_congr fun oid _ => ?_
  rw [avoids_bind, asn1ReadNext_inside]
  refine and_iff_left fun _ _ => (avoids_require_bind (by decide)).mpr fun _ => ?_
  exact avoids_then (avoids_ofOption (by decide) _) fun _ => avoids_pure _

theorem x509ReadRdn_ends (name : X509Name) (w : Bytes) : Avoids .running (x509ReadRdn name w) := by
  refine avoids_then (asn1ReadUniversal_ends 17 w) fun set => ?_
  refine avoids_then (asn1ReadUniversal_ends 16 _) fun seq => ?_
  refine avoids_then (asn1ReadOid_ends _) fun oid => ?_
  refine avoids_then (asn1ReadNext_ends _ 0) fun _ => avoids_then (avoids_require (by decide)) fun _ => ?_
  exact avoids_then (avoids_ofOption (by decide) _) fun _ => avoids_pure _

theorem x509ReadRdn_shortens : Shortens x509ReadRdn := by
  intro name w name' rest h
  obtain ⟨set, hset, h⟩ := except_bind_ok h
  obtain ⟨_, _, h⟩ := except_bind_ok h
  obtain ⟨_, _, h⟩ := except_bind_ok h
  obtain ⟨_, _, h⟩ := except_bind_ok h
  obtain ⟨_, _, h⟩ := except_bind_ok h
  obtain ⟨_, _, h⟩ := except_bind_ok h
  cases h
  exact asn1ReadNext_shortens (asn1ReadUniversal_ok.mp hset).1

def NameStarts (w : Bytes) : Prop :=
  StartsElement 16 w fun seq => ∀ name rest, Comes x509ReadRdn {} seq.content name rest → rest ≠ [] →
    RdnStarts rest

theorem x509ReadName_inside {w : Bytes} : Avoids .outside (x509ReadName w) ↔ NameStarts w := by
  unfold x509ReadName NameStarts
  rw [startsElement_iff]
  refine StartsElement.congr fun seq => ?_
  rw [avoids_bind, pieces_inside x509ReadRdn_shortens (le_refl _)]
  rw [and_iff_left fun _ _ => avoids_pure _]
  exact forall₄_congr fun name rest _ _ => x509ReadRdn_inside

theorem x509ReadName_ends (w : Bytes) : Avoids .running (x509ReadName w) :=
  avoids_then (asn1ReadUniversal_ends 16 w) fun _ =>
    avoids_then (pieces_ends x509ReadRdn_shortens x509ReadRdn_ends (le_refl _)) fun _ => avoids_pure _

section Validity

variable (mktime : CalendarTime → Int)

theorem x509ReadTime_inside {w : Bytes} : Avoids .outside (x509ReadTime mktime w) ↔ Asn1Starts w := by
  unfold x509ReadTime
  rw [avoids_bind, asn1ReadNext_inside]
  refine and_iff_left fun _ _ => (avoids_require_bind (by decide)).mpr fun _ => ?_
  exact avoids_then (avoids_ofOption (by decide) _) fun _ => avoids_pure _

theorem x509ReadTime_ends (w : Bytes) : Avoids .running (x509ReadTime mktime w) := by
  refine avoids_then (asn1ReadNext_ends w 0) fun _ => avoids_then (avoids_require (by decide)) fun _ => ?_
  exact avoids_then (avoids_ofOption (by decide) _) fun _ => avoids_pure _

def ValidityStarts (w : Bytes) : Prop :=
  StartsElement 16 w fun seq => Asn1Starts seq.content ∧
    ∀ notBefore, x509ReadTime mktime seq.content = .ok notBefore → Asn1Starts notBefore.2

theorem x509ReadValidity_inside {w : Bytes} :
    Avoids .outside (x509ReadValidity mktime w) ↔ ValidityStarts mktime w := by
  unfold x509ReadValidity ValidityStarts
  rw [startsElement_iff]
  refine StartsElement.congr fun seq => ?_
  rw [avoids_bind, x509ReadTime_inside]
  refine and_congr_right fun _ => forall₂_congr fun notBefore _ => ?_
  rw [avoids_bind, x509ReadTime_inside]
  exact and_iff_left fun _ _ => avoids_pure _

theorem x509ReadValidity_ends (w : Bytes) : Avoids .running (x509ReadValidity mktime w) :=
  avoids_then (asn1ReadUniversal_ends 16 w) fun _ => avoids_then (x509ReadTime_ends mktime _) fun _ =>
    avoids_then (x509ReadTime_ends mktime _) fun _ => avoids_pure _

end Validity

/-! ## Extensions -/

theorem x509ReadExtKeyUsage_inside {cert : X509FullCertificate} {w : Bytes} :
    Avoids .outside (x509ReadExtKeyUsage cert w) ↔ Asn1Starts w := by
  unfold x509ReadExtKeyUsage
  rw [avoids_bind, asn1ReadUniversal_inside]
  exact and_iff_left fun _ _ => (avoids_require_bind (by decide)).mpr fun _ => avoids_pure _

theorem x509ReadExtKeyUsage_ends (cert : X509FullCertificate) (w : Bytes) :
    Avoids .running (x509ReadExtKeyUsage cert w) :=
  avoids_then (asn1ReadUniversal_ends 3 w) fun _ =>
    avoids_then (avoids_require (by decide)) fun _ => avoids_pure _

/-- The element behind the value of cA is complete, and the octets of an INTEGER are there. -/
def PathLenInside (w next : Bytes) : Prop :=
  Asn1Complete next ∧ ∀ num, asn1ReadNext next (w.length - 1 - next.length) = .ok num →
    num.cls = 0 → num.tag = 2 → num.length ≤ num.payload.length

def BasicConstraintsInside (w : Bytes) : Prop :=
  StartsElement 16 w fun seq => seq.length ≠ 0 → Asn1Starts seq.content ∧
    ∀ hdr, asn1ReadNext seq.content 0 = .ok hdr → hdr.cls = 0 → hdr.tag = 1 → hdr.length = 1 →
      behindCa seq hdr ≠ [] → PathLenInside w (behindCa seq hdr)

theorem x509ReadPathLenConstraint_inside {cert : X509FullCertificate} {hdr : Asn1Hdr} :
    Avoids .outside (x509ReadPathLenConstraint cert hdr) ↔ (hdr.tag = 2 → hdr.length ≤ hdr.payload.length) := by
  unfold x509ReadPathLenConstraint
  rw [avoids_require_bind (by decide)]
  refine forall_congr' fun _ => ?_
  rw [avoids_bind, and_iff_left fun _ _ => avoids_pure _]
  unfold asn1ReadContent
  by_cases hcut : hdr.payload.length < hdr.length
  · rw [if_pos hcut]
    exact iff_of_false (fun h => h rfl) (Nat.not_le_of_lt hcut)
  · rw [if_neg hcut]
    exact iff_of_true (avoids_ok _) (Nat.le_of_not_lt hcut)

theorem behindCa_extra {w : Bytes} {seq hdr : Asn1Hdr} (hseq : asn1ReadUniversal 16 w = .ok seq)
    (hnext : behindCa seq hdr ≠ []) : w.length - 1 - (behindCa seq hdr).length ≠ 0 := by
  have hpayload := asn1ReadNext_payload (asn1ReadUniversal_ok.mp hseq).1
  have hpos := List.length_pos_iff.mpr hnext
  have hlen : (behindCa seq hdr).length = seq.payload.length - (seq.length - hdr.payload.length + 1) :=
    List.length_drop
  omega

theorem x509ReadExtBasicConstraints_inside {cert : X509FullCertificate} {w : Bytes} :
    Avoids .outside (x509ReadExtBasicConstraints cert w) ↔ BasicConstraintsInside w := by
  unfold x509ReadExtBasicConstraints BasicConstraintsInside
  rw [startsElement_iff]
  refine and_congr_right fun _ => forall₂_congr fun seq hseq => ?_
  dsimp only
  by_cases hempty : seq.length = 0
  · rw [if_pos hempty]
    exact iff_of_true (avoids_pure _) fun hne => absurd hempty hne
  rw [if_neg hempty, avoids_bind, asn1ReadNext_inside]
  refine Iff.trans ?_ (forall_prop_of_true hempty).symm
  refine and_congr_right fun _ => forall₂_congr fun hdr hhdr => ?_
  rw [avoids_require_bind (by decide)]
  refine forall_congr' fun hcls => ?_
  by_cases htag : hdr.tag = 1
  swap
  · -- an INTEGER in place of cA is inside the SEQUENCE
    rw [if_neg htag, x509ReadPathLenConstraint_inside]
    refine iff_of_true (fun _ => ?_) fun h => absurd h htag
    exact Nat.le_trans (asn1ReadNext_ok.mp hhdr).2 (Nat.mod_le _ _)
  rw [if_pos htag, avoids_require_bind (by decide)]
  refine Iff.trans ?_ (forall_prop_of_true htag).symm
  refine forall_congr' fun hlen => ?_
  by_cases hnext : behindCa seq hdr = []
  · rw [if_pos hnext]
    exact iff_of_true (avoids_pure _) fun hne => absurd hnext hne
  rw [if_neg hnext, avoids_bind, asn1ReadNext_inside_extra (behindCa_extra hseq hnext)]
  refine Iff.trans ?_ (forall_prop_of_true hnext).symm
  refine and_congr_right fun _ => forall₂_congr fun num _ => ?_
  rw [avoids_require_bind (by decide), x509ReadPathLenConstraint_inside]

/-- The INTEGER starts with the last two octets of the extension, and the octet behind them is its value. -/
example : x509ReadExtBasicConstraints {} [0x30, 0x03, 0x01, 0x01, 0xff, 0x02, 0x01] = .error .outside := by
  decide +kernel

theorem x509ReadPathLenConstraint_ends (cert : X509FullCertificate) (hdr : Asn1Hdr) :
    Avoids .running (x509ReadPathLenConstraint cert hdr) := by
  refine avoids_then (avoids_require (by decide)) fun _ => avoids_then ?_ fun _ => avoids_pure _
  unfold asn1ReadContent
  by_cases hcut : hdr.payload.length < hdr.length
  · rw [if_pos hcut]
    exact avoids_error.mpr (by decide)
  · rw [if_neg hcut]
    exact avoids_ok _

theorem x509ReadExtBasicConstraints_ends (cert : X509FullCertificate) (w : Bytes) :
    Avoids .running (x509ReadExtBasicConstraints cert w) := by
  refine avoids_then (asn1ReadUniversal_ends 16 w) fun seq => ?_
  dsimp only
  by_cases hempty : seq.length = 0
  · rw [if_pos hempty]
    exact avoids_pure _
  rw [if_neg hempty]
  refine avoids_then (asn1ReadNext_ends _ 0) fun hdr => avoids_then (avoids_require (by decide)) fun _ => ?_
  by_cases htag : hdr.tag = 1
  swap
  · rw [if_neg htag]
    exact x509ReadPathLenConstraint_ends _ _
  rw [if_pos htag]
  refine avoids_then (avoids_require (by decide)) fun _ => ?_
  by_cases hnext : behindCa seq hdr = []
  · rw [if_pos hnext]
    exact avoids_pure _
  rw [if_neg hnext]
  exact avoids_then (asn1ReadNext_ends _ _) fun _ => avoids_then (avoids_require (by decide)) fun _ =>
    x509ReadPathLenConstraint_ends _ _

theorem x509ReadAltName_inside {name : X509AltNames} {w : Bytes} :
    Avoids .outside (x509ReadAltName name w) ↔ Asn1Starts w := by
  unfold x509ReadAltName
  rw [avoids_bind, asn1ReadNext_inside]
  refine and_iff_left fun hdr _ => ?_
  by_cases hcls : hdr.cls ≠ 2
  · rw [if_pos hcls]
    exact avoids_pure _
  · rw [if_neg hcls]
    exact avoids_then (avoids_ofOption (by decide) _) fun _ => avoids_pure _

theorem x509ReadAltName_ends (name : X509AltNames) (w : Bytes) : Avoids .running (x509ReadAltName name w) := by
  refine avoids_then (asn1ReadNext_ends w 0) fun hdr => ?_
  by_cases hcls : hdr.cls ≠ 2
  · rw [if_pos hcls]
    exact avoids_pure _
  · rw [if_neg hcls]
    exact avoids_then (avoids_ofOption (by decide) _) fun _ => avoids_pure _

theorem x509ReadAltName_shortens : Shortens x509ReadAltName := by
  intro name w name' rest h
  obtain ⟨hdr, hhdr, h⟩ := except_bind_ok h
  by_cases hcls : hdr.cls ≠ 2
  · rw [if_pos hcls] at h
    cases h
    exact asn1ReadNext_shortens hhdr
  · rw [if_neg hcls] at h
    obtain ⟨_, _, h⟩ := except_bind_ok h
    cases h
    exact asn1ReadNext_shortens hhdr

/-- Where one GeneralName follows the other there is the start of an element. -/
def AltNameStarts (name : X509AltNames) (w : Bytes) : Prop :=
  StartsElement 16 w fun seq => ∀ name' rest, Comes x509ReadAltName name seq.content name' rest → rest ≠ [] →
    Asn1Starts rest

theorem x509ReadExtAltName_inside {name : X509AltNames} {w : Bytes} :
    Avoids .outside (x509ReadExtAltName name w) ↔ AltNameStarts name w := by
  unfold x509ReadExtAltName AltNameStarts
  rw [startsElement_iff]
  refine StartsElement.congr fun seq => ?_
  rw [pieces_inside x509ReadAltName_shortens (le_refl _)]
  exact forall₄_congr fun name' rest _ _ => x509ReadAltName_inside

theorem x509ReadExtAltName_ends (name : X509AltNames) (w : Bytes) :
    Avoids .running (x509ReadExtAltName name w) :=
  avoids_then (asn1ReadUniversal_ends 16 w) fun _ =>
    pieces_ends x509ReadAltName_shortens x509ReadAltName_ends (le_refl _)

theorem x509ReadKeyPurpose_inside {usage : Nat} {w : Bytes} :
    Avoids .outside (x509ReadKeyPurpose usage w) ↔ Asn1Starts w := by
  unfold x509ReadKeyPurpose
  rw [avoids_bind, asn1ReadOid_inside]
  exact and_iff_left fun _ _ => avoids_pure _

theorem x509ReadKeyPurpose_ends (usage : Nat) (w : Bytes) : Avoids .running (x509ReadKeyPurpose usage w) :=
  avoids_then (asn1ReadOid_ends w) fun _ => avoids_pure _

theorem x509ReadKeyPurpose_shortens : Shortens x509ReadKeyPurpose := by
  intro usage w usage' rest h
  obtain ⟨oid, hoid, h⟩ := except_bind_ok h
  obtain ⟨hdr, hhdr, hrest⟩ := asn1ReadOid_ok hoid
  cases h
  rw [hrest]
  exact asn1ReadNext_shortens hhdr

def ExtKeyUsageStarts (usage : Nat) (w : Bytes) : Prop :=
  StartsElement 16 w fun seq => ∀ usage' rest, Comes x509ReadKeyPurpose usage seq.content usage' rest →
    rest ≠ [] → Asn1Starts rest

theorem x509ReadExtExtKeyUsage_inside {cert : X509FullCertificate} {w : Bytes} :
    Avoids .outside (x509ReadExtExtKeyUsage cert w) ↔ ExtKeyUsageStarts cert.extKeyUsage w := by
  unfold x509ReadExtExtKeyUsage ExtKeyUsageStarts
  rw [startsElement_iff]
  refine StartsElement.congr fun seq => ?_
  rw [avoids_bind, pieces_inside x509ReadKeyPurpose_shortens (le_refl _), and_iff_left fun _ _ => avoids_pure _]
  exact forall₄_congr fun usage' rest _ _ => x509ReadKeyPurpose_inside

theorem x509ReadExtExtKeyUsage_ends (cert : X509FullCertificate) (w : Bytes) :
    Avoids .running (x509ReadExtExtKeyUsage cert w) :=
  avoids_then (asn1ReadUniversal_ends 16 w) fun _ =>
    avoids_then (pieces_ends x509ReadKeyPurpose_shortens x509ReadKeyPurpose_ends (le_refl _)) fun _ =>
      avoids_pure _

def ExtensionDataInside (cert : X509FullCertificate) (oid : List Nat) (w : Bytes) : Prop :=
  4 ≤ oid.length ∧ oid.take 3 = [2, 5, 29] →
    (oid.getD 3 0 = 15 → Asn1Starts w) ∧ (oid.getD 3 0 = 17 → AltNameStarts cert.subjectAlt w) ∧
    (oid.getD 3 0 = 18 → AltNameStarts cert.issuerAlt w) ∧ (oid.getD 3 0 = 19 → BasicConstraintsInside w) ∧
    (oid.getD 3 0 = 37 → ExtKeyUsageStarts cert.extKeyUsage w)

theorem x509ReadExtensionData_inside {cert : X509FullCertificate} {oid : List Nat} {w : Bytes} :
    Avoids .outside (x509ReadExtensionData cert oid w) ↔ ExtensionDataInside cert oid w := by
  unfold x509ReadExtensionData ExtensionDataInside
  by_cases hce : 4 ≤ oid.length ∧ oid.take 3 = [2, 5, 29]
  swap
  · rw [if_pos hce]
    exact iff_of_true (avoids_ok _) fun h => absurd h hce
  rw [if_neg (not_not.mpr hce)]
  refine Iff.trans ?_ (forall_prop_of_true hce).symm
  dsimp only
  generalize oid.getD 3 0 = ext
  by_cases h15 : ext = 15
  · subst h15
    simp [x509ReadExtKeyUsage_inside]
  by_cases h17 : ext = 17
  · subst h17
    simp [x509ReadExtAltName_inside]
  by_cases h18 : ext = 18
  · subst h18
    simp [x509ReadExtAltName_inside]
  by_cases h19 : ext = 19
  · subst h19
    simp [x509ReadExtBasicConstraints_inside]
  by_cases h37 : ext = 37
  · subst h37
    simp [x509ReadExtExtKeyUsage_inside]
  simp [h15, h17, h18, h19, h37]

theorem x509ReadExtensionData_ends (cert : X509FullCertificate) (oid : List Nat) (w : Bytes) :
    Avoids .running (x509ReadExtensionData cert oid w) := by
  unfold x509ReadExtensionData
  by_cases hce : 4 ≤ oid.length ∧ oid.take 3 = [2, 5, 29]
  swap
  · rw [if_pos hce]
    exact avoids_ok _
  rw [if_neg (not_not.mpr hce)]
  dsimp only
  generalize oid.getD 3 0 = ext
  by_cases h15 : ext = 15
  · simp [h15, x509ReadExtKeyUsage_ends]
  by_cases h17 : ext = 17
  · simp [h17, x509ReadExtAltName_ends]
  by_cases h18 : ext = 18
  · simp [h18, x509ReadExtAltName_ends]
  by_cases h19 : ext = 19
  · simp [h19, x509ReadExtBasicConstraints_ends]
  by_cases h37 : ext = 37
  · simp [h37, x509ReadExtExtKeyUsage_ends]
  simp [h15, h17, h18, h19, h37]

/-- After a BOOLEAN there is the start of an element at its value, which is one octet. -/
def ExtensionValueStarts (w : Bytes) : Prop :=
  Asn1Starts w ∧ ∀ hdr, asn1ReadNext w 0 = .ok hdr → hdr.cls = 0 → hdr.tag = 1 → hdr.length = 1 →
    Asn1Starts hdr.payload

theorem x509ReadExtensionValue_inside {w : Bytes} :
    Avoids .outside (x509ReadExtensionValue w) ↔ ExtensionValueStarts w := by
  unfold x509ReadExtensionValue ExtensionValueStarts
  rw [avoids_bind, asn1ReadNext_inside]
  refine and_congr_right fun _ => forall₂_congr fun hdr _ => ?_
  rw [avoids_require_bind (by decide)]
  by_cases htag : hdr.tag = 1
  · rw [if_pos htag, avoids_require_bind (by decide), avoids_bind, asn1ReadNext_inside]
    refine ⟨fun h hcls _ hlen => (h ⟨hcls, Or.inl htag⟩ hlen).1, fun h hcls hlen => ⟨h hcls.1 htag hlen, ?_⟩⟩
    exact fun _ _ => (avoids_require_bind (by decide)).mpr fun _ => avoids_pure _
  · rw [if_neg htag]
    exact iff_of_true (fun _ => avoids_pure _) fun _ h => absurd h htag

theorem x509ReadExtensionValue_ends (w : Bytes) : Avoids .running (x509ReadExtensionValue w) := by
  refine avoids_then (asn1ReadNext_ends w 0) fun hdr => avoids_then (avoids_require (by decide)) fun _ => ?_
  by_cases htag : hdr.tag = 1
  · rw [if_pos htag]
    refine avoids_then (avoids_require (by decide)) fun _ => avoids_then (asn1ReadNext_ends _ 0) fun _ => ?_
    exact avoids_then (avoids_require (by decide)) fun _ => avoids_pure _
  · rw [if_neg htag]
    exact avoids_pure _

def ExtensionInside (cert : X509FullCertificate) (w : Bytes) : Prop :=
  StartsElement 16 w fun ext => Asn1Starts ext.content ∧ ∀ oid, asn1ReadOid ext.content = .ok oid →
    ExtensionValueStarts oid.2 ∧ ∀ value, x509ReadExtensionValue oid.2 = .ok value →
      ExtensionDataInside cert oid.1 value.1.content

theorem x509ReadExtension_inside {cert : X509FullCertificate} {w : Bytes} :
    Avoids .outside (x509ReadExtension cert w) ↔ ExtensionInside cert w := by
  unfold x509ReadExtension ExtensionInside
  rw [startsElement_iff]
  refine StartsElement.congr fun ext => ?_
  rw [avoids_bind, asn1ReadOid_inside]
  refine and_congr_right fun _ => forall₂_congr fun oid _ => ?_
  rw [avoids_bind, x509ReadExtensionValue_inside]
  refine and_congr_right fun _ => forall₂_congr fun value _ => ?_
  rw [avoids_bind, x509ReadExtensionData_inside]
  exact and_iff_left fun _ _ => (avoids_require_bind (by decide)).mpr fun _ => avoids_pure _

theorem x509ReadExtension_ends (cert : X509FullCertificate) (w : Bytes) :
    Avoids .running (x509ReadExtension cert w) := by
  refine avoids_then (asn1ReadUniversal_ends 16 w) fun ext => avoids_then (asn1ReadOid_ends _) fun oid => ?_
  refine avoids_then (x509ReadExtensionValue_ends _) fun value => ?_
  exact avoids_then (x509ReadExtensionData_ends cert _ _) fun _ =>
    avoids_then (avoids_require (by decide)) fun _ => avoids_pure _

theorem x509ReadExtension_shortens : Shortens x509ReadExtension := by
  intro cert w cert' rest h
  obtain ⟨ext, hext, h⟩ := except_bind_ok h
  obtain ⟨_, _, h⟩ := except_bind_ok h
  obtain ⟨_, _, h⟩ := except_bind_ok h
  obtain ⟨_, _, h⟩ := except_bind_ok h
  obtain ⟨_, _, h⟩ := except_bind_ok h
  cases h
  exact asn1ReadNext_shortens (asn1ReadUniversal_ok.mp hext).1

def ExtensionsInside (cert : X509FullCertificate) (w : Bytes) : Prop :=
  StartsElement 16 w fun seq => ∀ cert' rest, Comes x509ReadExtension cert seq.content cert' rest → rest ≠ [] →
    ExtensionInside cert' rest

theorem x509ReadExtensions_inside {cert : X509FullCertificate} {w : Bytes} :
    Avoids .outside (x509ReadExtensions cert w) ↔ ExtensionsInside cert w := by
  unfold x509ReadExtensions ExtensionsInside
  rw [startsElement_iff]
  refine StartsElement.congr fun seq => ?_
  rw [pieces_inside x509ReadExtension_shortens (le_refl _)]
  exact forall₄_congr fun cert' rest _ _ => x509ReadExtension_inside

theorem x509ReadExtensions_ends (cert : X509FullCertificate) (w : Bytes) :
    Avoids .running (x509ReadExtensions cert w) :=
  avoids_then (asn1ReadUniversal_ends 16 w) fun _ =>
    pieces_ends x509ReadExtension_shortens x509ReadExtension_ends (le_refl _)

/-! ## The certificate -/

/-- After an element of the context-specific class, the number and, behind it, the serial number. -/
def VersionStarts (w : Bytes) : Prop :=
  Asn1Starts w ∧ ∀ hdr, asn1ReadNext w 0 = .ok hdr → hdr.cls = 2 →
    StartsElement 2 hdr.payload fun num => num.length = 1 →
      ∀ version, x509VersionOf (num.payload.headD 0) = some version → Asn1Starts num.next

theorem x509ReadVersion_inside {w : Bytes} : Avoids .outside (x509ReadVersion w) ↔ VersionStarts w := by
  unfold x509ReadVersion VersionStarts
  rw [avoids_bind, asn1ReadNext_inside]
  refine and_congr_right fun _ => forall₂_congr fun hdr _ => ?_
  by_cases hcls : hdr.cls = 2
  swap
  · rw [if_neg hcls]
    exact iff_of_true (avoids_pure _) fun h => absurd h hcls
  rw [if_pos hcls, startsElement_iff]
  refine Iff.trans ?_ (forall_prop_of_true hcls).symm
  refine StartsElement.congr fun num => ?_
  rw [avoids_require_bind (by decide)]
  refine forall_congr' fun _ => ?_
  rw [avoids_bind, and_iff_right (avoids_ofOption (by decide) _)]
  refine forall_congr' fun version => imp_congr ofOption_ok ?_
  rw [avoids_bind, asn1ReadNext_inside]
  exact and_iff_left fun _ _ => avoids_pure _

theorem x509ReadVersion_ends (w : Bytes) : Avoids .running (x509ReadVersion w) := by
  refine avoids_then (asn1ReadNext_ends w 0) fun hdr => ?_
  by_cases hcls : hdr.cls = 2
  · rw [if_pos hcls]
    refine avoids_then (asn1ReadUniversal_ends 2 _) fun num => ?_
    refine avoids_then (avoids_require (by decide)) fun _ => ?_
    exact avoids_then (avoids_ofOption (by decide) _) fun _ =>
      avoids_then (asn1ReadNext_ends _ 0) fun _ => avoids_pure _
  · rw [if_neg hcls]
    exact avoids_pure _

section Certificate

variable (mktime : CalendarTime → Int)

def SerialFits (serial : Asn1Hdr) : Prop :=
  serial.cls = 0 ∧ serial.tag = 2 ∧ 1 ≤ serial.length ∧ serial.length ≤ 20

def TbsFieldsStart (w : Bytes) : Prop :=
  VersionStarts w ∧ ∀ first, x509ReadVersion w = .ok first → SerialFits first.2 →
    AlgorithmIdentifierStarts first.2.next ∧
    ∀ signature, x509ReadAlgorithmIdentifier first.2.next = .ok signature → NameStarts signature.2 ∧
    ∀ issuer, x509ReadName signature.2 = .ok issuer → ValidityStarts mktime issuer.2 ∧
    ∀ validity, x509ReadValidity mktime issuer.2 = .ok validity → NameStarts validity.2.2 ∧
    ∀ subject, x509ReadName validity.2.2 = .ok subject → PublicKeyStarts subject.2

theorem x509ReadTbsFields_inside {w : Bytes} :
    Avoids .outside (x509ReadTbsFields mktime w) ↔ TbsFieldsStart mktime w := by
  unfold x509ReadTbsFields TbsFieldsStart
  rw [avoids_bind, x509ReadVersion_inside]
  refine and_congr_right fun _ => forall₂_congr fun first _ => ?_
  dsimp only
  rw [avoids_require_bind (by decide)]
  refine forall_congr' fun _ => ?_
  rw [avoids_bind, x509ReadAlgorithmIdentifier_inside]
  refine and_congr_right fun _ => forall₂_congr fun signature _ => ?_
  rw [avoids_bind, x509ReadName_inside]
  refine and_congr_right fun _ => forall₂_congr fun issuer _ => ?_
  rw [avoids_bind, x509ReadValidity_inside]
  refine and_congr_right fun _ => forall₂_congr fun validity _ => ?_
  rw [avoids_bind, x509ReadName_inside]
  refine and_congr_right fun _ => forall₂_congr fun subject _ => ?_
  rw [avoids_bind, x509ReadPublicKey_inside]
  exact and_iff_left fun _ _ => avoids_pure _

theorem x509ReadTbsFields_ends (w : Bytes) : Avoids .running (x509ReadTbsFields mktime w) := by
  refine avoids_then (x509ReadVersion_ends w) fun first => avoids_then (avoids_require (by decide)) fun _ => ?_
  refine avoids_then (x509ReadAlgorithmIdentifier_ends _) fun signature => ?_
  refine avoids_then (x509ReadName_ends _) fun issuer => ?_
  refine avoids_then (x509ReadValidity_ends mktime _) fun validity => ?_
  refine avoids_then (x509ReadName_ends _) fun subject => ?_
  exact avoids_then (x509ReadPublicKey_ends _) fun _ => avoids_pure _

/-- After a unique identifier that is not the last element there is the start of one. -/
def UniqueIdStarts (tag : Nat) (hdr : Asn1Hdr) : Prop := hdr.tag = tag → hdr.next ≠ [] → Asn1Starts hdr.next

theorem x509SkipUniqueId_inside {tag : Nat} {hdr : Asn1Hdr} :
    Avoids .outside (x509SkipUniqueId tag hdr) ↔ UniqueIdStarts tag hdr := by
  unfold x509SkipUniqueId UniqueIdStarts
  by_cases htag : hdr.tag = tag
  swap
  · rw [if_pos htag]
    exact iff_of_true (avoids_ok _) fun h => absurd h htag
  rw [if_neg (not_not.mpr htag)]
  refine Iff.trans ?_ (forall_prop_of_true htag).symm
  by_cases hnext : hdr.next = []
  · rw [if_pos hnext]
    exact iff_of_true (avoids_ok _) fun h => absurd hnext h
  rw [if_neg hnext, avoids_bind, asn1ReadNext_inside]
  refine Iff.trans ?_ (forall_prop_of_true hnext).symm
  exact and_iff_left fun _ _ => (avoids_require_bind (by decide)).mpr fun _ => avoids_pure _

theorem x509SkipUniqueId_ends (tag : Nat) (hdr : Asn1Hdr) : Avoids .running (x509SkipUniqueId tag hdr) := by
  unfold x509SkipUniqueId
  by_cases htag : hdr.tag = tag
  swap
  · rw [if_pos htag]
    exact avoids_ok _
  rw [if_neg (not_not.mpr htag)]
  by_cases hnext : hdr.next = []
  · rw [if_pos hnext]
    exact avoids_ok _
  rw [if_neg hnext]
  exact avoids_then (asn1ReadNext_ends _ 0) fun _ =>
    avoids_then (avoids_require (by decide)) fun _ => avoids_pure _

def TbsExtensionsInside (cert : X509FullCertificate) (hdr : Asn1Hdr) : Prop :=
  hdr.tag = 3 → cert.version = .v3 → ExtensionsInside cert hdr.content

theorem x509ReadTbsExtensions_inside {cert : X509FullCertificate} {hdr : Asn1Hdr} :
    Avoids .outside (x509ReadTbsExtensions cert hdr) ↔ TbsExtensionsInside cert hdr := by
  unfold x509ReadTbsExtensions TbsExtensionsInside
  by_cases htag : hdr.tag = 3
  swap
  · rw [if_pos htag]
    exact iff_of_true (avoids_ok _) fun h => absurd h htag
  rw [if_neg (not_not.mpr htag), avoids_require_bind (by decide), x509ReadExtensions_inside]
  exact ⟨fun h _ => h, fun h => h htag⟩

theorem x509ReadTbsExtensions_ends (cert : X509FullCertificate) (hdr : Asn1Hdr) :
    Avoids .running (x509ReadTbsExtensions cert hdr) := by
  unfold x509ReadTbsExtensions
  by_cases htag : hdr.tag = 3
  swap
  · rw [if_pos htag]
    exact avoids_ok _
  rw [if_neg (not_not.mpr htag)]
  exact avoids_then (avoids_require (by decide)) fun _ => x509ReadExtensions_ends cert _

def TbsOptionalInside (cert : X509FullCertificate) (w : Bytes) : Prop :=
  w ≠ [] → cert.version ≠ .v1 → Asn1Starts w ∧ ∀ hdr, asn1ReadNext w 0 = .ok hdr → hdr.cls = 2 →
    UniqueIdStarts 1 hdr ∧ ∀ second, x509SkipUniqueId 1 hdr = .ok (some second) →
      UniqueIdStarts 2 second ∧ ∀ third, x509SkipUniqueId 2 second = .ok (some third) →
        TbsExtensionsInside cert third

theorem x509ReadTbsOptional_inside {cert : X509FullCertificate} {w : Bytes} :
    Avoids .outside (x509ReadTbsOptional cert w) ↔ TbsOptionalInside cert w := by
  unfold x509ReadTbsOptional TbsOptionalInside
  by_cases hnone : w = [] ∨ cert.version = .v1
  · rw [if_pos hnone]
    refine iff_of_true (avoids_ok _) fun hw hversion => ?_
    exact absurd hnone (not_or.mpr ⟨hw, hversion⟩)
  rw [if_neg hnone, avoids_bind, asn1ReadNext_inside]
  obtain ⟨hw, hversion⟩ := not_or.mp hnone
  refine Iff.trans ?_ ((forall_prop_of_true hw).trans (forall_prop_of_true hversion)).symm
  refine and_congr_right fun _ => forall₂_congr fun hdr _ => ?_
  rw [avoids_require_bind (by decide)]
  refine forall_congr' fun _ => ?_
  rw [avoids_bind, x509SkipUniqueId_inside]
  refine and_congr_right fun _ => ⟨fun h second hsecond => ?_, fun h o ho => ?_⟩
  · have hrest := h (some second) hsecond
    rw [avoids_bind, x509SkipUniqueId_inside] at hrest
    exact ⟨hrest.1, fun third hthird => x509ReadTbsExtensions_inside.mp (hrest.2 (some third) hthird)⟩
  · cases o with
    | none => exact avoids_pure _
    | some second =>
      refine avoids_bind.mpr ⟨x509SkipUniqueId_inside.mpr (h second ho).1, fun o ho' => ?_⟩
      cases o with
      | none => exact avoids_pure _
      | some third => exact x509ReadTbsExtensions_inside.mpr ((h second ho).2 third ho')

theorem x509ReadTbsOptional_ends (cert : X509FullCertificate) (w : Bytes) :
    Avoids .running (x509ReadTbsOptional cert w) := by
  unfold x509ReadTbsOptional
  by_cases hnone : w = [] ∨ cert.version = .v1
  · rw [if_pos hnone]
    exact avoids_ok _
  rw [if_neg hnone]
  refine avoids_then (asn1ReadNext_ends w 0) fun hdr => avoids_then (avoids_require (by decide)) fun _ => ?_
  refine avoids_then (x509SkipUniqueId_ends 1 hdr) fun second => ?_
  cases second with
  | none => exact avoids_pure _
  | some second =>
    refine avoids_then (x509SkipUniqueId_ends 2 second) fun third => ?_
    cases third with
    | none => exact avoids_pure _
    | some third => exact x509ReadTbsExtensions_ends cert third

def TbsCertificateInside (w : Bytes) : Prop :=
  StartsElement 16 w fun tbs => TbsFieldsStart mktime tbs.content ∧
    ∀ fields, x509ReadTbsFields mktime tbs.content = .ok fields → TbsOptionalInside fields.1 fields.2

theorem x509ReadTbsCertificate_inside {w : Bytes} :
    Avoids .outside (x509ReadTbsCertificate mktime w) ↔ TbsCertificateInside mktime w := by
  unfold x509ReadTbsCertificate TbsCertificateInside
  rw [startsElement_iff]
  refine StartsElement.congr fun tbs => ?_
  rw [avoids_bind, x509ReadTbsFields_inside]
  refine and_congr_right fun _ => forall₂_congr fun fields _ => ?_
  rw [avoids_bind, x509ReadTbsOptional_inside]
  exact and_iff_left fun _ _ => avoids_pure _

theorem x509ReadTbsCertificate_ends (w : Bytes) : Avoids .running (x509ReadTbsCertificate mktime w) :=
  avoids_then (asn1ReadUniversal_ends 16 w) fun _ => avoids_then (x509ReadTbsFields_ends mktime _) fun _ =>
    avoids_then (x509ReadTbsOptional_ends _ _) fun _ => avoids_pure _

/-- Wherever an element of a certificate is looked for there is the start of one. -/
def CertificateInside (buf : Bytes) : Prop :=
  StartsElement 16 buf fun hdr => TbsCertificateInside mktime hdr.content ∧
    ∀ tbs, x509ReadTbsCertificate mktime hdr.content = .ok tbs → AlgorithmIdentifierStarts tbs.2 ∧
      ∀ alg, x509ReadAlgorithmIdentifier tbs.2 = .ok alg → Asn1Starts alg.2

theorem x509CertificateParse_inside {buf : Bytes} :
    Avoids .outside (x509CertificateParse mktime buf) ↔ CertificateInside mktime buf := by
  unfold x509CertificateParse CertificateInside
  rw [startsElement_iff]
  refine StartsElement.congr fun hdr => ?_
  dsimp only
  rw [avoids_bind, x509ReadTbsCertificate_inside]
  refine and_congr_right fun _ => forall₂_congr fun tbs _ => ?_
  rw [avoids_bind, x509ReadAlgorithmIdentifier_inside]
  refine and_congr_right fun _ => forall₂_congr fun alg _ => ?_
  rw [avoids_bind, asn1ReadUniversal_inside]
  exact and_iff_left fun _ _ => (avoids_require_bind (by decide)).mpr fun _ =>
    (avoids_require_bind (by decide)).mpr fun _ => avoids_pure _

theorem x509CertificateParse_ends (buf : Bytes) : Avoids .running (x509CertificateParse mktime buf) := by
  refine avoids_then (asn1ReadUniversal_ends 16 buf) fun hdr => ?_
  refine avoids_then (x509ReadTbsCertificate_ends mktime _) fun tbs => ?_
  refine avoids_then (x509ReadAlgorithmIdentifier_ends _) fun alg => ?_
  exact avoids_then (asn1ReadUniversal_ends 3 _) fun _ => avoids_then (avoids_require (by decide)) fun _ =>
    avoids_then (avoids_require (by decide)) fun _ => avoids_pure _

end Certificate

end Hostap
