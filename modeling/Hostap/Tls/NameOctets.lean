import Hostap.Tls.Asn1Read
import Hostap.Tls.SignatureFormat

/-!
# What is read of a Name

`NameOctets` is a Name in distinguished encoding: a sequence of sets of attributes. `x509_parse_name()` looks at
the first attribute of each set. It keeps those of seven types (`kept`), and the last one of those that are
e-mail addresses (`lastEmail`), up to a zero: `x509ReadName_name`. The numbers of the types have to fit into a
`long`.
-/

namespace Hostap

open Octets Der Bounded List

/-! ## Names -/

/-- An AttributeTypeAndValue. The value is of any type. -/
structure NameAttribute where
  oid : List Nat
  identifier : Bytes
  value : Bytes

inductive AttributeOctets (a : NameAttribute) : Bytes → Prop
  | mk {type value w : Bytes} (htype : Element 0x06 (Der.oid a.oid) type) (hid : Identifier a.identifier)
      (hvalue : Tlv a.identifier a.value value) (hw : Element 0x30 (type ++ value) w) : AttributeOctets a w

/-- A RelativeDistinguishedName. -/
inductive RdnOctets (rdn : List NameAttribute) : Bytes → Prop
  | mk {content w : Bytes} (hcontent : Concat AttributeOctets rdn content) (hw : Element 0x31 content w) :
      RdnOctets rdn w

inductive NameOctets (rdns : List (List NameAttribute)) : Bytes → Prop
  | mk {content w : Bytes} (hcontent : Concat RdnOctets rdns content) (hw : Element 0x30 content w) :
      NameOctets rdns w

/-- The types that are kept: commonName, countryName, localityName, stateOrProvinceName, organizationName,
organizationalUnitName and domainComponent. -/
def keptOids : List (List Nat) :=
  [[2, 5, 4, 3], [2, 5, 4, 6], [2, 5, 4, 7], [2, 5, 4, 8], [2, 5, 4, 10], [2, 5, 4, 11],
    [0, 9, 2342, 19200300, 100, 1, 25]]

/-- `emailAddress`. -/
def emailOid : List Nat := [1, 2, 840, 113549, 1, 9, 1]

def firsts (rdns : List (List NameAttribute)) : List NameAttribute := rdns.filterMap List.head?

def kept (rdns : List (List NameAttribute)) : List NameAttribute :=
  (firsts rdns).filter fun a => a.oid ∈ keptOids

def lastEmail (rdns : List (List NameAttribute)) : Option Bytes :=
  ((firsts rdns).filter fun a => a.oid = emailOid).getLast?.map NameAttribute.value

/-- The numbers of an object identifier that is well formed fit into a `long`. -/
def OidNumbers : List Nat → Prop
  | a :: b :: rest => a ≤ 2 ∧ (a < 2 → b < 40) ∧ a * 40 + b < 2 ^ 64 ∧ ∀ v ∈ rest, v < 2 ^ 64
  | _ => False

instance : DecidablePred OidNumbers
  | a :: b :: rest =>
    inferInstanceAs (Decidable (a ≤ 2 ∧ (a < 2 → b < 40) ∧ a * 40 + b < 2 ^ 64 ∧ ∀ v ∈ rest, v < 2 ^ 64))
  | [] => isFalse id
  | [_] => isFalse id

/-! ## Elements -/

section Elements

variable {identifier content w r : Bytes} {hdr : Asn1Hdr}

theorem asn1ExtendedTag_octets {more : Bytes} {last : UInt8} (hmore : ∀ d ∈ more, d &&& 0x80 ≠ 0)
    (hlast : last &&& 0x80 = 0) (tag : Nat) (s : Bytes) :
    ∃ t, asn1ExtendedTag tag (more ++ last :: s) = some (t, s) := by
  induction more generalizing tag with
  | nil => exact ⟨(tag * 128 + last.toNat % 128) % 2 ^ 32, if_neg (not_not.mpr hlast)⟩
  | cons d more ih =>
    have hrest : ∀ e ∈ more, e &&& 0x80 ≠ 0 := fun e he => hmore e (mem_cons_of_mem _ he)
    obtain ⟨t, ht⟩ := ih hrest ((tag * 128 + d.toNat % 128) % 2 ^ 32)
    exact ⟨t, (if_pos (hmore d mem_cons_self)).trans ht⟩

theorem asn1Identifier_octets (hid : Identifier identifier) (s : Bytes) :
    ∃ cls tag, asn1Identifier (identifier ++ s) = some (cls, tag, s) := by
  cases hid with
  | low hc =>
    rename_i c
    exact ⟨c.toNat / 64, c.toNat % 32, if_neg hc⟩
  | high hc hmore hlast =>
    rename_i c last more
    obtain ⟨t, ht⟩ := asn1ExtendedTag_octets hmore hlast 0 s
    refine ⟨c.toNat / 64, t, ?_⟩
    rw [cons_append, append_assoc, singleton_append, asn1Identifier, if_pos hc, ht]
    rfl

theorem asn1ReadNext_tlv (hid : Identifier identifier) (hw : Tlv identifier content w)
    (hread : asn1ReadNext (w ++ r) 0 = .ok hdr) : hdr.content = content ∧ hdr.next = r := by
  cases hw with
  | mk hlen =>
    rename_i length
    have hhdr := (asn1ReadNext_ok.mp hread).1
    have hsplit : identifier ++ length ++ content ++ r = identifier ++ (length ++ (content ++ r)) := by simp
    obtain ⟨cls, tag, hidentifier⟩ := asn1Identifier_octets hid (length ++ (content ++ r))
    unfold asn1Header at hhdr
    rw [hsplit, hidentifier] at hhdr
    dsimp only at hhdr
    rcases asn1Length_of_lengthOctets hlen with hlength | ⟨-, hnone⟩
    · rw [hlength] at hhdr
      simp only [Option.map_some, Option.some.injEq, Prod.mk.injEq] at hhdr
      obtain ⟨⟨-, -, hn⟩, hpayload⟩ := hhdr
      unfold Asn1Hdr.content Asn1Hdr.next
      rw [← hn, ← hpayload]
      exact ⟨take_left, drop_left⟩
    · rw [hnone] at hhdr
      cases hhdr

theorem asn1ReadNext_element_content {c : UInt8} (hc : c &&& 0x1f ≠ 0x1f) (hw : Element c content w)
    (hread : asn1ReadNext (w ++ r) 0 = .ok hdr) : hdr.content = content ∧ hdr.next = r :=
  asn1ReadNext_tlv (.low hc) hw.tlv hread

end Elements

/-! ## Object identifiers -/

theorem asn1OidValues_numbers (values : List Nat) {n : Nat} {oid oid' : List Nat} (hoid : oid ≠ [])
    (hvalues : ∀ v ∈ values, v < 2 ^ 64) (hread : asn1OidValues n oid (values.flatMap oidValue) = some oid') :
    oid' = oid ++ values := by
  induction values generalizing n oid with
  | nil =>
    rw [append_nil]
    cases n <;> cases hread <;> rfl
  | cons v values ih =>
    have hvalue := asn1OidValue_oidValue (hvalues v mem_cons_self) (values.flatMap oidValue)
    rw [flatMap_cons] at hread
    cases hocts : oidValue v ++ values.flatMap oidValue with
    | nil => exact absurd (append_eq_nil_iff.mp hocts).1 (oidValue_ne_nil v)
    | cons c octets =>
      rw [hocts] at hvalue hread
      cases n with
      | zero => cases hread
      | succ n =>
        cases oid with
        | nil => exact absurd rfl hoid
        | cons a oid =>
          rw [asn1OidValues, hvalue] at hread
          dsimp only at hread
          split_ifs at hread
          have hrest := ih (by simp) (fun w hw => hvalues w (mem_cons_of_mem _ hw)) hread
          rw [hrest, append_assoc, singleton_append]

theorem asn1ParseOid_numbers {oid oid' : List Nat} (hfits : OidNumbers oid)
    (hread : asn1ParseOid (Der.oid oid) = some oid') : oid' = oid := by
  match oid, hfits with
  | a :: b :: rest, ⟨ha, hb, hval, hrest⟩ =>
    have hvalue := asn1OidValue_oidValue hval (rest.flatMap oidValue)
    have hfirst : min ((a * 40 + b) / 40) 2 = a := by
      cases Nat.lt_or_ge a 2 with
      | inl hlt =>
        have hsmall := hb hlt
        omega
      | inr hge => omega
    have hread : asn1ParseOid (oidValue (a * 40 + b) ++ rest.flatMap oidValue) = some oid' := hread
    cases hocts : oidValue (a * 40 + b) ++ rest.flatMap oidValue with
    | nil => exact absurd (append_eq_nil_iff.mp hocts).1 (oidValue_ne_nil _)
    | cons c octets =>
      rw [hocts] at hvalue hread
      unfold asn1ParseOid at hread
      rw [length_cons, asn1OidValues, hvalue] at hread
      dsimp only at hread
      rw [if_neg (by decide), hfirst, show a * 40 + b - a * 40 = b by omega] at hread
      exact asn1OidValues_numbers rest (by simp) hrest hread

/-! ## The name that is read -/

section Names

variable {rdn : List NameAttribute} {rdns : List (List NameAttribute)} {w r r' : Bytes} {name name' : X509Name}

theorem x509ReadRdn_first (hw : RdnOctets rdn w) (hfits : ∀ a ∈ rdn.head?, OidNumbers a.oid)
    (hread : x509ReadRdn name (w ++ r) = .ok (name', r')) :
    r' = r ∧ ∃ a ∈ rdn.head?, x509AddAttr name a.oid a.value = some name' := by
  cases hw with
  | mk hcontent hset =>
    obtain ⟨set, hreadSet, hread⟩ := except_bind_ok hread
    obtain ⟨hset, hnext⟩ := asn1ReadNext_element_content (by decide) hset (asn1ReadUniversal_ok.mp hreadSet).1
    obtain ⟨seq, hreadSeq, hread⟩ := except_bind_ok hread
    obtain ⟨⟨type, behind⟩, hreadOid, hread⟩ := except_bind_ok hread
    obtain ⟨value, hreadValue, hread⟩ := except_bind_ok hread
    obtain ⟨_, -, hread⟩ := except_bind_ok hread
    obtain ⟨added, hadd, hread⟩ := except_bind_ok hread
    cases hread
    have hnextSeq := (asn1ReadUniversal_ok.mp hreadSeq).1
    rw [hset] at hnextSeq
    cases hcontent with
    | nil => cases hnextSeq
    | @cons a as first others ha has =>
      refine ⟨hnext, a, rfl, ?_⟩
      cases ha with
      | @mk type octets _ htype hid hvalue hw =>
        obtain ⟨hseq, -⟩ := asn1ReadNext_element_content (by decide) hw hnextSeq
        rw [hseq] at hreadOid
        obtain ⟨hdr, hnextOid, hrest⟩ := except_bind_ok hreadOid
        obtain ⟨_, -, hrest⟩ := except_bind_ok hrest
        obtain ⟨_, -, hrest⟩ := except_bind_ok hrest
        obtain ⟨oid, hoid, hrest⟩ := except_bind_ok hrest
        cases hrest
        obtain ⟨hoidContent, hoidNext⟩ := asn1ReadNext_element_content (by decide) htype hnextOid
        rw [hoidContent] at hoid
        obtain rfl := asn1ParseOid_numbers (hfits a rfl) (ofOption_ok.mp hoid)
        dsimp only at hreadValue hadd
        rw [hoidNext, ← append_nil octets] at hreadValue
        obtain ⟨hvalueContent, -⟩ := asn1ReadNext_tlv hid hvalue hreadValue
        rw [hvalueContent] at hadd
        exact ofOption_ok.mp hadd

def addAttrs (name : X509Name) (as : List NameAttribute) : Option X509Name :=
  as.foldlM (fun name a => x509AddAttr name a.oid a.value) name

theorem x509ReadRdns_firsts (hw : Concat RdnOctets rdns w)
    (hfits : ∀ a ∈ firsts rdns, OidNumbers a.oid) {n : Nat}
    (hread : pieces x509ReadRdn n name w = .ok name') : addAttrs name (firsts rdns) = some name' := by
  induction hw generalizing n name with
  | nil =>
    rw [pieces] at hread
    cases hread
    rfl
  | @cons rdn rdns w ws hrdn hrdns ih =>
    have hne : w ++ ws ≠ [] := by
      cases hrdn with
      | mk _ hset =>
        cases hset with
        | mk hheader =>
          cases hheader
          exact cons_ne_nil _ _
    cases hocts : w ++ ws with
    | nil => exact absurd hocts hne
    | cons c octets =>
      rw [hocts] at hread
      cases n with
      | zero => cases hread
      | succ n =>
        obtain ⟨⟨added, rest⟩, hfirst, hread⟩ := except_bind_ok hread
        rw [← hocts] at hfirst
        have hhead : ∀ a ∈ rdn.head?, OidNumbers a.oid := fun a ha =>
          hfits a (mem_filterMap.mpr ⟨rdn, mem_cons_self, ha⟩)
        obtain ⟨rfl, a, ha, hadd⟩ := x509ReadRdn_first hrdn hhead hfirst
        have hfirsts : firsts (rdn :: rdns) = a :: firsts rdns := filterMap_cons_some ha
        rw [hfirsts] at hfits ⊢
        have hrest := ih (fun b hb => hfits b (mem_cons_of_mem _ hb)) hread
        unfold addAttrs
        rw [foldlM_cons, hadd]
        exact hrest

theorem x509NameAttrType_kept (oid : List Nat) : x509NameAttrType oid ≠ .notUsed ↔ oid ∈ keptOids := by
  unfold x509NameAttrType keptOids
  split_ifs with h₁ h₂ h₃ h₄ h₅ h₆ h₇ <;> simp [*]

theorem x509NameAttrType_injective {oid oid' : List Nat} (hoid : oid ∈ keptOids) (hoid' : oid' ∈ keptOids)
    (heq : x509NameAttrType oid = x509NameAttrType oid') : oid = oid' := by
  revert heq
  revert oid'
  revert oid
  decide

def entry (a : NameAttribute) : X509NameAttrType × Bytes := (x509NameAttrType a.oid, a.value)

def cut (value : Bytes) : Bytes := value.takeWhile (· ≠ 0)

theorem addAttrs_eq {as : List NameAttribute} (hadd : addAttrs name as = some name') :
    name'.attr = name.attr ++ (as.filter fun a => a.oid ∈ keptOids).map entry ∧
      name'.email = (((as.filter fun a => a.oid = emailOid).getLast?.map NameAttribute.value).map cut).or
        name.email := by
  induction as generalizing name with
  | nil =>
    cases hadd
    exact ⟨(append_nil _).symm, rfl⟩
  | cons a as ih =>
    unfold addAttrs at hadd
    rw [foldlM_cons] at hadd
    obtain ⟨added, hfirst, hrest⟩ := Option.bind_eq_some_iff.mp hadd
    obtain ⟨hattr, hemail⟩ := ih hrest
    unfold x509AddAttr at hfirst
    by_cases hmail : a.oid = emailOid
    · rw [if_pos (show a.oid = [1, 2, 840, 113549, 1, 9, 1] from hmail)] at hfirst
      cases hfirst
      have hnot : a.oid ∉ keptOids := by
        rw [hmail]
        decide
      refine ⟨?_, ?_⟩
      · rw [filter_cons_of_neg (by simpa using hnot)]
        exact hattr
      · rw [filter_cons_of_pos (by simpa using hmail), hemail, getLast?_cons]
        cases (as.filter fun a => a.oid = emailOid).getLast? <;> rfl
    · rw [if_neg (show ¬ a.oid = [1, 2, 840, 113549, 1, 9, 1] from hmail)] at hfirst
      have hmails : ((a :: as).filter fun a => a.oid = emailOid) = as.filter fun a => a.oid = emailOid :=
        filter_cons_of_neg (by simpa using hmail)
      rw [hmails]
      by_cases hused : x509NameAttrType a.oid = .notUsed
      · rw [if_pos hused] at hfirst
        cases hfirst
        have hnot : a.oid ∉ keptOids := fun hmem => (x509NameAttrType_kept a.oid).mpr hmem hused
        rw [filter_cons_of_neg (by simpa using hnot)]
        exact ⟨hattr, hemail⟩
      · rw [if_neg hused] at hfirst
        have hmem : a.oid ∈ keptOids := (x509NameAttrType_kept a.oid).mp hused
        split_ifs at hfirst
        cases hfirst
        refine ⟨?_, hemail⟩
        rw [filter_cons_of_pos (by simpa using hmem), hattr, append_assoc]
        rfl

theorem x509ReadName_name (hw : NameOctets rdns w) (hfits : ∀ a ∈ firsts rdns, OidNumbers a.oid)
    (hread : x509ReadName (w ++ r) = .ok (name, r')) :
    name.attr = (kept rdns).map entry ∧ name.email = (lastEmail rdns).map cut := by
  cases hw with
  | mk hcontent hseq =>
    obtain ⟨seq, hreadSeq, hread⟩ := except_bind_ok hread
    obtain ⟨hcontentEq, -⟩ := asn1ReadNext_element_content (by decide) hseq (asn1ReadUniversal_ok.mp hreadSeq).1
    obtain ⟨name₁, hpieces, hread⟩ := except_bind_ok hread
    cases hread
    rw [hcontentEq] at hpieces
    obtain ⟨hattr, hemail⟩ := addAttrs_eq (x509ReadRdns_firsts hcontent hfits hpieces)
    refine ⟨hattr, hemail.trans ?_⟩
    exact Option.or_none

end Names

end Hostap
