import Hostap.Lib.Der
import Hostap.Tls.Asn1

/-!
# What an ASN.1 header is read from

`asn1_get_next()` reads the identifier and the length off the front of the octets it is given. `IsHeader` says
of octets that they are such a header, and `asn1GetNext_iff` where the header, the payload and what follows
are in the input. More than the shortest form is a header: the tag may be in octets of its own, the octets of
the length may start with zeros, and the bit for a constructed encoding is not looked at. A header in the
shortest form is one that is read, as long as four octets are enough for the length.
-/

namespace Hostap

open Octets Der List

def asn1Header (octets : Bytes) : Option ((Nat × Nat × Nat) × Bytes) :=
  match asn1Identifier octets with
  | none => none
  | some (cls, tag, rest) => (asn1Length rest).map fun x => ((cls, tag, x.1), x.2)

def IsHeader (cls tag length : Nat) (h : Bytes) : Prop := asn1Header h = some ((cls, tag, length), [])

instance (cls tag length : Nat) (h : Bytes) : Decidable (IsHeader cls tag length h) :=
  inferInstanceAs (Decidable (_ = _))

/-! ## The readers -/

theorem asn1ExtendedTag_reads (tag : Nat) : Reads (asn1ExtendedTag tag) := by
  intro w
  induction w generalizing tag with
  | nil => intro t r h; cases h
  | cons octet rest ih =>
    intro t r h
    by_cases hmore : octet &&& 0x80 ≠ 0
    · have hstep : ∀ s, asn1ExtendedTag tag (octet :: s) =
          asn1ExtendedTag ((tag * 128 + octet.toNat % 128) % 2 ^ 32) s := fun s => if_pos hmore
      rw [hstep] at h
      obtain ⟨h', rfl, hall⟩ := ih _ h
      exact ⟨octet :: h', rfl, fun s => (hstep (h' ++ s)).trans (hall s)⟩
    · have hstep : ∀ s, asn1ExtendedTag tag (octet :: s) =
          some ((tag * 128 + octet.toNat % 128) % 2 ^ 32, s) := fun s => if_neg hmore
      rw [hstep] at h
      cases h
      exact ⟨[octet], rfl, hstep⟩

/-- The identifier with its two numbers in one, as a reader. -/
def asn1IdentifierReader (octets : Bytes) : Option ((Nat × Nat) × Bytes) :=
  (asn1Identifier octets).map fun x => ((x.1, x.2.1), x.2.2)

theorem asn1IdentifierReader_reads : Reads asn1IdentifierReader := by
  intro w a r h
  cases w with
  | nil => cases h
  | cons identifier rest =>
    by_cases hext : identifier &&& 0x1f = 0x1f
    · have hstep : ∀ s, asn1IdentifierReader (identifier :: s) =
          (asn1ExtendedTag 0 s).map fun t => ((identifier.toNat / 64, t.1), t.2) := fun s => by
        rw [asn1IdentifierReader, asn1Identifier, if_pos hext, Option.map_map]
        rfl
      rw [hstep] at h
      obtain ⟨h', rfl, hall⟩ := reads_map (asn1ExtendedTag_reads 0) (fun t => (identifier.toNat / 64, t)) h
      exact ⟨identifier :: h', rfl, fun s => (hstep (h' ++ s)).trans (hall s)⟩
    · have hstep : ∀ s, asn1IdentifierReader (identifier :: s) =
          some ((identifier.toNat / 64, identifier.toNat % 32), s) := fun s => by
        rw [asn1IdentifierReader, asn1Identifier, if_neg hext]
        rfl
      rw [hstep] at h
      cases h
      exact ⟨[identifier], rfl, hstep⟩

theorem asn1Length_reads : Reads asn1Length := by
  intro w a r h
  cases w with
  | nil => cases h
  | cons octet rest =>
    by_cases hshort : octet &&& 0x80 = 0
    · have hstep : ∀ s, asn1Length (octet :: s) = some (octet.toNat, s) := fun s => if_pos hshort
      rw [hstep] at h
      cases h
      exact ⟨[octet], rfl, hstep⟩
    · by_cases hbad : octet = 0xff ∨ 4 < octet.toNat % 128
      · rw [asn1Length, if_neg hshort, if_pos (hbad.elim Or.inl fun h => Or.inr (Or.inl h))] at h
        cases h
      · have hstep : ∀ s, ¬ s.length < octet.toNat % 128 → asn1Length (octet :: s) =
            some (beNat (s.take (octet.toNat % 128)), s.drop (octet.toNat % 128)) := fun s hs => by
          rw [asn1Length, if_neg hshort, if_neg]
          rintro (h | h | h)
          · exact hbad (Or.inl h)
          · exact hbad (Or.inr h)
          · exact hs h
        by_cases hcut : rest.length < octet.toNat % 128
        · rw [asn1Length, if_neg hshort, if_pos (Or.inr (Or.inr hcut))] at h
          cases h
        · rw [hstep rest hcut] at h
          cases h
          have htake : (rest.take (octet.toNat % 128)).length = octet.toNat % 128 :=
            length_take_of_le (Nat.le_of_not_lt hcut)
          refine ⟨octet :: rest.take (octet.toNat % 128), by rw [cons_append, take_append_drop],
            fun s => ?_⟩
          rw [cons_append, hstep _ (by rw [length_append, htake]; omega),
            take_append_of_le_length (Nat.le_of_eq htake.symm), drop_append_of_le_length
              (Nat.le_of_eq htake.symm), take_of_length_le (Nat.le_of_eq htake),
            drop_of_length_le (Nat.le_of_eq htake), nil_append]

theorem asn1Header_reads : Reads asn1Header := by
  have hboth := asn1IdentifierReader_reads.bind fun a => reads_map asn1Length_reads fun n => (a.1, a.2, n)
  have heq : asn1Header = fun w => (asn1IdentifierReader w).bind fun x =>
      (asn1Length x.2).map fun y => ((x.1.1, x.1.2, y.1), y.2) := by
    funext w
    unfold asn1Header asn1IdentifierReader
    cases asn1Identifier w with
    | none => rfl
    | some x => rfl
  rw [heq]
  exact hboth

/-! ## Headers -/

theorem isHeader_append {cls tag length : Nat} {h : Bytes} (hh : IsHeader cls tag length h) (s : Bytes) :
    asn1Header (h ++ s) = some ((cls, tag, length), s) := asn1Header_reads.append hh s

theorem asn1GetNext_eq (pos : Bytes) (len : Nat) : asn1GetNext pos len =
    (asn1Header (pos.take len)).bind fun x =>
      if x.2.length < x.1.2.2 then none
      else some ⟨x.1.1, x.1.2.1, x.1.2.2, pos.drop ((pos.take len).length - x.2.length)⟩ := by
  unfold asn1GetNext asn1Header
  cases hid : asn1Identifier (pos.take len) with
  | none => rfl
  | some x =>
    obtain ⟨cls, tag, rest⟩ := x
    cases hlen : asn1Length rest with
    | none => simp only [hlen]; rfl
    | some y => simp only [hlen]; rfl

theorem asn1GetNext_iff {pos : Bytes} {len : Nat} {hdr : Asn1Hdr} : asn1GetNext pos len = some hdr ↔
    ∃ h, IsHeader hdr.cls hdr.tag hdr.length h ∧ pos = h ++ hdr.payload ∧ h.length + hdr.length ≤ len ∧
      hdr.length ≤ hdr.payload.length := by
  rw [asn1GetNext_eq]
  constructor
  · intro heq
    obtain ⟨⟨⟨cls, tag, length⟩, rest⟩, hfound, heq⟩ := Option.bind_eq_some_iff.mp heq
    obtain ⟨h, hsplit, hall⟩ := asn1Header_reads hfound
    have hlen := congrArg List.length hsplit
    rw [length_append] at hlen
    by_cases hcut : rest.length < length
    · rw [if_pos hcut] at heq
      cases heq
    · rw [if_neg hcut, Option.some_inj] at heq
      have hdrop : (pos.take len).length - rest.length = h.length := by omega
      have hpos : pos = h ++ pos.drop h.length := by
        have hfront : pos.take h.length = h := by
          have htake : (pos.take len).take h.length = h := by rw [hsplit, take_left' rfl]
          rw [take_take] at htake
          rw [length_take] at hlen
          rwa [Nat.min_eq_left (by omega)] at htake
        calc pos = pos.take h.length ++ pos.drop h.length := (take_append_drop _ _).symm
          _ = h ++ pos.drop h.length := by rw [hfront]
      have hpayload : hdr.payload = pos.drop h.length := by rw [← heq, hdrop]
      have hsize := length_take (i := len) (l := pos)
      have hall := hall []
      rw [append_nil] at hall
      refine ⟨h, ?_, ?_, ?_, ?_⟩
      · rw [← heq]
        exact hall
      · rw [hpayload]
        exact hpos
      · rw [← heq]
        show h.length + length ≤ len
        omega
      · rw [hpayload, ← heq, length_drop]
        show length ≤ _
        omega
  · rintro ⟨h, hh, rfl, hlen, hpayload⟩
    have htake : (h ++ hdr.payload).take len = h ++ hdr.payload.take (len - h.length) := by
      rw [take_append, take_of_length_le (by omega)]
    have hrest := length_take (i := len - h.length) (l := hdr.payload)
    rw [htake, isHeader_append hh, Option.bind_some,
      if_neg (show ¬ (hdr.payload.take (len - h.length)).length < hdr.length by omega)]
    have hdrop : (h ++ hdr.payload.take (len - h.length)).length - (hdr.payload.take (len - h.length)).length =
        h.length := by
      rw [length_append]
      omega
    show some (Asn1Hdr.mk hdr.cls hdr.tag hdr.length (List.drop _ _)) = _
    rw [hdrop, drop_left' rfl]

theorem asn1GetUniversal_iff {tag : Nat} {pos : Bytes} {len : Nat} {hdr : Asn1Hdr} :
    asn1GetUniversal tag pos len = some hdr ↔
      ∃ h, IsHeader 0 tag hdr.length h ∧ pos = h ++ hdr.payload ∧ h.length + hdr.length ≤ len ∧
        hdr.length ≤ hdr.payload.length ∧ hdr.cls = 0 ∧ hdr.tag = tag := by
  unfold asn1GetUniversal
  rw [Option.filter_eq_some_iff, asn1GetNext_iff, decide_eq_true_iff]
  constructor
  · rintro ⟨⟨h, hh, hpos, hlen, hpayload⟩, hcls, htag⟩
    rw [hcls, htag] at hh
    exact ⟨h, hh, hpos, hlen, hpayload, hcls, htag⟩
  · rintro ⟨h, hh, hpos, hlen, hpayload, hcls, htag⟩
    refine ⟨⟨h, ?_, hpos, hlen, hpayload⟩, hcls, htag⟩
    rw [hcls, htag]
    exact hh

/-! ## The shortest form -/

theorem high_bit_iff (octet : UInt8) : octet &&& 0x80 = 0 ↔ octet.toNat < 128 := by
  have hbit : ∀ m : Fin 256, UInt8.ofNat m &&& 0x80 = 0 ↔ m.val < 128 := by decide +kernel
  have hoctet := hbit ⟨octet.toNat, octet.toNat_lt⟩
  rwa [show UInt8.ofNat (Fin.val ⟨octet.toNat, octet.toNat_lt⟩) = octet from UInt8.ofNat_toNat] at hoctet

theorem asn1Length_of_lengthOctets {n : Nat} {octets : Bytes} (h : LengthOctets n octets) :
    (∀ s, asn1Length (octets ++ s) = some (n, s)) ∨ 2 ^ 32 ≤ n ∧ ∀ s, asn1Length (octets ++ s) = none := by
  cases h with
  | short hn =>
    have hval : (UInt8.ofNat n).toNat = n := by rw [UInt8.toNat_ofNat']; omega
    refine Or.inl fun s => ?_
    rw [singleton_append, asn1Length, if_pos ((high_bit_iff _).mpr (by rw [hval]; exact hn)), hval]
  | long hn hmax =>
    have hval : (UInt8.ofNat (128 + numBytes n)).toNat = 128 + numBytes n := by
      rw [UInt8.toNat_ofNat']
      omega
    have hcount : (UInt8.ofNat (128 + numBytes n)).toNat % 128 = numBytes n := by omega
    have hlong : ¬ UInt8.ofNat (128 + numBytes n) &&& 0x80 = 0 := fun h => by
      have hlt := (high_bit_iff _).mp h
      omega
    by_cases hfour : 4 < numBytes n
    · have hfew : n < 2 ^ 32 → numBytes n ≤ 4 := fun hlt => numBytes_le (show n < 256 ^ 4 from hlt)
      refine Or.inr ⟨by omega, fun s => ?_⟩
      rw [cons_append, asn1Length, if_neg hlong, if_pos (Or.inr (Or.inl (by rw [hcount]; exact hfour)))]
    · refine Or.inl fun s => ?_
      have hreserved : ¬ UInt8.ofNat (128 + numBytes n) = 0xff := fun h => by
        rw [h, show (0xff : UInt8).toNat = 255 from rfl] at hval
        omega
      have hlen : (natBe (numBytes n) n).length = numBytes n := natBe_length _ _
      rw [cons_append, asn1Length, if_neg hlong, if_neg, hcount, take_left' hlen,
        drop_left' hlen, beNat_natBe (lt_pow_numBytes n)]
      rw [hcount, length_append, hlen]
      rintro (h | h | h)
      · exact hreserved h
      · exact hfour h
      · omega

theorem header_isHeader_or {tag n : Nat} {identifier : UInt8} {h : Bytes}
    (hid : ∀ s, asn1Identifier (identifier :: s) = some (0, tag, s)) (hh : Header identifier n h) :
    IsHeader 0 tag n h ∨ 2 ^ 32 ≤ n ∧ ∀ s, asn1Header (h ++ s) = none := by
  cases hh with
  | mk hlen =>
    rename_i octets
    cases asn1Length_of_lengthOctets hlen with
    | inl hread =>
      have hread := hread []
      rw [append_nil] at hread
      refine Or.inl ?_
      unfold IsHeader asn1Header
      rw [hid]
      show (asn1Length octets).map _ = _
      rw [hread]
      rfl
    | inr hno =>
      refine Or.inr ⟨hno.1, fun s => ?_⟩
      unfold asn1Header
      rw [cons_append, hid]
      show (asn1Length (octets ++ s)).map _ = none
      rw [hno.2 s]
      rfl

theorem header_eq_of_isHeader {cls tag tag' n n' : Nat} {identifier : UInt8} {h h' r r' : Bytes}
    (hid : ∀ s, asn1Identifier (identifier :: s) = some (0, tag', s)) (hh : IsHeader cls tag n h)
    (hh' : Header identifier n' h') (heq : h ++ r = h' ++ r') : h = h' ∧ r = r' ∧ n = n' := by
  cases header_isHeader_or hid hh' with
  | inl hfound =>
    obtain ⟨hsame, hrest, hx⟩ := asn1Header_reads.unique hh hfound heq
    cases hx
    exact ⟨hsame, hrest, rfl⟩
  | inr hno =>
    have hsome := isHeader_append hh r
    rw [heq, hno.2 r'] at hsome
    cases hsome

end Hostap
