import Hostap.Tls.Asn1Header
import Hostap.Tls.X509Reader

/-!
# When a header is read inside a value

`asn1_get_next()` stays inside of what it is given if there is an identifier, and behind it, where it ends, an
octet of the length (`Asn1Starts`). With an end that is behind that of the value it has to find the whole header
(`Asn1Complete`). Where it has a result it is that of the header at the front.
-/

namespace Hostap

open Octets Der Bounded

/-! ## Results -/

theorem asn1ReadTag_ok {extra tag : Nat} {w : Bytes} {x : Nat × Bytes} :
    asn1ReadTag extra tag w = .ok x ↔ asn1ExtendedTag tag w = some x := by
  induction w generalizing tag with
  | nil =>
    rw [asn1ReadTag, asn1ExtendedTag]
    by_cases h : extra = 0
    · simp [h]
    · simp [h]
  | cons octet rest ih =>
    rw [asn1ReadTag, asn1ExtendedTag]
    by_cases hmore : octet &&& 0x80 ≠ 0
    · rw [if_pos hmore, if_pos hmore]
      exact ih
    · rw [if_neg hmore, if_neg hmore]
      simp

theorem asn1ReadIdentifier_ok {extra : Nat} {w : Bytes} {x : Nat × Nat × Bytes} :
    asn1ReadIdentifier extra w = .ok x ↔ asn1Identifier w = some x := by
  cases w with
  | nil => simp [asn1ReadIdentifier, asn1Identifier]
  | cons identifier rest =>
    rw [asn1ReadIdentifier, asn1Identifier]
    by_cases hext : identifier &&& 0x1f = 0x1f
    · rw [if_pos hext, if_pos hext]
      constructor
      · intro h
        obtain ⟨t, ht, rfl⟩ := except_map_ok h
        rw [asn1ReadTag_ok.mp ht, Option.map_some]
      · intro h
        obtain ⟨t, ht, rfl⟩ := Option.map_eq_some_iff.mp h
        rw [asn1ReadTag_ok.mpr ht]
        rfl
    · rw [if_neg hext, if_neg hext]
      simp

theorem asn1ReadLength_ok {extra : Nat} {w : Bytes} {x : Nat × Bytes} :
    asn1ReadLength extra w = .ok x ↔ asn1Length w = some x := by
  cases w with
  | nil => simp [asn1ReadLength, asn1Length]
  | cons octet rest =>
    rw [asn1ReadLength, asn1Length]
    by_cases hshort : octet &&& 0x80 = 0
    · rw [if_pos hshort, if_pos hshort]
      simp
    · rw [if_neg hshort, if_neg hshort]
      dsimp only
      by_cases hbad : octet = 0xff ∨ 4 < octet.toNat % 128
      · rw [if_pos hbad, if_pos (hbad.elim Or.inl fun h => Or.inr (Or.inl h))]
        simp
      · rw [if_neg hbad]
        by_cases hcut : rest.length < octet.toNat % 128
        · rw [if_pos hcut, if_pos (Or.inr (Or.inr hcut))]
          by_cases hextra : extra = 0
          · simp [hextra]
          · simp [hextra]
        · rw [if_neg hcut, if_neg (by rintro (h | h | h) <;> simp_all)]
          simp

theorem asn1ReadNext_ok {w : Bytes} {extra : Nat} {hdr : Asn1Hdr} : asn1ReadNext w extra = .ok hdr ↔
    asn1Header w = some ((hdr.cls, hdr.tag, hdr.length), hdr.payload) ∧
      hdr.length ≤ (hdr.payload.length + extra) % 2 ^ 32 := by
  constructor
  · intro h
    obtain ⟨x, hx, h⟩ := except_bind_ok h
    obtain ⟨y, hy, h⟩ := except_bind_ok h
    obtain ⟨_, hfits, h⟩ := except_bind_ok h
    cases h
    refine ⟨?_, require_ok.mp hfits⟩
    unfold asn1Header
    rw [asn1ReadIdentifier_ok.mp hx]
    show (asn1Length x.2.2).map _ = _
    rw [asn1ReadLength_ok.mp hy]
    rfl
  · rintro ⟨h, hfits⟩
    unfold asn1Header at h
    cases hid : asn1Identifier w with
    | none => rw [hid] at h; cases h
    | some x =>
      rw [hid] at h
      obtain ⟨y, hy, heq⟩ := Option.map_eq_some_iff.mp h
      obtain ⟨cls, tag, length, payload⟩ := hdr
      cases heq
      unfold asn1ReadNext
      rw [bind_of_ok (asn1ReadIdentifier_ok.mpr hid), bind_of_ok (asn1ReadLength_ok.mpr hy),
        bind_of_ok (require_of hfits)]
      rfl

theorem asn1ReadNext_element {w : Bytes} {hdr : Asn1Hdr} (h : asn1ReadNext w 0 = .ok hdr) :
    ∃ head, IsHeader hdr.cls hdr.tag hdr.content.length head ∧ w = head ++ (hdr.content ++ hdr.next) ∧
      hdr.content.length = hdr.length := by
  obtain ⟨hhdr, hfits⟩ := asn1ReadNext_ok.mp h
  obtain ⟨head, rfl, hall⟩ := asn1Header_reads hhdr
  have hlen : hdr.content.length = hdr.length := by
    refine List.length_take_of_le ?_
    exact Nat.le_trans hfits (Nat.mod_le _ _)
  have hhead := hall []
  rw [List.append_nil] at hhead
  refine ⟨head, ?_, ?_, hlen⟩
  · rw [hlen]
    exact hhead
  · congr 1
    exact (List.take_append_drop _ _).symm

theorem isHeader_ne_nil {cls tag length : Nat} {head : Bytes} (h : IsHeader cls tag length head) :
    head ≠ [] := by
  rintro rfl
  cases h

theorem asn1ReadNext_payload {w : Bytes} {extra : Nat} {hdr : Asn1Hdr} (h : asn1ReadNext w extra = .ok hdr) :
    hdr.payload.length < w.length := by
  obtain ⟨head, rfl, hall⟩ := asn1Header_reads (asn1ReadNext_ok.mp h).1
  have hhead := hall []
  rw [List.append_nil] at hhead
  have hpos := List.length_pos_iff.mpr (isHeader_ne_nil hhead)
  rw [List.length_append]
  omega

theorem asn1ReadNext_shortens {w : Bytes} {hdr : Asn1Hdr} (h : asn1ReadNext w 0 = .ok hdr) :
    hdr.next.length < w.length := by
  refine Nat.lt_of_le_of_lt ?_ (asn1ReadNext_payload h)
  show (hdr.payload.drop hdr.length).length ≤ _
  rw [List.length_drop]
  exact Nat.sub_le _ _

theorem asn1ReadUniversal_ok {tag : Nat} {w : Bytes} {hdr : Asn1Hdr} :
    asn1ReadUniversal tag w = .ok hdr ↔ asn1ReadNext w 0 = .ok hdr ∧ hdr.cls = 0 ∧ hdr.tag = tag := by
  constructor
  · intro h
    obtain ⟨hdr', hnext, h⟩ := except_bind_ok h
    obtain ⟨_, htag, h⟩ := except_bind_ok h
    cases h
    exact ⟨hnext, require_ok.mp htag⟩
  · rintro ⟨hnext, htag⟩
    unfold asn1ReadUniversal
    rw [bind_of_ok hnext, bind_of_ok (require_of htag)]
    rfl

theorem asn1ReadOid_ok {w rest : Bytes} {oid : List Nat} (h : asn1ReadOid w = .ok (oid, rest)) :
    ∃ hdr, asn1ReadNext w 0 = .ok hdr ∧ rest = hdr.next := by
  obtain ⟨hdr, hnext, h⟩ := except_bind_ok h
  obtain ⟨_, _, h⟩ := except_bind_ok h
  obtain ⟨_, _, h⟩ := except_bind_ok h
  obtain ⟨_, _, h⟩ := except_bind_ok h
  cases h
  exact ⟨hdr, hnext, rfl⟩

/-! ## Stops -/

theorem asn1ReadTag_ends (extra tag : Nat) (w : Bytes) : Avoids .running (asn1ReadTag extra tag w) := by
  induction w generalizing tag with
  | nil =>
    rw [asn1ReadTag]
    by_cases h : extra = 0
    · simp [h]
    · simp [h]
  | cons octet rest ih =>
    rw [asn1ReadTag]
    by_cases hmore : octet &&& 0x80 ≠ 0
    · rw [if_pos hmore]
      exact ih _
    · rw [if_neg hmore]
      exact avoids_ok _

theorem asn1ReadNext_ends (w : Bytes) (extra : Nat) : Avoids .running (asn1ReadNext w extra) := by
  refine avoids_bind.mpr ⟨?_, fun x _ => avoids_bind.mpr ⟨?_, fun y _ => ?_⟩⟩
  · cases w with
    | nil => simp [asn1ReadIdentifier]
    | cons identifier rest =>
      rw [asn1ReadIdentifier]
      by_cases hext : identifier &&& 0x1f = 0x1f
      · rw [if_pos hext, avoids_map]
        exact asn1ReadTag_ends extra 0 rest
      · rw [if_neg hext]
        exact avoids_ok _
  · cases x.2.2 with
    | nil => simp [asn1ReadLength]
    | cons octet rest =>
      rw [asn1ReadLength]
      by_cases hshort : octet &&& 0x80 = 0
      · simp [hshort]
      by_cases hbad : octet = 0xff ∨ 4 < octet.toNat % 128
      · simp [hshort, hbad]
      by_cases hcut : rest.length < octet.toNat % 128
      · by_cases hextra : extra = 0
        · simp [hshort, hbad, hcut, hextra]
        · simp [hshort, hbad, hcut, hextra]
      · simp [hshort, hbad, hcut]
  · exact (avoids_require_bind (by decide)).mpr fun _ => avoids_pure _

/-- There is an identifier, and an octet behind it unless it does not end. -/
def Asn1Starts (w : Bytes) : Prop :=
  w ≠ [] ∧ ∀ cls tag rest, asn1Identifier w = some (cls, tag, rest) → rest ≠ []

/-- There is an identifier that ends, and behind it all octets of the length, unless their number is out of
range. -/
def Asn1Complete (w : Bytes) : Prop :=
  ∃ cls tag octet rest, asn1Identifier w = some (cls, tag, octet :: rest) ∧
    (octet &&& 0x80 = 0 ∨ octet = 0xff ∨ 4 < octet.toNat % 128 ∨ octet.toNat % 128 ≤ rest.length)

theorem asn1ReadTag_inside (tag : Nat) (w : Bytes) : Avoids .outside (asn1ReadTag 0 tag w) := by
  induction w generalizing tag with
  | nil => simp [asn1ReadTag]
  | cons octet rest ih =>
    rw [asn1ReadTag]
    by_cases hmore : octet &&& 0x80 ≠ 0
    · rw [if_pos hmore]
      exact ih _
    · rw [if_neg hmore]
      exact avoids_ok _

theorem asn1ReadIdentifier_inside {w : Bytes} : Avoids .outside (asn1ReadIdentifier 0 w) ↔ w ≠ [] := by
  cases w with
  | nil => simp [asn1ReadIdentifier]
  | cons identifier rest =>
    refine iff_of_true ?_ (List.cons_ne_nil _ _)
    rw [asn1ReadIdentifier]
    by_cases hext : identifier &&& 0x1f = 0x1f
    · rw [if_pos hext, avoids_map]
      exact asn1ReadTag_inside 0 rest
    · rw [if_neg hext]
      exact avoids_ok _

theorem asn1ReadLength_inside {w : Bytes} : Avoids .outside (asn1ReadLength 0 w) ↔ w ≠ [] := by
  cases w with
  | nil => simp [asn1ReadLength]
  | cons octet rest =>
    refine iff_of_true ?_ (List.cons_ne_nil _ _)
    rw [asn1ReadLength]
    by_cases hshort : octet &&& 0x80 = 0
    · simp [hshort]
    by_cases hbad : octet = 0xff ∨ 4 < octet.toNat % 128
    · simp [hshort, hbad]
    by_cases hcut : rest.length < octet.toNat % 128
    · simp [hshort, hbad, hcut]
    · simp [hshort, hbad, hcut]

theorem asn1ReadNext_inside {w : Bytes} : Avoids .outside (asn1ReadNext w 0) ↔ Asn1Starts w := by
  unfold asn1ReadNext Asn1Starts
  rw [avoids_bind, asn1ReadIdentifier_inside]
  refine and_congr_right fun _ => ⟨fun h cls tag rest hid => ?_, fun h x hx => ?_⟩
  · have hlen := (avoids_bind.mp (h (cls, tag, rest) (asn1ReadIdentifier_ok.mpr hid))).1
    exact asn1ReadLength_inside.mp hlen
  · refine avoids_bind.mpr ⟨asn1ReadLength_inside.mpr (h _ _ _ (asn1ReadIdentifier_ok.mp hx)), fun y _ => ?_⟩
    exact (avoids_require_bind (by decide)).mpr fun _ => avoids_pure _

section Extra

variable {extra : Nat} (hextra : extra ≠ 0)

include hextra

theorem asn1ReadTag_inside_extra (tag : Nat) (w : Bytes) :
    Avoids .outside (asn1ReadTag extra tag w) ↔ asn1ExtendedTag tag w ≠ none := by
  induction w generalizing tag with
  | nil => simp [asn1ReadTag, asn1ExtendedTag, hextra]
  | cons octet rest ih =>
    rw [asn1ReadTag, asn1ExtendedTag]
    by_cases hmore : octet &&& 0x80 ≠ 0
    · rw [if_pos hmore, if_pos hmore]
      exact ih _
    · rw [if_neg hmore, if_neg hmore]
      simp

theorem asn1ReadIdentifier_inside_extra {w : Bytes} :
    Avoids .outside (asn1ReadIdentifier extra w) ↔ asn1Identifier w ≠ none := by
  cases w with
  | nil => simp [asn1ReadIdentifier, asn1Identifier]
  | cons identifier rest =>
    rw [asn1ReadIdentifier, asn1Identifier]
    by_cases hext : identifier &&& 0x1f = 0x1f
    · rw [if_pos hext, if_pos hext, avoids_map, asn1ReadTag_inside_extra hextra]
      simp
    · rw [if_neg hext, if_neg hext]
      simp

theorem asn1ReadLength_inside_extra {w : Bytes} : Avoids .outside (asn1ReadLength extra w) ↔
    ∃ octet rest, w = octet :: rest ∧
      (octet &&& 0x80 = 0 ∨ octet = 0xff ∨ 4 < octet.toNat % 128 ∨ octet.toNat % 128 ≤ rest.length) := by
  cases w with
  | nil => simp [asn1ReadLength]
  | cons octet rest =>
    have hsame : (∃ octet' rest', octet :: rest = octet' :: rest' ∧ (octet' &&& 0x80 = 0 ∨ octet' = 0xff ∨
        4 < octet'.toNat % 128 ∨ octet'.toNat % 128 ≤ rest'.length)) ↔ octet &&& 0x80 = 0 ∨ octet = 0xff ∨
        4 < octet.toNat % 128 ∨ octet.toNat % 128 ≤ rest.length := by
      refine ⟨fun ⟨octet', rest', heq, h⟩ => ?_, fun h => ⟨octet, rest, rfl, h⟩⟩
      cases heq
      exact h
    rw [hsame, asn1ReadLength]
    by_cases hshort : octet &&& 0x80 = 0
    · simp [hshort]
    by_cases hbad : octet = 0xff ∨ 4 < octet.toNat % 128
    · rw [if_neg hshort]
      dsimp only
      rw [if_pos hbad]
      refine iff_of_true (avoids_error.mpr (by decide)) (Or.inr ?_)
      exact hbad.elim Or.inl fun h => Or.inr (Or.inl h)
    rw [if_neg hshort]
    dsimp only
    rw [if_neg hbad]
    have hnot : ¬ (octet = 0xff) ∧ ¬ 4 < octet.toNat % 128 := not_or.mp hbad
    by_cases hcut : rest.length < octet.toNat % 128
    · rw [if_pos hcut, if_neg hextra]
      refine iff_of_false (fun h => h rfl) ?_
      rintro (h | h | h | h)
      · exact hshort h
      · exact hnot.1 h
      · exact hnot.2 h
      · omega
    · rw [if_neg hcut]
      exact iff_of_true (avoids_ok _) (Or.inr (Or.inr (Or.inr (Nat.le_of_not_lt hcut))))

theorem asn1ReadNext_inside_extra {w : Bytes} : Avoids .outside (asn1ReadNext w extra) ↔ Asn1Complete w := by
  unfold asn1ReadNext
  rw [avoids_bind, asn1ReadIdentifier_inside_extra hextra]
  constructor
  · rintro ⟨hid, h⟩
    obtain ⟨x, hx⟩ := Option.ne_none_iff_exists'.mp hid
    have hlen := (avoids_bind.mp (h x (asn1ReadIdentifier_ok.mpr hx))).1
    obtain ⟨octet, rest, hrest, hwhole⟩ := (asn1ReadLength_inside_extra hextra).mp hlen
    obtain ⟨cls, tag, after⟩ := x
    cases hrest
    exact ⟨cls, tag, octet, rest, hx, hwhole⟩
  · rintro ⟨cls, tag, octet, rest, hid, hwhole⟩
    refine ⟨by simp [hid], fun x hx => avoids_bind.mpr ⟨?_, fun y _ => ?_⟩⟩
    · have hx := asn1ReadIdentifier_ok.mp hx
      rw [hid] at hx
      cases hx
      exact (asn1ReadLength_inside_extra hextra).mpr ⟨octet, rest, rfl, hwhole⟩
    · exact (avoids_require_bind (by decide)).mpr fun _ => avoids_pure _

end Extra

end Hostap
