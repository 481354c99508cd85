import Hostap.Ies.ParseElems
import Hostap.Lib.Except

/-!
# What the pointers of a parsed frame point to

The first part says of each pointer which elements it takes: the id, or OUI, type and subtypes, or the id of an
extension, and the lengths (`Elem.accepts`). `parseElement_of_accepts` and `parseElement_justified` say
that the switch sets a pointer exactly for these.

The second part is about the loop, by induction on what is left of the buffer. It goes through the elements up
to the first MIC element and fails if they are not complete, and a pointer ends up at the last element it takes.
-/

namespace Hostap

open Octets Spans Buffer List

/-! ## The elements a pointer takes -/

/-- How an element is recognised. A vendor specific element without subtypes has any octet behind its type. -/
inductive ElemKind
  | plain (id : UInt8)
  | vendor (oui : Nat) (type : UInt8) (subtypes : List UInt8)
  | extension (extId : UInt8)

def Elem.kind : Elem → ElemKind
  | .ssid => .plain 0
  | .suppRates => .plain 1
  | .dsParams => .plain 3
  | .challenge => .plain 16
  | .powerCapab => .plain 33
  | .suppChannels => .plain 36
  | .erpInfo => .plain 42
  | .htCapabilities => .plain 45
  | .rsnIe => .plain 48
  | .extSuppRates => .plain 50
  | .mdie => .plain 54
  | .ftie => .plain 55
  | .timeoutInt => .plain 56
  | .suppOpClasses => .plain 59
  | .htOperation => .plain 61
  | .rrmEnabled => .plain 70
  | .ssidList => .plain 84
  | .bssMaxIdlePeriod => .plain 90
  | .linkId => .plain 101
  | .interworking => .plain 107
  | .qosMapSet => .plain 110
  | .meshConfig => .plain 113
  | .meshId => .plain 114
  | .peerMgmt => .plain 117
  | .extCapab => .plain 127
  | .ampe => .plain 139
  | .mic => .plain 140
  | .vhtCapabilities => .plain 191
  | .vhtOperation => .plain 192
  | .vhtOpmodeNotif => .plain 199
  | .cagNumber => .plain 237
  | .apCsn => .plain 239
  | .filsIndic => .plain 240
  | .dils => .plain 241
  | .wpaIe => .vendor 0x0050f2 1 []
  | .wmm => .vendor 0x0050f2 2 [0, 1]
  | .wmmTspec => .vendor 0x0050f2 2 [2]
  | .wpsIe => .vendor 0x0050f2 4 []
  | .p2p => .vendor 0x506f9a 9 []
  | .wfd => .vendor 0x506f9a 10 []
  | .hs20 => .vendor 0x506f9a 16 []
  | .osen => .vendor 0x506f9a 18 []
  | .mbo => .vendor 0x506f9a 22 []
  | .roamingConsSel => .vendor 0x506f9a 29 []
  | .vendorHtCap => .vendor 0x00904c 51 []
  | .vendorVht => .vendor 0x00904c 4 [8, 0]
  | .prefFreqList => .vendor 0x001374 0 []
  | .assocDelayInfo => .extension 1
  | .filsReqParams => .extension 2
  | .filsKeyConfirm => .extension 3
  | .filsSession => .extension 4
  | .filsHlp => .extension 5
  | .filsIpAddrAssign => .extension 6
  | .keyDelivery => .extension 7
  | .filsWrappedData => .extension 8
  | .filsPk => .extension 12
  | .filsNonce => .extension 13
  | .oweDh => .extension 32
  | .passwordId => .extension 33

def Elem.minLen : Elem → Nat
  | .dsParams | .erpInfo | .apCsn | .vhtOpmodeNotif | .assocDelayInfo | .filsIpAddrAssign | .filsPk => 1
  | .powerCapab | .filsIndic | .dils | .oweDh => 2
  | .mdie | .bssMaxIdlePeriod | .filsReqParams => 3
  | .timeoutInt | .vhtOperation => 5
  | .filsSession | .keyDelivery => 8
  | .filsHlp | .vhtCapabilities => 12
  | .qosMapSet | .filsNonce => 16
  | .linkId => 18
  | .htOperation => 22
  | .htCapabilities => 26
  | .ftie => 82
  | _ => 0

def Elem.maxLen : Elem → Nat
  | .vhtOpmodeNotif | .assocDelayInfo => 1
  | .timeoutInt => 5
  | .filsSession => 8
  | .filsNonce => 16
  | .ssid => 32
  | _ => 255

/-- Where the body of an element of the kind is: behind the id of an extension. -/
def ElemKind.value (e : IeAt) : ElemKind → Option Span
  | .plain id => if e.id = id then some e.span else none
  | .vendor oui type subtypes =>
    if e.id = eidVendorSpecific ∧ beNat (e.body.take 3) = oui ∧ e.body[3]? = some type ∧
      (subtypes = [] ∨ e.body[4]?.any (· ∈ subtypes)) then some e.span else none
  | .extension extId =>
    if e.id = eidExtension ∧ e.body[0]? = some extId then some ⟨e.off + 1, e.body.length - 1⟩ else none

def Elem.accepts (m : Elem) (e : IeAt) : Option Span :=
  (m.kind.value e).filter fun s => m.minLen ≤ s.len ∧ s.len ≤ m.maxLen

theorem Elem.accepts_iff {m : Elem} {e : IeAt} {s : Span} :
    m.accepts e = some s ↔ m.kind.value e = some s ∧ m.minLen ≤ s.len ∧ s.len ≤ m.maxLen := by
  unfold Elem.accepts
  rw [Option.filter_eq_some_iff, decide_eq_true_iff]

/-! ## The switch -/

section Switch

variable {buf : Bytes} {e : IeAt} {m : Elem} {s : Span}

theorem readOctet_in (h : e.In buf) {i : Nat} (hi : i < e.body.length) :
    readOctet buf (e.off + i) = .ok (e.body.getD i 0) := by
  have hbody : (buf.drop e.off).take e.body.length = e.body := h
  have hinside : e.off + i < buf.length := by
    have hlen := congrArg List.length hbody
    rw [length_take, length_drop] at hlen
    omega
  have hget : e.body[i]? = buf[e.off + i]? := by
    conv_lhs => rw [← hbody]
    rw [getElem?_take_of_lt hi, getElem?_drop]
  unfold readOctet
  rw [if_pos hinside, getD_eq_getElem?_getD, getD_eq_getElem?_getD, hget]

theorem readBe24_in (h : e.In buf) (hlen : 3 ≤ e.body.length) :
    readBe24 buf e.off = .ok (beNat (e.body.take 3)) := by
  have h0 : readOctet buf e.off = _ := readOctet_in h (show 0 < e.body.length by omega)
  have h1 := readOctet_in h (show 1 < e.body.length by omega)
  have h2 := readOctet_in h (show 2 < e.body.length by omega)
  unfold readBe24
  rw [h0, h1, h2]
  rcases hbody : e.body with _ | ⟨x, _ | ⟨y, _ | ⟨z, rest⟩⟩⟩ <;> rw [hbody] at hlen
  · exact absurd hlen (by decide)
  · exact absurd hlen (by simp)
  · exact absurd hlen (by simp)
  · rfl

theorem parseVendorSpecific_in (h : e.In buf) (hlen : 4 ≤ e.body.length) :
    parseVendorSpecific buf e.off e.body.length =
      vendorAction buf e.off e.body.length (beNat (e.body.take 3)) (e.body.getD 3 0) := by
  unfold parseVendorSpecific
  rw [if_neg (by omega), readBe24_in h (by omega), readOctet_in h (show 3 < e.body.length by omega)]
  rfl

theorem parseExtension_in (h : e.In buf) (hlen : 1 ≤ e.body.length) :
    parseExtension buf e.off e.body.length =
      .ok (extensionAction (e.body.getD 0 0) (e.off + 1) (e.body.length - 1)) := by
  have h0 : readOctet buf e.off = _ := readOctet_in h (show 0 < e.body.length by omega)
  unfold parseExtension
  rw [if_neg (by omega), h0]
  rfl

/-! An element a pointer takes sets it. -/

theorem parseElement_plain {id : UInt8} {pos elen : Nat} (hkind : m.kind = .plain id) (hmin : m.minLen ≤ elen)
    (hmax : elen ≤ m.maxLen) : parseElement buf id pos elen = .ok (.set m ⟨pos, elen⟩) := by
  cases m <;> cases hkind <;> simp only [Elem.minLen, Elem.maxLen] at hmin hmax
  all_goals first
    | rfl
    | exact congrArg Except.ok (if_neg (by omega))

theorem extensionAction_set {extId : UInt8} {pos elen : Nat} (hkind : m.kind = .extension extId)
    (hmin : m.minLen ≤ elen) (hmax : elen ≤ m.maxLen) :
    extensionAction extId pos elen = .set m ⟨pos, elen⟩ := by
  cases m <;> cases hkind <;> simp only [Elem.minLen, Elem.maxLen] at hmin hmax
  all_goals first
    | rfl
    | exact if_neg (by omega)

/-- The octet behind the type of a vendor specific element is one of the subtypes, if there are any. -/
def HasSubtype (buf : Bytes) (pos elen : Nat) (subtypes : List UInt8) : Prop :=
  subtypes = [] ∨ 5 ≤ elen ∧ ∃ subtype ∈ subtypes, readOctet buf (pos + 4) = .ok subtype

theorem vendorAction_set {oui : Nat} {type : UInt8} {subtypes : List UInt8} {pos elen : Nat}
    (hkind : m.kind = .vendor oui type subtypes) (hsub : HasSubtype buf pos elen subtypes) :
    vendorAction buf pos elen oui type = .ok (.set m ⟨pos, elen⟩) := by
  cases m <;> cases hkind <;> try rfl
  -- the three pointers with subtypes
  all_goals
    rcases hsub with hnil | ⟨hlen, subtype, hmem, hread⟩
    · cases hnil
  case wmm =>
    have h01 : subtype = 0 ∨ subtype = 1 := by
      rcases mem_cons.mp hmem with h | h
      · exact .inl h
      · exact .inr (mem_singleton.mp h)
    show (if elen < 5 then _ else _) = _
    rw [if_neg (by omega), hread]
    show (if subtype = 0 ∨ subtype = 1 then _ else _) = _
    rw [if_pos h01]
    rfl
  case wmmTspec =>
    rw [mem_singleton.mp hmem] at hread
    show (if elen < 5 then _ else _) = _
    rw [if_neg (by omega), hread]
    rfl
  case vendorVht =>
    have h80 : subtype = 8 ∨ subtype = 0 := by
      rcases mem_cons.mp hmem with h | h
      · exact .inl h
      · exact .inr (mem_singleton.mp h)
    show (if 4 < elen then _ else _) = _
    rw [if_pos (by omega), hread]
    show (if subtype = 8 ∨ subtype = 0 then _ else _) = _
    rw [if_pos h80]
    rfl

theorem parseElement_of_accepts (h : e.In buf) (hs : m.accepts e = some s) :
    parseElement buf e.id e.off e.body.length = .ok (.set m s) := by
  obtain ⟨hvalue, hmin, hmax⟩ := Elem.accepts_iff.mp hs
  cases hkind : m.kind with
  | plain id =>
    rw [hkind] at hvalue
    obtain ⟨hid, heq⟩ := Option.ite_none_right_eq_some.mp hvalue
    cases heq
    rw [hid]
    exact parseElement_plain hkind hmin hmax
  | vendor oui type subtypes =>
    rw [hkind] at hvalue
    obtain ⟨⟨hid, houi, htype, hsub⟩, heq⟩ := Option.ite_none_right_eq_some.mp hvalue
    cases heq
    obtain ⟨hlen, htype⟩ := List.getElem?_eq_some_iff.mp htype
    rw [hid]
    show parseVendorSpecific buf e.off e.body.length = _
    rw [parseVendorSpecific_in h hlen, houi, getD_eq_getElem?_getD, getElem?_eq_getElem hlen, htype]
    apply vendorAction_set hkind
    rcases hsub with hnil | hany
    · exact .inl hnil
    · obtain ⟨subtype, hget, hmem⟩ := (Option.any_eq_true _ _).mp hany
      obtain ⟨hfive, hsubtype⟩ := List.getElem?_eq_some_iff.mp hget
      refine .inr ⟨hfive, subtype, of_decide_eq_true hmem, ?_⟩
      rw [readOctet_in h hfive, getD_eq_getElem?_getD, hget]
      rfl
  | extension extId =>
    rw [hkind] at hvalue
    obtain ⟨⟨hid, hext⟩, heq⟩ := Option.ite_none_right_eq_some.mp hvalue
    cases heq
    obtain ⟨hlen, -⟩ := List.getElem?_eq_some_iff.mp hext
    rw [hid]
    show parseExtension buf e.off e.body.length = _
    rw [parseExtension_in h hlen, getD_eq_getElem?_getD, hext]
    exact congrArg Except.ok (extensionAction_set hkind hmin hmax)

/-! And only an element it takes does. -/

/-- A case of a switch sets a pointer of the kind, to what is looked at, if the length is right. -/
def ElemAction.Sets (kind : ElemKind) (pos elen : Nat) : ElemAction → Prop
  | .set m s => m.kind = kind ∧ (m.minLen ≤ elen ∧ elen ≤ m.maxLen) ∧ s = ⟨pos, elen⟩
  | .multiBand s => kind = .plain eidMultiBand ∧ s = ⟨pos, elen⟩
  | .ignored => True
  | .unknown => True

theorem ElemAction.sets_ite {kind : ElemKind} {pos elen : Nat} {cond : Prop} [Decidable cond]
    (hkind : m.kind = kind) (hlen : ¬ cond → m.minLen ≤ elen ∧ elen ≤ m.maxLen) :
    ElemAction.Sets kind pos elen (if cond then .ignored else .set m ⟨pos, elen⟩) := by
  split
  · exact trivial
  · rename_i hcond
    exact ⟨hkind, hlen hcond, rfl⟩

theorem parseElement_sets (buf : Bytes) {id : UInt8} (pos : Nat) {elen : Nat} (hlen : elen ≤ 255)
    (hvendor : id ≠ eidVendorSpecific) (hext : id ≠ eidExtension) :
    ∃ a, parseElement buf id pos elen = .ok a ∧ a.Sets (.plain id) pos elen := by
  unfold parseElement
  split
  all_goals first
    | exact absurd rfl hvendor
    | exact absurd rfl hext
    | exact ⟨_, rfl, trivial⟩
    | exact ⟨_, rfl, rfl, rfl⟩
    | exact ⟨_, rfl, rfl, ⟨Nat.zero_le _, hlen⟩, rfl⟩
    | exact ⟨_, rfl, ElemAction.sets_ite rfl fun h => by simp only [Elem.minLen, Elem.maxLen]; omega⟩

theorem extensionAction_sets (extId : UInt8) (pos : Nat) {elen : Nat} (hlen : elen ≤ 255) :
    (extensionAction extId pos elen).Sets (.extension extId) pos elen := by
  unfold extensionAction
  split
  all_goals first
    | exact trivial
    | exact ⟨rfl, ⟨Nat.zero_le _, hlen⟩, rfl⟩
    | exact ElemAction.sets_ite rfl fun h => by simp only [Elem.minLen, Elem.maxLen]; omega

/-- A vendor specific element sets a pointer with one of its subtypes. -/
def ElemAction.SetsVendor (buf : Bytes) (pos elen oui : Nat) (type : UInt8) : ElemAction → Prop
  | .set m s => ∃ subtypes, m.kind = .vendor oui type subtypes ∧ HasSubtype buf pos elen subtypes ∧
      (m.minLen ≤ elen ∧ elen ≤ m.maxLen) ∧ s = ⟨pos, elen⟩
  | .multiBand _ => False
  | .ignored => True
  | .unknown => True

theorem vendorAction_sets (buf : Bytes) (pos oui : Nat) (type : UInt8) {elen : Nat} (hlen : elen ≤ 255)
    (hread : 5 ≤ elen → ∃ subtype, readOctet buf (pos + 4) = .ok subtype) :
    ∃ a, vendorAction buf pos elen oui type = .ok a ∧ a.SetsVendor buf pos elen oui type := by
  unfold vendorAction
  split
  · rename_i houi
    subst houi
    split
    case h_2 =>
      -- WMM
      split
      · exact ⟨_, rfl, trivial⟩
      · obtain ⟨subtype, hsub⟩ := hread (by omega)
        rw [hsub]
        by_cases h01 : subtype = 0 ∨ subtype = 1
        · exact ⟨.set .wmm ⟨pos, elen⟩, if_pos h01, [0, 1], rfl,
            .inr ⟨by omega, subtype, by simpa using h01, hsub⟩, ⟨Nat.zero_le _, hlen⟩, rfl⟩
        · by_cases h2 : subtype = 2
          · exact ⟨.set .wmmTspec ⟨pos, elen⟩, (if_neg h01).trans (if_pos h2), [2], rfl,
              .inr ⟨by omega, subtype, by simpa using h2, hsub⟩, ⟨Nat.zero_le _, hlen⟩, rfl⟩
          · exact ⟨.unknown, (if_neg h01).trans (if_neg h2), trivial⟩
    all_goals first
      | exact ⟨_, rfl, trivial⟩
      | exact ⟨_, rfl, [], rfl, .inl rfl, ⟨Nat.zero_le _, hlen⟩, rfl⟩
  · split
    · rename_i houi
      subst houi
      split
      all_goals first
        | exact ⟨_, rfl, trivial⟩
        | exact ⟨_, rfl, [], rfl, .inl rfl, ⟨Nat.zero_le _, hlen⟩, rfl⟩
    · split
      · rename_i houi
        subst houi
        split
        case h_2 =>
          -- VHT
          split
          · obtain ⟨subtype, hsub⟩ := hread (by omega)
            rw [hsub]
            by_cases h80 : subtype = 8 ∨ subtype = 0
            · exact ⟨.set .vendorVht ⟨pos, elen⟩, if_pos h80, [8, 0], rfl,
                .inr ⟨by omega, subtype, by simpa using h80, hsub⟩, ⟨Nat.zero_le _, hlen⟩, rfl⟩
            · exact ⟨.unknown, if_neg h80, trivial⟩
          · exact ⟨_, rfl, trivial⟩
        all_goals first
          | exact ⟨_, rfl, trivial⟩
          | exact ⟨_, rfl, [], rfl, .inl rfl, ⟨Nat.zero_le _, hlen⟩, rfl⟩
      · split
        · rename_i houi
          subst houi
          split
          · exact ⟨_, rfl, [], rfl, .inl rfl, ⟨Nat.zero_le _, hlen⟩, rfl⟩
          · exact ⟨_, rfl, trivial⟩
        · exact ⟨_, rfl, trivial⟩

theorem getElem?_eq_some_getD {bs : Bytes} {i : Nat} (hi : i < bs.length) : bs[i]? = some (bs.getD i 0) := by
  rw [getD_eq_getElem?_getD, getElem?_eq_getElem hi]
  rfl

def ElemAction.Justified (e : IeAt) : ElemAction → Prop
  | .set m s => m.accepts e = some s
  | .multiBand s => e.id = eidMultiBand ∧ s = e.span
  | .ignored => True
  | .unknown => True

theorem parseVendorSpecific_justified (h : e.In buf) (hlen : e.body.length ≤ 255)
    (hid : e.id = eidVendorSpecific) :
    ∃ a, parseVendorSpecific buf e.off e.body.length = .ok a ∧ a.Justified e := by
  by_cases hfour : e.body.length < 4
  · exact ⟨.unknown, if_pos hfour, trivial⟩
  rw [parseVendorSpecific_in h (by omega)]
  obtain ⟨a, ha, hsets⟩ := vendorAction_sets buf e.off (beNat (e.body.take 3)) (e.body.getD 3 0) hlen
    (fun hfive => ⟨_, readOctet_in h hfive⟩)
  refine ⟨a, ha, ?_⟩
  cases a with
  | set m s =>
    obtain ⟨subtypes, hkind, hsub, hbounds, rfl⟩ := hsets
    apply Elem.accepts_iff.mpr
    refine ⟨?_, hbounds⟩
    rw [hkind]
    refine if_pos ⟨hid, rfl, getElem?_eq_some_getD (by omega), ?_⟩
    rcases hsub with hnil | ⟨hfive, subtype, hmem, hread⟩
    · exact .inl hnil
    · right
      rw [readOctet_in h hfive] at hread
      rw [getElem?_eq_some_getD hfive, Except.ok.inj hread]
      exact decide_eq_true hmem
  | multiBand s => exact hsets.elim
  | ignored => trivial
  | unknown => trivial

theorem parseExtension_justified (h : e.In buf) (hlen : e.body.length ≤ 255) (hid : e.id = eidExtension) :
    ∃ a, parseExtension buf e.off e.body.length = .ok a ∧ a.Justified e := by
  by_cases hone : e.body.length < 1
  · exact ⟨.unknown, if_pos hone, trivial⟩
  rw [parseExtension_in h (by omega)]
  have hsets := extensionAction_sets (e.body.getD 0 0) (e.off + 1) (show e.body.length - 1 ≤ 255 by omega)
  refine ⟨_, rfl, ?_⟩
  cases haction : extensionAction (e.body.getD 0 0) (e.off + 1) (e.body.length - 1) with
  | set m s =>
    rw [haction] at hsets
    obtain ⟨hkind, hbounds, rfl⟩ := hsets
    apply Elem.accepts_iff.mpr
    refine ⟨?_, hbounds⟩
    rw [hkind]
    exact if_pos ⟨hid, getElem?_eq_some_getD (by omega)⟩
  | multiBand s =>
    rw [haction] at hsets
    cases hsets.1
  | ignored => trivial
  | unknown => trivial

theorem parseElement_justified (h : e.In buf) (hlen : e.body.length ≤ 255) :
    ∃ a, parseElement buf e.id e.off e.body.length = .ok a ∧ a.Justified e := by
  by_cases hvendor : e.id = eidVendorSpecific
  · rw [hvendor]
    exact parseVendorSpecific_justified h hlen hvendor
  by_cases hext : e.id = eidExtension
  · rw [hext]
    exact parseExtension_justified h hlen hext
  obtain ⟨a, ha, hsets⟩ := parseElement_sets buf e.off hlen hvendor hext
  refine ⟨a, ha, ?_⟩
  cases a with
  | set m s =>
    obtain ⟨hkind, hbounds, rfl⟩ := hsets
    apply Elem.accepts_iff.mpr
    refine ⟨?_, hbounds⟩
    rw [hkind]
    exact if_pos rfl
  | multiBand s =>
    obtain ⟨hkind, rfl⟩ := hsets
    exact ⟨ElemKind.plain.inj hkind, rfl⟩
  | ignored => trivial
  | unknown => trivial

/-! ## One element after the other -/

/-- What an element does: pointers that take it point to it, and the first Multi-Band elements are kept. -/
def Ieee80211Elems.meet (elems : Ieee80211Elems) (e : IeAt) : Ieee80211Elems where
  ptr m := (m.accepts e).or (elems.ptr m)
  mbIes :=
    if e.id = eidMultiBand ∧ elems.mbIes.length < maxNofMbIes then elems.mbIes ++ [e.span] else elems.mbIes

theorem parseElement_meet (h : e.In buf) (hlen : e.body.length ≤ 255) (elems : Ieee80211Elems) :
    ∃ a, parseElement buf e.id e.off e.body.length = .ok a ∧ elems.apply a = elems.meet e := by
  obtain ⟨a, ha, hjust⟩ := parseElement_justified h hlen
  refine ⟨a, ha, ?_⟩
  -- a pointer that takes the element is the one that is set
  have hptr : ∀ m s, m.accepts e = some s → a = .set m s := by
    intro m s hs
    have hset := parseElement_of_accepts h hs
    rw [ha] at hset
    exact Except.ok.inj hset
  have hmulti : e.id = eidMultiBand → a = .multiBand e.span := by
    intro hid
    have hset : parseElement buf e.id e.off e.body.length = .ok (.multiBand e.span) := by
      rw [hid]
      rfl
    rw [ha] at hset
    exact Except.ok.inj hset
  have hother : (∀ s, a ≠ .multiBand s) → e.id ≠ eidMultiBand := by
    intro hne hid
    exact hne e.span (hmulti hid)
  have hnone : (∀ m s, a ≠ .set m s) → ∀ m : Elem, m.accepts e = none := by
    intro hne m
    cases hs : m.accepts e with
    | none => rfl
    | some s => exact absurd (hptr m s hs) (hne m s)
  unfold Ieee80211Elems.apply Ieee80211Elems.meet
  cases a with
  | set m s =>
    have hid := hother nofun
    rw [if_neg (fun h => hid h.1)]
    show Ieee80211Elems.mk (fun m' => if m' = m then some s else elems.ptr m') elems.mbIes = _
    congr 1
    funext m'
    by_cases hm : m' = m
    · rw [if_pos hm, hm, show m.accepts e = some s from hjust]
      rfl
    · rw [if_neg hm]
      cases hs : m'.accepts e with
      | none => rfl
      | some s' => exact absurd (ElemAction.set.inj (hptr m' s' hs)).1.symm hm
  | multiBand s =>
    obtain ⟨hid, rfl⟩ := hjust
    have hall := hnone nofun
    by_cases hfull : maxNofMbIes ≤ elems.mbIes.length
    · simp only [hall, Option.none_or]
      rw [if_pos hfull, if_neg (fun h => absurd h.2 (by omega))]
    · simp only [hall, Option.none_or]
      rw [if_neg hfull, if_pos ⟨hid, by omega⟩]
  | ignored =>
    have hid := hother nofun
    simp only [hnone nofun, Option.none_or]
    rw [if_neg (fun h => hid h.1)]
  | unknown =>
    have hid := hother nofun
    simp only [hnone nofun, Option.none_or]
    rw [if_neg (fun h => hid h.1)]

end Switch

/-! ## The loop -/

/-- Complete elements one behind the other, up to the first MIC element or to the end. -/
inductive CompleteUpToMic : Bytes → Prop
  | end : CompleteUpToMic []
  | mic (len : UInt8) (body rest : Bytes) (hlen : body.length = len.toNat) :
    CompleteUpToMic (eidMic :: len :: (body ++ rest))
  | next (id len : UInt8) (body rest : Bytes) (hid : id ≠ eidMic) (hlen : body.length = len.toNat)
    (hrest : CompleteUpToMic rest) : CompleteUpToMic (id :: len :: (body ++ rest))

def upToMic : List IeAt → List IeAt
  | [] => []
  | e :: els => if e.id = eidMic then [e] else e :: upToMic els

/-- The elements the parser goes through: those up to the first MIC element or up to one that is cut off. -/
def parsedElems (buf : Bytes) : List IeAt := upToMic (iesAt buf.length 0 buf)

section Loop

variable {buf : Bytes} {id len : UInt8} {rest : Bytes}

theorem CompleteUpToMic.not_cut (hcut : rest.length < len.toNat) : ¬ CompleteUpToMic (id :: len :: rest) := by
  intro h
  cases h with
  | mic _ body rest hlen =>
    rw [length_append] at hcut
    omega
  | next _ _ body rest hid hlen hrest =>
    rw [length_append] at hcut
    omega

theorem CompleteUpToMic.cons_iff (hid : id ≠ eidMic) (hlen : len.toNat ≤ rest.length) :
    CompleteUpToMic (id :: len :: rest) ↔ CompleteUpToMic (rest.drop len.toNat) := by
  constructor
  · intro h
    cases h with
    | mic => exact absurd rfl hid
    | next _ _ body rest _ hbody hrest =>
      rw [← hbody, drop_left]
      exact hrest
  · intro h
    rw [← take_append_drop len.toNat rest]
    exact .next id len _ _ hid (length_take_of_le hlen) h

theorem CompleteUpToMic.of_mic (hlen : len.toNat ≤ rest.length) : CompleteUpToMic (eidMic :: len :: rest) := by
  rw [← take_append_drop len.toNat rest]
  exact .mic len _ _ (length_take_of_le hlen)

theorem parseElemsFrom_zero (buf : Bytes) (pos unknown : Nat) (elems : Ieee80211Elems) :
    ∃ res, parseElemsFrom buf pos 0 unknown elems = .ok (res, elems) ∧ res ≠ .failed := by
  unfold parseElemsFrom
  refine ⟨if unknown ≠ 0 then .unknown else .ok, rfl, ?_⟩
  split <;> exact nofun

theorem parseElemsFrom_one (pos unknown : Nat) (elems : Ieee80211Elems) :
    parseElemsFrom buf pos 1 unknown elems = .ok (.failed, elems) := by
  unfold parseElemsFrom
  rfl

theorem iesAt_nil (fuel off : Nat) : iesAt fuel off [] = [] := by
  cases fuel <;> rfl

theorem iesAt_singleton (fuel off : Nat) (octet : UInt8) : iesAt fuel off [octet] = [] := by
  cases fuel <;> rfl

theorem readOctet_drop {pos : Nat} {octet : UInt8} {tail : Bytes} (h : buf.drop pos = octet :: tail) :
    readOctet buf pos = .ok octet := by
  have hlt : pos < buf.length := by
    have hlen := congrArg List.length h
    rw [length_drop, length_cons] at hlen
    omega
  have hget : buf[pos]? = some octet := by
    rw [← Nat.add_zero pos, ← getElem?_drop, h]
    rfl
  unfold readOctet
  rw [if_pos hlt, getD_eq_getElem?_getD, hget]
  rfl

theorem parseElemsFrom_spec (buf : Bytes) (left : Nat) : ∀ (pos unknown fuel : Nat) (elems : Ieee80211Elems),
    pos + left = buf.length → left ≤ fuel →
    ∃ res, parseElemsFrom buf pos left unknown elems =
        .ok (res, (upToMic (iesAt fuel pos (buf.drop pos))).foldl Ieee80211Elems.meet elems) ∧
      (res = .failed ↔ ¬ CompleteUpToMic (buf.drop pos)) := by
  induction left using Nat.strong_induction_on with
  | h left ih =>
    intro pos unknown fuel elems hpos hfuel
    have hlength : (buf.drop pos).length = left := by
      rw [length_drop]
      omega
    rcases hdrop : buf.drop pos with _ | ⟨id, _ | ⟨len, rest⟩⟩ <;> rw [hdrop] at hlength
    · -- the end
      have hleft : left = 0 := hlength.symm
      obtain ⟨res, hres, hne⟩ := parseElemsFrom_zero buf pos unknown elems
      rw [hleft, hres, iesAt_nil]
      exact ⟨res, rfl, iff_of_false hne (fun h => h .end)⟩
    · -- half a header
      have hleft : left = 1 := hlength.symm
      rw [hleft, parseElemsFrom_one, iesAt_singleton]
      exact ⟨.failed, rfl, iff_of_true rfl nofun⟩
    · have hrest : rest.length + 2 = left := hlength
      have htail : buf.drop (pos + 1) = len :: rest := by
        rw [← drop_drop, hdrop]
        rfl
      have hturn : parseElemsFrom buf pos left unknown elems =
          if left - 2 < len.toNat then .ok (.failed, elems)
          else (parseElement buf id (pos + 2) len.toNat).bind fun action =>
            parseElemsFrom buf (pos + 2 + len.toNat) ((if id = eidMic then len.toNat else left - 2) - len.toNat)
              (action.countUnknown unknown) (elems.apply action) := by
        conv_lhs => unfold parseElemsFrom
        refine (if_pos (by omega)).trans ?_
        exact (bind_of_ok (readOctet_drop hdrop) _).trans (bind_of_ok (readOctet_drop htail) _)
      rw [hturn]
      obtain ⟨fuel, rfl⟩ : ∃ n, fuel = n + 1 := ⟨fuel - 1, by omega⟩
      by_cases hcut : rest.length < len.toNat
      · rw [if_pos (by omega), iesAt_cut hcut]
        exact ⟨.failed, rfl, iff_of_true rfl (CompleteUpToMic.not_cut hcut)⟩
      · have hprefix : (id :: len :: rest) <+: buf.drop pos :=
          ⟨[], by rw [append_nil, hdrop]⟩
        have hin := IeAt.in_of_prefix hprefix (Nat.le_of_not_lt hcut)
        have hbody : (rest.take len.toNat).length = len.toNat := length_take_of_le (by omega)
        have hoctet : (rest.take len.toNat).length ≤ 255 := by
          have hlt := len.toNat_lt
          omega
        obtain ⟨a, ha, hmeet⟩ := parseElement_meet hin hoctet elems
        dsimp only at ha
        rw [hbody] at ha
        rw [if_neg (by omega), ha, iesAt_cons hcut]
        show ∃ res, parseElemsFrom buf (pos + 2 + len.toNat) _ _ (elems.apply a) = _ ∧ _
        rw [hmeet, upToMic]
        by_cases hmic : id = eidMic
        · -- nothing is left
          rw [if_pos hmic, if_pos hmic, Nat.sub_self]
          obtain ⟨res, hres, hne⟩ := parseElemsFrom_zero buf (pos + 2 + len.toNat)
            (a.countUnknown unknown) (elems.meet ⟨id, pos + 2, rest.take len.toNat⟩)
          rw [hres, hmic]
          exact ⟨res, rfl, iff_of_false hne (fun h => h (.of_mic (Nat.le_of_not_lt hcut)))⟩
        · rw [if_neg hmic, if_neg hmic, CompleteUpToMic.cons_iff hmic (Nat.le_of_not_lt hcut)]
          have hnext : buf.drop (pos + 2 + len.toNat) = rest.drop len.toNat := by
            rw [← drop_drop, ← drop_drop, hdrop]
            rfl
          have hrec := ih (left - 2 - len.toNat) (by omega) (pos + 2 + len.toNat) (a.countUnknown unknown) fuel
            (elems.meet ⟨id, pos + 2, rest.take len.toNat⟩) (by omega) (by omega)
          rw [hnext] at hrec
          exact hrec

end Loop

/-! ## The last element -/

/-- The body of the last element the pointer takes, inside the buffer. -/
structure PointsToLast (buf : Bytes) (m : Elem) (s : Span) : Prop where
  inside : s.off + s.len ≤ buf.length
  limits : m.minLen ≤ s.len ∧ s.len ≤ m.maxLen
  last : ∃ before e after, parsedElems buf = before ++ e :: after ∧ e.In buf ∧ m.accepts e = some s ∧
    ∀ e' ∈ after, m.accepts e' = none

def multiBands (els : List IeAt) : List Span := (els.filter (·.id = eidMultiBand)).map IeAt.span

section Last

variable {buf : Bytes} {m : Elem} {s : Span}

theorem mem_of_mem_upToMic {e : IeAt} {els : List IeAt} (h : e ∈ upToMic els) : e ∈ els := by
  induction els with
  | nil => cases h
  | cons e' els ih =>
    unfold upToMic at h
    split at h
    · rw [mem_singleton.mp h]
      exact mem_cons_self
    · rcases mem_cons.mp h with rfl | h
      · exact mem_cons_self
      · exact mem_cons_of_mem _ (ih h)

theorem parsedElems_in {e : IeAt} (h : e ∈ parsedElems buf) :
    e.In buf ∧ e.off + e.body.length ≤ buf.length := by
  have hmem := mem_of_mem_upToMic h
  have hinside := iesAt_inside _ e hmem
  exact ⟨iesAt_in _ (prefix_refl _) e hmem, by omega⟩

theorem foldl_meet_ptr {els : List IeAt} (h : (els.foldl Ieee80211Elems.meet {}).ptr m = some s) :
    ∃ before e after, els = before ++ e :: after ∧ m.accepts e = some s ∧
      ∀ e' ∈ after, m.accepts e' = none := by
  induction els using List.reverseRecOn with
  | nil => cases h
  | append_singleton els e ih =>
    rw [foldl_append] at h
    have hor : (m.accepts e).or ((els.foldl Ieee80211Elems.meet {}).ptr m) = some s := h
    cases hs : m.accepts e with
    | some s' =>
      rw [hs] at hor
      cases hor
      exact ⟨els, e, [], rfl, hs, fun e' he' => by cases he'⟩
    | none =>
      rw [hs, Option.none_or] at hor
      obtain ⟨before, e₁, after, rfl, he₁, hafter⟩ := ih hor
      refine ⟨before, e₁, after ++ [e], by simp, he₁, ?_⟩
      intro e' he'
      rcases mem_append.mp he' with he' | he'
      · exact hafter e' he'
      · rw [mem_singleton.mp he']
        exact hs

theorem multiBands_concat (els : List IeAt) (e : IeAt) :
    multiBands (els ++ [e]) = multiBands els ++ if e.id = eidMultiBand then [e.span] else [] := by
  unfold multiBands
  rw [filter_append, map_append]
  congr 1
  by_cases hid : e.id = eidMultiBand
  · rw [if_pos hid, filter_singleton, decide_eq_true hid]
    rfl
  · rw [if_neg hid, filter_singleton, decide_eq_false hid]
    rfl

theorem foldl_meet_mbIes (els : List IeAt) :
    (els.foldl Ieee80211Elems.meet {}).mbIes = (multiBands els).take maxNofMbIes := by
  induction els using List.reverseRecOn with
  | nil => rfl
  | append_singleton els e ih =>
    rw [foldl_append, multiBands_concat]
    show (if e.id = eidMultiBand ∧ (els.foldl Ieee80211Elems.meet {}).mbIes.length < maxNofMbIes then
      (els.foldl Ieee80211Elems.meet {}).mbIes ++ [e.span] else (els.foldl Ieee80211Elems.meet {}).mbIes) = _
    rw [ih, length_take]
    by_cases hid : e.id = eidMultiBand
    · rw [if_pos hid]
      by_cases hroom : (multiBands els).length < maxNofMbIes
      · have hlen : (multiBands els ++ [e.span]).length ≤ maxNofMbIes := by
          rw [length_append]
          show _ + 1 ≤ _
          omega
        rw [if_pos ⟨hid, by omega⟩, take_of_length_le (by omega), take_of_length_le hlen]
      · rw [if_neg (fun h => hroom (by omega)), take_append_of_le_length (by omega)]
    · rw [if_neg (fun h => hid h.1), if_neg hid, append_nil]

theorem Elem.accepts_within {e : IeAt} (h : m.accepts e = some s) :
    s.off + s.len ≤ e.off + e.body.length := by
  obtain ⟨hvalue, -⟩ := Elem.accepts_iff.mp h
  cases hkind : m.kind with
  | plain id =>
    rw [hkind] at hvalue
    obtain ⟨-, heq⟩ := Option.ite_none_right_eq_some.mp hvalue
    cases heq
    exact Nat.le_refl _
  | vendor oui type subtypes =>
    rw [hkind] at hvalue
    obtain ⟨-, heq⟩ := Option.ite_none_right_eq_some.mp hvalue
    cases heq
    exact Nat.le_refl _
  | extension extId =>
    rw [hkind] at hvalue
    obtain ⟨⟨-, hext⟩, heq⟩ := Option.ite_none_right_eq_some.mp hvalue
    cases heq
    obtain ⟨hlen, -⟩ := List.getElem?_eq_some_iff.mp hext
    show e.off + 1 + (e.body.length - 1) ≤ _
    omega

theorem pointsToLast_of_ptr (h : ((parsedElems buf).foldl Ieee80211Elems.meet {}).ptr m = some s) :
    PointsToLast buf m s := by
  obtain ⟨before, e, after, hsplit, haccepts, hafter⟩ := foldl_meet_ptr h
  have hmem : e ∈ parsedElems buf := by
    rw [hsplit]
    exact mem_append_right _ mem_cons_self
  obtain ⟨hin, hend⟩ := parsedElems_in hmem
  have hwithin := Elem.accepts_within haccepts
  exact ⟨by omega, (Elem.accepts_iff.mp haccepts).2, before, e, after, hsplit, hin, haccepts, hafter⟩

end Last

/-- **What `ieee802_11_parse_elems()` returns.** It ends without reading outside the buffer, and fails exactly
if the elements up to the first MIC element are not complete. In any case each pointer is to the last element it
takes, and `mb_ies` has the first Multi-Band elements. -/
theorem parse_elems_points_to_last (buf : Bytes) :
    ∃ res elems, ieee80211ParseElems buf = .ok (res, elems) ∧
      (res = .failed ↔ ¬ CompleteUpToMic buf) ∧
      (∀ m s, elems.ptr m = some s → PointsToLast buf m s) ∧
      elems.mbIes = (multiBands (parsedElems buf)).take maxNofMbIes ∧
      ∀ s ∈ elems.mbIes, s.off + s.len ≤ buf.length := by
  obtain ⟨res, hres, hfailed⟩ := parseElemsFrom_spec buf buf.length 0 0 buf.length {} (by omega) (Nat.le_refl _)
  refine ⟨res, (parsedElems buf).foldl Ieee80211Elems.meet {}, hres, hfailed, ?_, foldl_meet_mbIes _, ?_⟩
  · intro m s h
    exact pointsToLast_of_ptr h
  · intro s hs
    rw [foldl_meet_mbIes] at hs
    obtain ⟨e, he, rfl⟩ := mem_map.mp (mem_of_mem_take hs)
    exact (parsedElems_in (mem_filter.mp he).1).2

/-- The first of two Multi-Band elements stays in `mb_ies`. -/
theorem parse_elems_first_multi_band :
    ∃ res elems s, ieee80211ParseElems [158, 1, 7, 158, 1, 8] = .ok (res, elems) ∧ s ∈ elems.mbIes ∧
      ¬ ∃ before e after, parsedElems [158, 1, 7, 158, 1, 8] = before ++ e :: after ∧ e.id = eidMultiBand ∧
        s = e.span ∧ ∀ e' ∈ after, e'.id ≠ eidMultiBand := by
  obtain ⟨res, hres, -⟩ := parseElemsFrom_spec [158, 1, 7, 158, 1, 8] 6 0 0 6 {} (by decide) (by decide)
  refine ⟨res, _, ⟨2, 1⟩, hres, ?_, ?_⟩
  · rw [foldl_meet_mbIes]
    decide
  · rintro ⟨before, e, after, hsplit, -, hspan, hafter⟩
    have htwo : [(⟨158, 2, [7]⟩ : IeAt), ⟨158, 5, [8]⟩] = before ++ e :: after := hsplit
    rcases before with _ | ⟨e₁, _ | ⟨e₂, before⟩⟩
    · -- the second one is behind it
      obtain ⟨-, hrest⟩ := List.cons.inj htwo
      subst hrest
      exact hafter ⟨158, 5, [8]⟩ mem_cons_self rfl
    · obtain ⟨-, hrest⟩ := List.cons.inj htwo
      obtain ⟨rfl, -⟩ := List.cons.inj hrest
      cases hspan
    · have hlen := congrArg List.length htwo
      simp at hlen

end Hostap
