import Hostap.Ap.DynVlan
import Hostap.Lib.Tlv
import Hostap.Rsn.SmallLib
import Mathlib.Data.List.Nodup
import Mathlib.Data.List.TakeWhile

/-!
# Messages between key holders

Key holders of a mobility domain exchange messages of type-length-value records, some of them
authenticated and the rest encrypted with AES-SIV (`src/ap/wpa_auth_ft.c`). The sender computes the
length of the records with one set of functions (`wpa_ft_tlv_len()`, `wpa_ft_vlan_len()`), writes them
with another (`wpa_ft_tlv_lin()`, `wpa_ft_vlan_lin()`), and gives up if the two differ.

The writers stop when they run out of room, and what they return then is not what they wrote. With the
room that was computed they write every record: `wpaFtRrbLin_eq` says that the result is the list of
records with those of the VLAN at its end. Everything the receiver does is then about that list.
-/

namespace Hostap

open Octets List

/-! ## Records -/

/-- `struct ft_rrb_tlv`. -/
def ftRrbFormat : Tlv.Format UInt16 where
  hdrLen := 4
  header type n := le16 type.toNat ++ le16 n
  read bs := some (UInt16.ofNat (getLe16 bs), getLe16 (bs.drop 2))
  fits _ n := n ≤ 0xffff
  hdrLen_pos := Tlv.le16Format.hdrLen_pos
  header_length := Tlv.le16Format.header_length
  read_header := Tlv.le16Format.read_header

/-- `FT_RRB_LAST_EMPTY`. -/
abbrev ftRrbLastEmpty : UInt16 := 0

/-- `FT_RRB_VLAN_UNTAGGED`. -/
abbrev ftRrbVlanUntagged : UInt16 := 13

/-- `FT_RRB_VLAN_TAGGED`. -/
abbrev ftRrbVlanTagged : UInt16 := 14

/-- `MAX_NUM_TAGGED_VLAN`. -/
abbrev maxNumTaggedVlan : Nat := 32

/-- `struct tlv_list`: a list of records, up to the one of type `FT_RRB_LAST_EMPTY`. -/
abbrev TlvList := List (UInt16 × Bytes)

/-- `struct vlan_description`. -/
structure VlanDescription where
  notempty : Bool := false
  untagged : Nat := 0
  tagged : List Nat := []
  deriving DecidableEq

/-- The tagged VLANs: the items of the array up to the first that is zero. -/
def VlanDescription.ids (vlan : VlanDescription) : List Nat :=
  (vlan.tagged.take maxNumTaggedVlan).takeWhile (· ≠ 0)

/-! ## Building -/

/-- `wpa_ft_tlv_len()`. -/
def wpaFtTlvLen : TlvList → Nat
  | [] => 0
  | t :: ts => if t.1 = ftRrbLastEmpty then 0 else 4 + t.2.length + wpaFtTlvLen ts

/-- The loop of `wpa_ft_tlv_lin()`; `n` octets were written before. -/
def tlvLinFrom (room : Nat) : Nat → TlvList → Bytes
  | _, [] => []
  | n, t :: ts =>
    if t.1 = ftRrbLastEmpty then
      []
    else if room < n + 4 then
      []
    else if room < n + 4 + t.2.length then
      ftRrbFormat.header t.1 t.2.length
    else
      ftRrbFormat.header t.1 t.2.length ++ t.2 ++ tlvLinFrom room (n + 4 + t.2.length) ts

/-- `wpa_ft_tlv_lin()`. -/
def wpaFtTlvLin (room : Nat) (tlvs : TlvList) : Bytes := tlvLinFrom room 0 tlvs

/-- `wpa_ft_vlan_len()`. -/
def wpaFtVlanLen : Option VlanDescription → Nat
  | none => 0
  | some vlan =>
    if vlan.notempty then
      (if vlan.untagged ≠ 0 then 6 else 0) + (if vlan.ids ≠ [] then 4 else 0) + 2 * vlan.ids.length
    else
      0

/-- The loop of `wpa_ft_vlan_lin()` over the tagged VLANs: what is written and the length after it. -/
def vlanLinTagged (room : Nat) : Nat → List Nat → Bytes × Nat
  | n, [] => ([], n)
  | n, id :: ids =>
    if room < n + 2 then
      ([], n + 2)
    else
      let r := vlanLinTagged room (n + 2) ids
      (le16 id ++ r.1, r.2)

/-- The first part of `wpa_ft_vlan_lin()`; there is no way on if the room does not suffice. -/
def vlanLinUntagged (room : Nat) (vlan : VlanDescription) : Bytes × Nat × Bool :=
  if vlan.untagged = 0 then ([], 0, true)
  else if room < 4 then ([], 4, false)
  else if room < 6 then (ftRrbFormat.header ftRrbVlanUntagged 2, 6, false)
  else (ftRrbFormat.header ftRrbVlanUntagged 2 ++ le16 vlan.untagged, 6, true)

/-- `wpa_ft_vlan_lin()`: what is written and what is returned. -/
def wpaFtVlanLin (room : Nat) : Option VlanDescription → Bytes × Nat
  | none => ([], 0)
  | some vlan =>
    if vlan.notempty then
      let r := vlanLinUntagged room vlan
      if ¬ r.2.2 ∨ vlan.ids = [] then
        (r.1, r.2.1)
      else if room < r.2.1 + 4 then
        (r.1, r.2.1 + 4)
      else
        let t := vlanLinTagged room (r.2.1 + 4) vlan.ids
        (r.1 ++ ftRrbFormat.header ftRrbVlanTagged t.1.length ++ t.1, t.2)
    else
      ([], 0)

/-- `wpa_ft_rrb_lin()`. -/
def wpaFtRrbLin (tlvs1 tlvs2 : TlvList) (vlan : Option VlanDescription) : Option Bytes :=
  let tlvLen := wpaFtTlvLen tlvs1 + wpaFtTlvLen tlvs2 + wpaFtVlanLen vlan
  let w₁ := wpaFtTlvLin tlvLen tlvs1
  let w₂ := wpaFtTlvLin (tlvLen - w₁.length) tlvs2
  let w₃ := wpaFtVlanLin (tlvLen - w₁.length - w₂.length) vlan
  if w₁.length + w₂.length + w₃.2 = tlvLen then
    some (w₁ ++ w₂ ++ w₃.1 ++ zeros (tlvLen - (w₁ ++ w₂ ++ w₃.1).length))
  else
    none

/-- AES-SIV, as `aes_siv_encrypt()` and `aes_siv_decrypt()` provide it. Decryption inverts
encryption. -/
structure AesSivLib where
  encrypt : Bytes → List Bytes → Bytes → Option Bytes
  decrypt : Bytes → List Bytes → Bytes → Option Bytes
  inverts : ∀ key ads plain, key.length = 32 ∨ key.length = 48 ∨ key.length = 64 →
    ∃ enc, encrypt key ads plain = some enc ∧ enc.length = plain.length + 16 ∧
      decrypt key ads enc = some plain

/-- `wpa_ft_rrb_encrypt()`. -/
def wpaFtRrbEncrypt (lib : AesSivLib) (key : Option Bytes) (plain auth srcAddr : Bytes) (type : UInt8) :
    Option Bytes :=
  match key with
  | none => some plain
  | some key => lib.encrypt key [srcAddr, auth, [type]] plain

/-- `wpa_ft_rrb_build()`. -/
def wpaFtRrbBuild (lib : AesSivLib) (key : Option Bytes) (tlvsEnc0 tlvsEnc1 tlvsAuth : TlvList)
    (vlan : Option VlanDescription) (srcAddr : Bytes) (type : UInt8) : Option Bytes :=
  match wpaFtRrbLin tlvsEnc0 tlvsEnc1 vlan with
  | none => none
  | some plain =>
    match wpaFtRrbLin tlvsAuth [] none with
    | none => none
    | some auth => (wpaFtRrbEncrypt lib key plain auth srcAddr type).map fun enc =>
        le16 auth.length ++ auth ++ enc

/-! ## Reading -/

/-- The parts `wpa_ft_rrb_oui_rx()` finds in a message: authenticated and encrypted. -/
def rrbParts (data : Bytes) : Option (Bytes × Bytes) :=
  if data.length < 2 then
    none
  else
    let alen := getLe16 data
    if data.length < 2 + alen then
      none
    else
      some ((data.drop 2).take alen, data.drop (2 + alen))

/-- `wpa_ft_rrb_decrypt()`. -/
def wpaFtRrbDecrypt (lib : AesSivLib) (key : Option Bytes) (enc auth srcAddr : Bytes) (type : UInt8) :
    Option Bytes :=
  match key with
  | none => some enc
  | some key => if enc.length < 16 then none else lib.decrypt key [srcAddr, auth, [type]] enc

/-- The loop of `wpa_ft_rrb_get_tlv()`; `n` is at least the number of octets left. -/
def getTlvFrom (type : UInt16) : Nat → Bytes → Option Bytes
  | 0, _ => none
  | n + 1, plain =>
    match Tlv.next ftRrbFormat plain with
    | none => none
    | some (t, value, rest) => if t = type then some value else getTlvFrom type n rest

/-- `wpa_ft_rrb_get_tlv()`. -/
def wpaFtRrbGetTlv (plain : Bytes) (type : UInt16) : Option Bytes := getTlvFrom type plain.length plain

/-- The VLAN ids of a record: an id that is not valid is passed over, and so are those there is no
room for. -/
def readVlanIds (untagged : Bool) : Bytes → VlanDescription → VlanDescription
  | a :: b :: rest, vlan =>
    let id := a.toNat + 256 * b.toNat
    readVlanIds untagged rest <|
      if id = 0 ∨ maxVlanId < id then vlan
      else if untagged then { vlan with untagged := id }
      else if vlan.tagged.length < maxNumTaggedVlan then { vlan with tagged := vlan.tagged ++ [id] }
      else vlan
  | _, vlan => vlan

/-- A record in the loop of `wpa_ft_rrb_get_tlv_vlan()`. -/
def readVlanTlv (type : UInt16) (value : Bytes) (vlan : VlanDescription) : Option VlanDescription :=
  if type = ftRrbVlanUntagged then
    if value.length ≠ 2 then none else some (readVlanIds true value vlan)
  else if type = ftRrbVlanTagged then
    if value.length % 2 ≠ 0 then none else some (readVlanIds false value vlan)
  else
    some vlan

/-- The loop of `wpa_ft_rrb_get_tlv_vlan()`; `n` is at least the number of octets left. -/
def getTlvVlanFrom : Nat → Bytes → VlanDescription → Option VlanDescription
  | 0, _, vlan => some vlan
  | n + 1, plain, vlan =>
    if plain.length < 4 then
      some vlan
    else
      match Tlv.next ftRrbFormat plain with
      | none => none
      | some (type, value, rest) =>
        match readVlanTlv type value vlan with
        | none => none
        | some vlan => getTlvVlanFrom n rest vlan

/-- `wpa_ft_rrb_get_tlv_vlan()`. -/
def wpaFtRrbGetTlvVlan (plain : Bytes) : Option VlanDescription :=
  (getTlvVlanFrom plain.length plain {}).map fun vlan =>
    let tagged := vlan.tagged.mergeSort
    { vlan with tagged := tagged, notempty := vlan.untagged ≠ 0 || tagged ≠ [] }

/-! ## What is written -/

/-- A description as the configuration makes them: ids are at most 4094, the tagged ones in ascending
order, and `notempty` says whether there are any. -/
structure VlanDescription.Valid (vlan : VlanDescription) : Prop where
  untagged_le : vlan.untagged ≤ maxVlanId
  pos : ∀ id ∈ vlan.tagged, 0 < id
  le : ∀ id ∈ vlan.tagged, id ≤ maxVlanId
  sorted : vlan.tagged.Pairwise (· < ·)
  room : vlan.tagged.length ≤ maxNumTaggedVlan
  notempty_eq : vlan.notempty = (vlan.untagged ≠ 0 || vlan.tagged ≠ [])

/-- Records that can be written. -/
structure TlvList.Valid (tlvs : TlvList) : Prop where
  types : ∀ t ∈ tlvs, t.1 ≠ ftRrbLastEmpty
  lens : ∀ t ∈ tlvs, t.2.length ≤ 65535

def untaggedTlvs (vlan : VlanDescription) : TlvList :=
  if vlan.untagged ≠ 0 then [(ftRrbVlanUntagged, le16 vlan.untagged)] else []

def taggedTlvs (vlan : VlanDescription) : TlvList :=
  if vlan.tagged ≠ [] then [(ftRrbVlanTagged, vlan.tagged.flatMap le16)] else []

def vlanTlvs (vlan : VlanDescription) : TlvList := untaggedTlvs vlan ++ taggedTlvs vlan

section Written

variable {tlvs : TlvList} {vlan : VlanDescription}

theorem VlanDescription.Valid.ids_eq (h : vlan.Valid) : vlan.ids = vlan.tagged := by
  unfold VlanDescription.ids
  rw [take_of_length_le h.room]
  refine takeWhile_eq_self_iff.2 fun id hid => ?_
  exact decide_eq_true (Nat.ne_of_gt (h.pos id hid))

theorem length_encode (t : UInt16 × Bytes) : (Tlv.encode ftRrbFormat t).length = 4 + t.2.length :=
  Tlv.encode_length t

theorem wpaFtTlvLen_eq (h : ∀ t ∈ tlvs, t.1 ≠ ftRrbLastEmpty) :
    wpaFtTlvLen tlvs = (Tlv.encodeAll ftRrbFormat tlvs).length := by
  induction tlvs with
  | nil => rfl
  | cons t ts ih =>
    rw [wpaFtTlvLen, if_neg (h t mem_cons_self), Tlv.encodeAll_cons, length_append,
      length_encode, ih fun t' ht' => h t' (mem_cons_of_mem _ ht')]

theorem tlvLinFrom_eq (h : ∀ t ∈ tlvs, t.1 ≠ ftRrbLastEmpty) {room n : Nat}
    (hroom : n + (Tlv.encodeAll ftRrbFormat tlvs).length ≤ room) :
    tlvLinFrom room n tlvs = Tlv.encodeAll ftRrbFormat tlvs := by
  induction tlvs generalizing n with
  | nil => rfl
  | cons t ts ih =>
    rw [Tlv.encodeAll_cons, length_append, length_encode] at hroom
    rw [tlvLinFrom, if_neg (h t mem_cons_self), if_neg (by omega), if_neg (by omega),
      ih (fun t' ht' => h t' (mem_cons_of_mem _ ht')) (by omega)]
    rfl

theorem length_flatMap_le16 (ids : List Nat) : (ids.flatMap le16).length = 2 * ids.length := by
  induction ids with
  | nil => rfl
  | cons id ids ih =>
    rw [flatMap_cons, length_append, ih, le16_length, length_cons]
    omega

theorem vlanLinTagged_eq {room n : Nat} {ids : List Nat} (hroom : n + 2 * ids.length ≤ room) :
    vlanLinTagged room n ids = (ids.flatMap le16, n + 2 * ids.length) := by
  induction ids generalizing n with
  | nil => rfl
  | cons id ids ih =>
    rw [length_cons] at hroom
    rw [vlanLinTagged, if_neg (by omega), ih (by omega), flatMap_cons, length_cons]
    simp only [Prod.mk.injEq, true_and]
    omega

theorem length_untaggedTlvs (vlan : VlanDescription) :
    (Tlv.encodeAll ftRrbFormat (untaggedTlvs vlan)).length = if vlan.untagged ≠ 0 then 6 else 0 := by
  unfold untaggedTlvs
  split
  · rfl
  · rfl

theorem length_taggedTlvs (vlan : VlanDescription) :
    (Tlv.encodeAll ftRrbFormat (taggedTlvs vlan)).length =
      (if vlan.tagged ≠ [] then 4 else 0) + 2 * vlan.tagged.length := by
  unfold taggedTlvs
  split
  · rw [Tlv.encodeAll_cons, length_append, length_encode, length_flatMap_le16]
    rfl
  · rename_i hnil
    rw [not_not.1 hnil]
    rfl

theorem vlanLinUntagged_eq {room : Nat}
    (hroom : (Tlv.encodeAll ftRrbFormat (untaggedTlvs vlan)).length ≤ room) :
    vlanLinUntagged room vlan = (Tlv.encodeAll ftRrbFormat (untaggedTlvs vlan),
      (Tlv.encodeAll ftRrbFormat (untaggedTlvs vlan)).length, true) := by
  rw [length_untaggedTlvs] at hroom ⊢
  unfold vlanLinUntagged untaggedTlvs
  by_cases hu : vlan.untagged = 0
  · simp [hu]
  · rw [if_pos hu] at hroom
    rw [if_neg hu, if_neg (by omega), if_neg (by omega), if_pos hu, if_pos hu]
    rfl

theorem VlanDescription.Valid.len_eq (h : vlan.Valid) :
    wpaFtVlanLen (some vlan) = (Tlv.encodeAll ftRrbFormat (vlanTlvs vlan)).length := by
  unfold vlanTlvs
  rw [Tlv.encodeAll_append, length_append, length_untaggedTlvs, length_taggedTlvs, wpaFtVlanLen,
    h.ids_eq, h.notempty_eq]
  by_cases hu : vlan.untagged = 0
  · by_cases ht : vlan.tagged = []
    · simp [hu, ht]
    · simp [hu, ht]
  · simp [hu, Nat.add_assoc]

theorem VlanDescription.Valid.lin_eq (h : vlan.Valid) {room : Nat}
    (hroom : wpaFtVlanLen (some vlan) ≤ room) : wpaFtVlanLin room (some vlan) =
      (Tlv.encodeAll ftRrbFormat (vlanTlvs vlan), wpaFtVlanLen (some vlan)) := by
  have hroom' := hroom
  rw [h.len_eq] at hroom' ⊢
  unfold vlanTlvs at hroom' ⊢
  rw [Tlv.encodeAll_append, length_append] at hroom' ⊢
  rw [wpaFtVlanLin]
  split
  · simp only
    rw [vlanLinUntagged_eq (by omega), h.ids_eq]
    simp only [not_true, false_or]
    rw [length_taggedTlvs] at hroom' ⊢
    unfold taggedTlvs
    by_cases ht : vlan.tagged = []
    · simp [ht]
    · simp only [ht, ne_eq, not_false_eq_true, if_true, if_false] at hroom' ⊢
      rw [if_neg (by omega), vlanLinTagged_eq (by omega)]
      simp only [Tlv.encodeAll_cons, Tlv.encodeAll_nil, Tlv.encode, append_nil,
        append_assoc, Nat.add_assoc]
  · rename_i hempty
    have hnone : vlan.untagged = 0 ∧ vlan.tagged = [] := by
      have := h.notempty_eq
      simpa [this] using hempty
    simp [untaggedTlvs, taggedTlvs, hnone.1, hnone.2]

theorem vlanLin_eq (vlan : Option VlanDescription) (h : ∀ v ∈ vlan, v.Valid) :
    wpaFtVlanLen vlan = (Tlv.encodeAll ftRrbFormat (vlanTlvs (vlan.getD {}))).length ∧
    ∀ room, wpaFtVlanLen vlan ≤ room → wpaFtVlanLin room vlan =
      (Tlv.encodeAll ftRrbFormat (vlanTlvs (vlan.getD {})), wpaFtVlanLen vlan) := by
  cases vlan with
  | none => exact ⟨rfl, fun _ _ => rfl⟩
  | some v => exact ⟨(h v rfl).len_eq, fun room hroom => (h v rfl).lin_eq hroom⟩

theorem wpaFtRrbLin_eq {tlvs' : TlvList} (h : ∀ t ∈ tlvs, t.1 ≠ ftRrbLastEmpty)
    (h' : ∀ t ∈ tlvs', t.1 ≠ ftRrbLastEmpty) (vlan : Option VlanDescription)
    (hvlan : ∀ v ∈ vlan, v.Valid) : wpaFtRrbLin tlvs tlvs' vlan =
      some (Tlv.encodeAll ftRrbFormat (tlvs ++ tlvs' ++ vlanTlvs (vlan.getD {}))) := by
  obtain ⟨hlen, hlin⟩ := vlanLin_eq vlan hvlan
  unfold wpaFtRrbLin wpaFtTlvLin
  simp only
  rw [wpaFtTlvLen_eq h, wpaFtTlvLen_eq h', tlvLinFrom_eq h (by omega), tlvLinFrom_eq h' (by omega),
    hlin _ (by omega)]
  simp only
  rw [if_pos trivial, Tlv.encodeAll_append, Tlv.encodeAll_append, hlen]
  simp [zeros, Nat.add_assoc]

end Written

/-! ## What is read -/

section Read

variable {tlvs : TlvList} {vlan : VlanDescription}

theorem getTlvFrom_encodeAll (type : UInt16) (h : ∀ t ∈ tlvs, t.2.length ≤ 65535) {n : Nat}
    (hn : (Tlv.encodeAll ftRrbFormat tlvs).length ≤ n) :
    getTlvFrom type n (Tlv.encodeAll ftRrbFormat tlvs) =
      (tlvs.find? fun t => t.1 = type).map (·.2) := by
  induction tlvs generalizing n with
  | nil =>
    cases n with
    | zero => rfl
    | succ n => rw [Tlv.encodeAll_nil, getTlvFrom, Tlv.next_nil]; rfl
  | cons t ts ih =>
    rw [Tlv.encodeAll_cons, length_append, length_encode] at hn
    cases n with
    | zero => omega
    | succ n =>
      rw [Tlv.encodeAll_cons, getTlvFrom, Tlv.next_encode (h t mem_cons_self)]
      simp only
      by_cases htype : t.1 = type
      · rw [if_pos htype, find?_cons_of_pos (by simpa using htype)]
        rfl
      · rw [if_neg htype, find?_cons_of_neg (by simpa using htype)]
        exact ih (fun t' ht' => h t' (mem_cons_of_mem _ ht')) (by omega)

theorem getTlv_iff (h : ∀ t ∈ tlvs, t.2.length ≤ 65535) (hdistinct : (tlvs.map (·.1)).Nodup)
    (type : UInt16) (value : Bytes) :
    wpaFtRrbGetTlv (Tlv.encodeAll ftRrbFormat tlvs) type = some value ↔ (type, value) ∈ tlvs := by
  rw [wpaFtRrbGetTlv, getTlvFrom_encodeAll type h (Nat.le_refl _)]
  constructor
  · intro hsome
    obtain ⟨t, hfind, rfl⟩ := Option.map_eq_some_iff.1 hsome
    have htype : t.1 = type := by simpa using find?_some hfind
    rw [← htype]
    exact mem_of_find?_eq_some hfind
  · intro hmem
    obtain ⟨t, hfind⟩ : ∃ t, tlvs.find? (fun t => t.1 = type) = some t :=
      Option.isSome_iff_exists.1 (find?_isSome.2 ⟨_, hmem, by simp⟩)
    have htype : t.1 = type := by simpa using find?_some hfind
    have heq : t = (type, value) :=
      inj_on_of_nodup_map hdistinct (mem_of_find?_eq_some hfind) hmem htype
    rw [hfind, heq]
    rfl

theorem getTlvVlanFrom_encodeAll (h : ∀ t ∈ tlvs, t.2.length ≤ 65535) {n : Nat}
    (hn : (Tlv.encodeAll ftRrbFormat tlvs).length ≤ n) (vlan : VlanDescription) :
    getTlvVlanFrom n (Tlv.encodeAll ftRrbFormat tlvs) vlan =
      tlvs.foldlM (fun vlan t => readVlanTlv t.1 t.2 vlan) vlan := by
  induction tlvs generalizing n vlan with
  | nil =>
    cases n with
    | zero => rfl
    | succ n => rfl
  | cons t ts ih =>
    have hlen : (Tlv.encodeAll ftRrbFormat (t :: ts)).length =
        4 + t.2.length + (Tlv.encodeAll ftRrbFormat ts).length := by
      rw [Tlv.encodeAll_cons, length_append, length_encode]
    cases n with
    | zero => omega
    | succ n =>
      rw [getTlvVlanFrom, if_neg (by omega), Tlv.encodeAll_cons,
        Tlv.next_encode (h t mem_cons_self), foldlM_cons]
      simp only
      cases readVlanTlv t.1 t.2 vlan with
      | none => rfl
      | some vlan' => exact ih (fun t' ht' => h t' (mem_cons_of_mem _ ht')) (by omega) vlan'

theorem foldlM_readVlanTlv_skip
    (h : ∀ t ∈ tlvs, t.1 ≠ ftRrbVlanUntagged ∧ t.1 ≠ ftRrbVlanTagged) (vlan : VlanDescription) :
    tlvs.foldlM (fun vlan t => readVlanTlv t.1 t.2 vlan) vlan = some vlan := by
  induction tlvs with
  | nil => rfl
  | cons t ts ih =>
    obtain ⟨h₁, h₂⟩ := h t mem_cons_self
    rw [foldlM_cons, readVlanTlv, if_neg h₁, if_neg h₂]
    exact ih fun t' ht' => h t' (mem_cons_of_mem _ ht')

theorem toNat_le16 {id : Nat} (h : id ≤ maxVlanId) :
    (UInt8.ofNat id).toNat + 256 * (UInt8.ofNat (id / 256)).toNat = id := by
  have hle : id ≤ 4094 := h
  rw [UInt8.toNat_ofNat', UInt8.toNat_ofNat']
  omega

theorem readVlanIds_untagged {id : Nat} (hpos : 0 < id) (hle : id ≤ maxVlanId) :
    readVlanIds true (le16 id) vlan = { vlan with untagged := id } := by
  rw [le16, readVlanIds, toNat_le16 hle, if_neg (by omega)]
  rfl

theorem readVlanIds_tagged {ids : List Nat} (hpos : ∀ id ∈ ids, 0 < id)
    (hle : ∀ id ∈ ids, id ≤ maxVlanId) (hroom : vlan.tagged.length + ids.length ≤ maxNumTaggedVlan) :
    readVlanIds false (ids.flatMap le16) vlan = { vlan with tagged := vlan.tagged ++ ids } := by
  induction ids generalizing vlan with
  | nil => simp [readVlanIds]
  | cons id ids ih =>
    have hid := hle id mem_cons_self
    have hid' := hpos id mem_cons_self
    rw [length_cons] at hroom
    rw [flatMap_cons, le16, cons_append, cons_append, nil_append, readVlanIds,
      toNat_le16 hid, if_neg (by omega), if_neg (by decide), if_pos (by omega),
      ih (fun x hx => hpos x (mem_cons_of_mem _ hx)) (fun x hx => hle x (mem_cons_of_mem _ hx))
        (by simp only [length_append, length_singleton]; omega)]
    simp

theorem VlanDescription.Valid.read_eq (h : vlan.Valid) :
    (vlanTlvs vlan).foldlM (fun vlan t => readVlanTlv t.1 t.2 vlan) ({} : VlanDescription) =
      some { untagged := vlan.untagged, tagged := vlan.tagged } := by
  have h₁ : (untaggedTlvs vlan).foldlM (fun vlan t => readVlanTlv t.1 t.2 vlan)
      ({} : VlanDescription) = some { untagged := vlan.untagged } := by
    unfold untaggedTlvs
    split
    · rename_i hu
      have hread : readVlanTlv ftRrbVlanUntagged (le16 vlan.untagged) {} =
          some { untagged := vlan.untagged } := by
        rw [readVlanTlv, if_pos rfl, if_neg (by simp),
          readVlanIds_untagged (Nat.pos_of_ne_zero hu) h.untagged_le]
      rw [foldlM_cons, hread]
      rfl
    · rename_i hu
      rw [not_not.1 hu]
      rfl
  have h₂ : (taggedTlvs vlan).foldlM (fun vlan t => readVlanTlv t.1 t.2 vlan)
      ({ untagged := vlan.untagged } : VlanDescription) =
      some { untagged := vlan.untagged, tagged := vlan.tagged } := by
    unfold taggedTlvs
    split
    · have hread : readVlanTlv ftRrbVlanTagged (vlan.tagged.flatMap le16)
          { untagged := vlan.untagged } =
          some { untagged := vlan.untagged, tagged := vlan.tagged } := by
        rw [readVlanTlv, if_neg (by decide), if_pos rfl,
          if_neg (by rw [length_flatMap_le16]; omega),
          readVlanIds_tagged h.pos h.le (by simpa using h.room)]
        rfl
      rw [foldlM_cons, hread]
      rfl
    · rename_i ht
      rw [not_not.1 ht]
      rfl
  rw [vlanTlvs, foldlM_append, h₁]
  exact h₂

theorem getTlvVlan_eq (h : ∀ t ∈ tlvs, t.2.length ≤ 65535)
    (htypes : ∀ t ∈ tlvs, t.1 ≠ ftRrbVlanUntagged ∧ t.1 ≠ ftRrbVlanTagged) (hvlan : vlan.Valid)
    (hfits : ∀ t ∈ vlanTlvs vlan, t.2.length ≤ 65535) :
    wpaFtRrbGetTlvVlan (Tlv.encodeAll ftRrbFormat (tlvs ++ vlanTlvs vlan)) = some vlan := by
  have hall : ∀ t ∈ tlvs ++ vlanTlvs vlan, t.2.length ≤ 65535 := by
    intro t ht
    rcases mem_append.1 ht with ht | ht
    · exact h t ht
    · exact hfits t ht
  have hsort : vlan.tagged.mergeSort = vlan.tagged := by
    refine mergeSort_of_pairwise (hvlan.sorted.imp fun hlt => ?_)
    exact decide_eq_true (Nat.le_of_lt hlt)
  unfold wpaFtRrbGetTlvVlan
  rw [getTlvVlanFrom_encodeAll hall (Nat.le_refl _), foldlM_append,
    foldlM_readVlanTlv_skip htypes]
  simp only [Option.bind_eq_bind, Option.bind_some, hvlan.read_eq, Option.map_some, hsort]
  rw [← hvlan.notempty_eq]

end Read

/-! ## Round trip -/

section RoundTrip

variable {vlan : VlanDescription}

theorem vlanTlvs_types (vlan : VlanDescription) : ((vlanTlvs vlan).map (·.1)).Nodup ∧
    ∀ t ∈ vlanTlvs vlan, t.1 = ftRrbVlanUntagged ∨ t.1 = ftRrbVlanTagged := by
  unfold vlanTlvs untaggedTlvs taggedTlvs
  have hne : ftRrbVlanUntagged ≠ ftRrbVlanTagged := by decide
  split <;> split <;> simp [hne]

theorem VlanDescription.Valid.tlvs_fit (h : vlan.Valid) : ∀ t ∈ vlanTlvs vlan, t.2.length ≤ 65535 := by
  have hroom : vlan.tagged.length ≤ 32 := h.room
  intro t ht
  unfold vlanTlvs untaggedTlvs taggedTlvs at ht
  rcases mem_append.1 ht with ht | ht
  · split at ht
    · rw [mem_singleton.1 ht]
      simp
    · cases ht
  · split at ht
    · rw [mem_singleton.1 ht]
      simp only [length_flatMap_le16]
      omega
    · cases ht

theorem valid_empty : ({} : VlanDescription).Valid :=
  ⟨by decide, by simp, by simp, .nil, by decide, rfl⟩

theorem getTlv_append_vlan {tlvs : TlvList} (hlens : ∀ t ∈ tlvs, t.2.length ≤ 65535)
    (hdistinct : (tlvs.map (·.1)).Nodup)
    (htypes : ∀ t ∈ tlvs, t.1 ≠ ftRrbVlanUntagged ∧ t.1 ≠ ftRrbVlanTagged) (hvlan : vlan.Valid)
    {type : UInt16} (h₁ : type ≠ ftRrbVlanUntagged) (h₂ : type ≠ ftRrbVlanTagged) (value : Bytes) :
    wpaFtRrbGetTlv (Tlv.encodeAll ftRrbFormat (tlvs ++ vlanTlvs vlan)) type = some value ↔
      (type, value) ∈ tlvs := by
  obtain ⟨hnodup, hown⟩ := vlanTlvs_types vlan
  have hall : ∀ t ∈ tlvs ++ vlanTlvs vlan, t.2.length ≤ 65535 := by
    intro t ht
    rcases mem_append.1 ht with ht | ht
    · exact hlens t ht
    · exact hvlan.tlvs_fit t ht
  have hdistinct' : ((tlvs ++ vlanTlvs vlan).map (·.1)).Nodup := by
    rw [map_append]
    refine hdistinct.append hnodup ?_
    intro x hx hx'
    obtain ⟨t, ht, rfl⟩ := mem_map.1 hx
    obtain ⟨t', ht', heq⟩ := mem_map.1 hx'
    rcases hown t' ht' with h | h
    · exact (htypes t ht).1 (heq.symm.trans h)
    · exact (htypes t ht).2 (heq.symm.trans h)
  rw [getTlv_iff hall hdistinct', mem_append]
  constructor
  · rintro (hmem | hmem)
    · exact hmem
    · rcases hown _ hmem with h | h
      · exact absurd h h₁
      · exact absurd h h₂
  · exact .inl

theorem rrbParts_eq {auth : Bytes} (h : auth.length ≤ 65535) (enc : Bytes) :
    rrbParts (le16 auth.length ++ auth ++ enc) = some (auth, enc) := by
  have hfield : getLe16 (le16 auth.length ++ auth ++ enc) = auth.length := by
    simp only [getLe16, le16, cons_append, getD_cons_zero, getD_cons_succ,
      UInt8.toNat_ofNat']
    omega
  have hdrop : (le16 auth.length ++ auth ++ enc).drop 2 = auth ++ enc := rfl
  unfold rrbParts
  rw [if_neg (by simp only [length_append, le16_length]; omega), hfield]
  simp only
  rw [if_neg (by simp only [length_append, le16_length]; omega), ← drop_drop, hdrop,
    take_left, drop_left]

end RoundTrip

/-- A message is built, decrypted and read back. The records and the VLAN the receiver finds are those
the sender put in; the two types of records that say the VLAN are kept for it. -/
theorem ft_rrb_round_trip (lib : AesSivLib) (key srcAddr : Bytes) (type : UInt8)
    (tlvsEnc0 tlvsEnc1 tlvsAuth : TlvList) (vlan : Option VlanDescription)
    (hkey : key.length = 32 ∨ key.length = 48 ∨ key.length = 64)
    (henc : TlvList.Valid (tlvsEnc0 ++ tlvsEnc1)) (hauth : TlvList.Valid tlvsAuth)
    (hencDistinct : ((tlvsEnc0 ++ tlvsEnc1).map (·.1)).Nodup)
    (hauthDistinct : (tlvsAuth.map (·.1)).Nodup) (hauthLen : wpaFtTlvLen tlvsAuth ≤ 65535)
    (hvlan : ∀ v ∈ vlan, v.Valid)
    (htypes : ∀ t ∈ tlvsEnc0 ++ tlvsEnc1, t.1 ≠ ftRrbVlanUntagged ∧ t.1 ≠ ftRrbVlanTagged) :
    ∃ packet auth enc plain,
      wpaFtRrbBuild lib (some key) tlvsEnc0 tlvsEnc1 tlvsAuth vlan srcAddr type = some packet ∧
      rrbParts packet = some (auth, enc) ∧
      wpaFtRrbDecrypt lib (some key) enc auth srcAddr type = some plain ∧
      (∀ t value, t ≠ ftRrbVlanUntagged → t ≠ ftRrbVlanTagged →
        (wpaFtRrbGetTlv plain t = some value ↔ (t, value) ∈ tlvsEnc0 ++ tlvsEnc1)) ∧
      (∀ t value, wpaFtRrbGetTlv auth t = some value ↔ (t, value) ∈ tlvsAuth) ∧
      wpaFtRrbGetTlvVlan plain = some (vlan.getD {}) := by
  have hplain := wpaFtRrbLin_eq (fun t ht => henc.types t (mem_append_left _ ht))
    (fun t ht => henc.types t (mem_append_right _ ht)) vlan hvlan
  have hauthLin : wpaFtRrbLin tlvsAuth [] none = _ :=
    wpaFtRrbLin_eq hauth.types (by simp) none (by simp)
  have hauthEq : tlvsAuth ++ [] ++ vlanTlvs ((none : Option VlanDescription).getD {}) = tlvsAuth := by
    simp [vlanTlvs, untaggedTlvs, taggedTlvs]
  rw [hauthEq] at hauthLin
  rw [wpaFtTlvLen_eq hauth.types] at hauthLen
  have hvalid : (vlan.getD {}).Valid := by
    cases vlan with
    | none => exact valid_empty
    | some v => exact hvlan v rfl
  generalize hauthBuf : Tlv.encodeAll ftRrbFormat tlvsAuth = auth at hauthLin hauthLen
  generalize hplainBuf : Tlv.encodeAll ftRrbFormat (tlvsEnc0 ++ tlvsEnc1 ++ vlanTlvs (vlan.getD {})) =
    plain at hplain
  obtain ⟨enc, henc₁, hlen, hdec⟩ := lib.inverts key [srcAddr, auth, [type]] plain hkey
  refine ⟨le16 auth.length ++ auth ++ enc, auth, enc, plain, ?_, rrbParts_eq hauthLen enc, ?_, ?_, ?_, ?_⟩
  · rw [wpaFtRrbBuild, hplain]
    simp only [hauthLin, wpaFtRrbEncrypt, henc₁, Option.map_some]
  · simp only [wpaFtRrbDecrypt]
    rw [if_neg (by omega), hdec]
  · intro t value h₁ h₂
    rw [← hplainBuf]
    exact getTlv_append_vlan henc.lens hencDistinct htypes hvalid h₁ h₂ value
  · intro t value
    rw [← hauthBuf]
    exact getTlv_iff hauth.lens hauthDistinct t value
  · rw [← hplainBuf]
    exact getTlvVlan_eq henc.lens htypes hvalid hvalid.tlvs_fit

def smallSivLib : AesSivLib where
  encrypt key ads plain := some (smallMac 16 key (ads.flatten ++ plain) ++ plain)
  decrypt key ads enc :=
    if enc.take 16 = smallMac 16 key (ads.flatten ++ enc.drop 16) then some (enc.drop 16) else none
  inverts key ads plain _ := by
    have hlen : (smallMac 16 key (ads.flatten ++ plain)).length = 16 := by simp [smallMac]
    refine ⟨_, rfl, by rw [length_append, hlen, Nat.add_comm], ?_⟩
    rw [take_left' hlen, drop_left' hlen, if_pos rfl]

theorem ft_rrb_round_trip_small :
    ∃ packet auth enc plain,
      wpaFtRrbBuild smallSivLib (some (zeros 32)) [(6, zeros 6)] [(12, [10, 0])] [(1, zeros 12)]
        (some { notempty := true, untagged := 5, tagged := [7, 9] }) (zeros 6) 1 = some packet ∧
      rrbParts packet = some (auth, enc) ∧
      wpaFtRrbDecrypt smallSivLib (some (zeros 32)) enc auth (zeros 6) 1 = some plain ∧
      wpaFtRrbGetTlv plain 12 = some [10, 0] ∧ wpaFtRrbGetTlv plain 1 = none ∧
      wpaFtRrbGetTlvVlan plain =
        some { notempty := true, untagged := 5, tagged := [7, 9] } := by
  have hvalid : VlanDescription.Valid { notempty := true, untagged := 5, tagged := [7, 9] } :=
    ⟨by decide, by decide, by decide, by decide, by decide, by decide⟩
  obtain ⟨packet, auth, enc, plain, hbuild, hparts, hdec, hget, _, hv⟩ :=
    ft_rrb_round_trip smallSivLib (zeros 32) (zeros 6) 1 [(6, zeros 6)] [(12, [10, 0])]
      [(1, zeros 12)] (some { notempty := true, untagged := 5, tagged := [7, 9] }) (by decide)
      ⟨by decide, by decide⟩ ⟨by decide, by decide⟩ (by decide) (by decide) (by decide)
      (by intro v hv; cases hv; exact hvalid) (by decide)
  refine ⟨packet, auth, enc, plain, hbuild, hparts, hdec, (hget 12 _ (by decide) (by decide)).2
    (by decide), ?_, hv⟩
  cases hnone : wpaFtRrbGetTlv plain 1 with
  | none => rfl
  | some value =>
    have hmem := (hget 1 value (by decide) (by decide)).1 hnone
    simp at hmem

/-- A record of the type that says the untagged VLAN, with a length that cannot be one. The description
that is put in is not read back. -/
theorem vlan_type_in_tlvs_not_read :
    ∃ packet auth enc plain,
      wpaFtRrbBuild smallSivLib (some (zeros 32)) [(ftRrbVlanUntagged, [])] [] [] (some {}) (zeros 6) 1 =
        some packet ∧
      rrbParts packet = some (auth, enc) ∧
      wpaFtRrbDecrypt smallSivLib (some (zeros 32)) enc auth (zeros 6) 1 = some plain ∧
      wpaFtRrbGetTlvVlan plain = none := by
  exact ⟨_, _, _, _, rfl, rfl, rfl, rfl⟩

end Hostap
