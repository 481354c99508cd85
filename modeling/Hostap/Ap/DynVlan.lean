import Hostap.Lib.FirstMatch
import Hostap.Lib.Run
import Hostap.Lib.Slots
import Mathlib.Data.List.Count
import Mathlib.Data.List.Pairwise

/-!
# Dynamic VLAN interfaces

A station is assigned to a VLAN by `ap_sta_set_vlan()` and bound to it by `ap_sta_bind_vlan()`
(`src/ap/sta_info.c`). An interface that no configuration line names is made for the first station
that needs it (`vlan_add_dynamic()` of `src/ap/vlan_init.c`); `dynamic_vlan` counts the stations that
are assigned or bound to it, and `vlan_remove_dynamic()` removes the interface when the count comes
down to zero.

What happens to the entry then depends on the build. With `CONFIG_FULL_DYNAMIC_VLAN` it is taken out
of the list. Without, it stays there with a count of zero, and a station that is assigned to the same
VLAN later finds it: a count of zero says that the entry is one of the configuration, so that the
station is not counted and no interface is made. `FindsNoLeftover` leaves these calls out.

The entries are found by VLAN id, so most of the invariant is about ids: that of an entry that was
made is the id of no other entry, and an id up to 4094 says which VLANs an entry is for (`Shape`).
The counters are compared with any number of references (`CountsAll`), so that each operation on the
list has one lemma: it is right with one reference more or less.
-/

namespace Hostap

open List

/-! ## Entries and stations -/

/-- `MAX_VLAN_ID`. -/
abbrev maxVlanId : Nat := 4094

/-- `struct vlan_description` with `notempty`, as `hostapd_vlan_valid()` lets it through: there is an
untagged VLAN (not zero) or a tagged one. The tagged VLANs are those before the first zero. -/
structure VlanDesc where
  untagged : Nat
  tagged : List Nat
  untagged_le : untagged ≤ maxVlanId
  notempty : untagged ≠ 0 ∨ tagged ≠ []
  deriving DecidableEq

/-- What stays the same in an entry. A `vlan_desc` without `notempty`, and that of a wildcard entry,
which is equal to no description of a station, is `none`. `created` is not in the source: it marks
the entries that `vlan_add_dynamic()` made. -/
structure VlanInfo where
  vlanId : Int
  vlanDesc : Option VlanDesc
  ifname : List Char
  created : Bool
  deriving DecidableEq

/-- `struct hostapd_vlan`; `iface` says whether its interface exists. -/
structure HostapdVlan extends VlanInfo where
  dynamicVlan : Nat
  iface : Bool
  deriving DecidableEq

/-- `VLAN_ID_WILDCARD`. -/
def vlanIdWildcard : Int := -1

/-- A line of the VLAN file, or the entry `vlan_init()` makes if there is none. -/
inductive VlanLine
  | static (id : Nat) (ifname : List Char) (pos : 0 < id) (le : id ≤ maxVlanId)
  | wildcard (ifname : List Char)

def VlanLine.entry : VlanLine → HostapdVlan
  | .static id ifname pos le =>
    { vlanId := id, ifname := ifname, created := false, dynamicVlan := 0, iface := true
      vlanDesc := some {
        untagged := id, tagged := [], untagged_le := le, notempty := .inl (by omega) } }
  | .wildcard ifname =>
    { vlanId := vlanIdWildcard, vlanDesc := none, ifname := ifname, created := false
      dynamicVlan := 0, iface := false }

/-- The configuration, and whether the build has `CONFIG_FULL_DYNAMIC_VLAN`. -/
structure VlanConf where
  dynamicVlan : Bool
  perStaVif : Bool
  fullDynamicVlan : Bool
  lines : List VlanLine

/-- The VLAN of a station; `vlanDesc` is what `sta->vlan_desc` points to. -/
structure VlanSta where
  vlanId : Int := 0
  vlanIdBound : Int := 0
  vlanDesc : Option VlanDesc := none
  deriving DecidableEq

/-- Entries and stations of a BSS. -/
structure VlanState where
  vlans : List HostapdVlan
  stas : List (Option VlanSta) := []

/-- What a call gets from outside: the allocation of an entry, and whether the driver adds the
interface and its group is set up. -/
structure VlanEnv where
  alloc : Bool := true
  ifAdd : Bool := true

/-! ## Operations on entries -/

/-- The retries of `ap_sta_get_free_vlan_id()`, each of which passes over an id that is in use. -/
def freeVlanIdFrom (vlans : List HostapdVlan) : Nat → Int → Int
  | 0, id => id
  | n + 1, id => if vlans.any fun v => v.vlanId = id then freeVlanIdFrom vlans n (id + 1) else id

/-- `ap_sta_get_free_vlan_id()`. -/
def apStaGetFreeVlanId (vlans : List HostapdVlan) : Int :=
  freeVlanIdFrom vlans vlans.length (maxVlanId + 2)

/-- The name of a dynamic interface: the id in place of the `#`, cut to `IFNAMSIZ`. -/
def dynamicIfname (pattern : List Char) (id : Int) : Option (List Char) :=
  if pattern.contains '#' then
    some ((pattern.takeWhile (· ≠ '#') ++ (toString id).toList ++
      (pattern.dropWhile (· ≠ '#')).drop 1).take 16)
  else
    none

/-- `vlan_add_dynamic()` for a wildcard entry. The interface is refused if there is one of this name
already. -/
def vlanAddDynamic (env : VlanEnv) (wildcard : HostapdVlan) (id : Int) (desc : Option VlanDesc)
    (vlans : List HostapdVlan) : Option (List HostapdVlan) :=
  match dynamicIfname wildcard.ifname id with
  | none => none
  | some ifname =>
    if env.alloc ∧ env.ifAdd ∧ ¬ vlans.any (fun v => v.iface && v.ifname = ifname) then
      some ({ vlanId := id, vlanDesc := desc, ifname := ifname, created := true
              dynamicVlan := 1, iface := true } :: vlans)
    else
      none

/-- An entry is counted down; its interface is removed with the last reference. -/
def HostapdVlan.drop (v : HostapdVlan) : HostapdVlan :=
  { v with
    dynamicVlan := v.dynamicVlan - 1
    iface := if v.dynamicVlan - 1 = 0 then false else v.iface }

/-- `vlan_remove_dynamic()`. `vlan_dellink()` looks for the name of the interface. -/
def vlanRemoveDynamic (conf : VlanConf) (id : Int) (vlans : List HostapdVlan) : List HostapdVlan :=
  if id ≤ 0 then
    vlans
  else
    match vlans.find? fun v => v.vlanId = id && 0 < v.dynamicVlan with
    | none => vlans
    | some vlan =>
      let vlans := FirstMatch.modifyFirst (fun v => v.vlanId = id && 0 < v.dynamicVlan)
        HostapdVlan.drop vlans
      if vlan.dynamicVlan - 1 = 0 ∧ conf.fullDynamicVlan then
        vlans.eraseP fun v => v.ifname = vlan.ifname
      else
        vlans

/-! ## Operations on stations -/

/-- What `ap_sta_set_vlan()` finds for a description. -/
inductive VlanChoice
  /-- No VLAN; `ok` is false on failure. -/
  | none (ok : Bool)
  /-- An entry is there. -/
  | existing (vlan : HostapdVlan)
  /-- An entry is to be made from the wildcard entry. -/
  | wildcard (vlan : HostapdVlan) (id : Int)

/-- The searches of `ap_sta_set_vlan()`. Without an entry for the description the last wildcard entry
is taken. -/
def chooseVlan (conf : VlanConf) (desc : Option VlanDesc) (vlans : List HostapdVlan) : VlanChoice :=
  if conf.perStaVif then
    match vlans.find? fun v => v.vlanId = vlanIdWildcard with
    | none => .none false
    | some vlan => .wildcard vlan (apStaGetFreeVlanId vlans)
  else
    match desc with
    | none => .none true
    | some d =>
      match vlans.find? fun v => v.vlanDesc = some d with
      | some vlan => .existing vlan
      | none =>
        match vlans.reverse.find? fun v => v.vlanId = vlanIdWildcard with
        | some vlan =>
          .wildcard vlan (if d.tagged ≠ [] then apStaGetFreeVlanId vlans else d.untagged)
        | none => .none false

/-- The entry with a given description is counted up, if it is a dynamic one. -/
def countUp (p : HostapdVlan → Bool) (vlan : HostapdVlan) (vlans : List HostapdVlan) :
    List HostapdVlan :=
  if 0 < vlan.dynamicVlan then
    FirstMatch.modifyFirst p (fun v => { v with dynamicVlan := v.dynamicVlan + 1 }) vlans
  else
    vlans

/-- The VLAN of a choice: the entries, its id and its description. -/
def takeVlan (env : VlanEnv) (desc : Option VlanDesc) (vlans : List HostapdVlan) :
    VlanChoice → List HostapdVlan × Int × Option VlanDesc
  | .none _ => (vlans, 0, none)
  | .existing vlan => (countUp (fun v => v.vlanDesc = desc) vlan vlans, vlan.vlanId, vlan.vlanDesc)
  | .wildcard vlan id =>
    match vlanAddDynamic env vlan id desc vlans with
    | some vlans => (vlans, id, desc)
    | none => (vlans, 0, none)

/-- There is something to do for `ap_sta_set_vlan()`. -/
def vlanChanges (conf : VlanConf) (desc : Option VlanDesc) (sta : VlanSta) : Bool :=
  (conf.perStaVif && sta.vlanId = 0) ||
    (!conf.dynamicVlan && !conf.perStaVif && sta.vlanId ≠ 0) || desc ≠ sta.vlanDesc

/-- The description `ap_sta_set_vlan()` goes by. -/
def usedDesc (conf : VlanConf) (desc : Option VlanDesc) : Option VlanDesc :=
  if conf.dynamicVlan then desc else none

/-- `ap_sta_set_vlan()`. -/
def apStaSetVlan (conf : VlanConf) (env : VlanEnv) (i : Nat) (sta : VlanSta)
    (desc : Option VlanDesc) (s : VlanState) : VlanState :=
  let desc := usedDesc conf desc
  if vlanChanges conf desc sta then
    let r := takeVlan env desc s.vlans (chooseVlan conf desc s.vlans)
    { vlans := if r.2.1 ≠ sta.vlanId ∧ sta.vlanId ≠ 0 then vlanRemoveDynamic conf sta.vlanId r.1
        else r.1
      stas := s.stas.set i (some { sta with vlanId := r.2.1, vlanDesc := r.2.2 }) }
  else
    s

/-- `ap_sta_bind_vlan()`, as far as references are concerned. -/
def apStaBindVlan (conf : VlanConf) (i : Nat) (sta : VlanSta) (s : VlanState) : VlanState :=
  if sta.vlanId = sta.vlanIdBound then
    s
  else
    let bound (vlans : List HostapdVlan) : VlanState :=
      { vlans := if 0 < sta.vlanIdBound then vlanRemoveDynamic conf sta.vlanIdBound vlans else vlans
        stas := s.stas.set i (some { sta with vlanIdBound := sta.vlanId }) }
    if 0 < sta.vlanId then
      match s.vlans.find? fun v => v.vlanId = sta.vlanId with
      | none => s
      | some vlan => bound (countUp (fun v => v.vlanId = sta.vlanId) vlan s.vlans)
    else
      bound s.vlans

/-- The release of the VLANs in `ap_free_sta()`. -/
def apFreeStaVlan (conf : VlanConf) (i : Nat) (sta : VlanSta) (s : VlanState) : VlanState :=
  let vlans := if sta.vlanId ≠ 0 then vlanRemoveDynamic conf sta.vlanId s.vlans else s.vlans
  { vlans := if sta.vlanIdBound ≠ 0 then vlanRemoveDynamic conf sta.vlanIdBound vlans else vlans
    stas := s.stas.set i none }

/-! ## Runs -/

/-- The calls. -/
inductive VlanEvent
  | addSta
  | setVlan (i : Nat) (desc : Option VlanDesc) (env : VlanEnv)
  | bindVlan (i : Nat)
  | freeSta (i : Nat)

/-- Why a run stops. -/
inductive VlanFault
  /-- There is no such station. -/
  | noStation

def withSta (i : Nat) (f : VlanSta → VlanState) (s : VlanState) : Except VlanFault VlanState :=
  match Slots.get s.stas i with
  | some sta => .ok (f sta)
  | none => .error .noStation

def vlanStep (conf : VlanConf) (s : VlanState) : VlanEvent → Except VlanFault VlanState
  | .addSta => .ok { s with stas := s.stas ++ [some {}] }
  | .setVlan i desc env => withSta i (fun sta => apStaSetVlan conf env i sta desc s) s
  | .bindVlan i => withSta i (fun sta => apStaBindVlan conf i sta s) s
  | .freeSta i => withSta i (fun sta => apFreeStaVlan conf i sta s) s

def vlanInit (conf : VlanConf) : VlanState := { vlans := conf.lines.map VlanLine.entry }

/-! ## The entries of the list -/

def VlanDesc.IsUntagged (d : VlanDesc) (id : Int) : Prop := (d.untagged : Int) = id ∧ d.tagged = []

/-- What the ids and names of the entries are like. -/
structure Shape (conf : VlanConf) (l : List VlanInfo) : Prop where
  /-- The id of an entry that was made is the id of no other. -/
  ids : l.Pairwise fun a b => a.created = true ∨ b.created = true → a.vlanId ≠ b.vlanId
  pos : ∀ a ∈ l, a.created = true → 0 < a.vlanId
  confIds : ∀ a ∈ l, a.created = false → a.vlanId ≤ maxVlanId
  descIds : ∀ a ∈ l, a.vlanDesc ≠ none → 0 < a.vlanId
  /-- An id up to 4094 is that of the untagged VLAN. -/
  descs : ∀ a ∈ l, 0 < a.vlanId → a.vlanId ≤ maxVlanId →
    ∃ d, a.vlanDesc = some d ∧ d.IsUntagged a.vlanId
  /-- Entries that were made stand in front of those of the configuration. -/
  front : l.Pairwise fun a b => b.created = true → a.created = true
  /-- With the build option their names are distinct. -/
  names : conf.fullDynamicVlan = true → l.Pairwise fun a b =>
    a.created = true → b.created = true → a.ifname ≠ b.ifname

/-- The counter of an entry with `n` references. -/
def Counts (conf : VlanConf) (n : Nat) (v : HostapdVlan) : Prop :=
  if v.created then
    v.dynamicVlan = n ∧ (v.iface = true ↔ 0 < n) ∧ (conf.fullDynamicVlan = true → 0 < n)
  else
    v.dynamicVlan = 0

/-- The counters of a list of entries, with the references to each id. -/
def CountsAll (conf : VlanConf) (n : Int → Nat) (l : List HostapdVlan) : Prop :=
  ∀ v ∈ l, Counts conf (n v.vlanId) v

def Has (l : List HostapdVlan) (id : Int) (desc : Option VlanDesc) : Prop :=
  ∃ v ∈ l, v.vlanId = id ∧ v.vlanDesc = desc

def bump (x : Int) (n : Int → Nat) : Int → Nat := fun id => n id + if id = x then 1 else 0

def refs (stas : List (Option VlanSta)) (id : Int) : Nat :=
  Slots.count (fun _ sta => sta.vlanId = id) stas +
    Slots.count (fun _ sta => sta.vlanIdBound = id) stas

/-- The counters are right, and what the stations refer to is there. -/
structure VlanInv (conf : VlanConf) (s : VlanState) : Prop where
  shape : Shape conf (s.vlans.map (·.toVlanInfo))
  counts : CountsAll conf (refs s.stas) s.vlans
  assigned : ∀ i sta, Slots.get s.stas i = some sta → 0 ≤ sta.vlanId ∧
    (sta.vlanId = 0 → sta.vlanDesc = none) ∧
    (sta.vlanId ≠ 0 → Has s.vlans sta.vlanId sta.vlanDesc)
  bound : ∀ i sta, Slots.get s.stas i = some sta → 0 ≤ sta.vlanIdBound ∧
    (sta.vlanIdBound ≠ 0 → ∃ desc, Has s.vlans sta.vlanIdBound desc)

section Entries

variable {conf : VlanConf} {l : List HostapdVlan} {a b : HostapdVlan}

theorem Shape.eq_of_id (h : Shape conf (l.map (·.toVlanInfo))) (ha : a ∈ l) (hb : b ∈ l)
    (hc : a.created = true) (hid : a.vlanId = b.vlanId) : a = b := by
  have hpw := pairwise_map.1 h.ids
  have hsymm : Std.Symm fun a b : HostapdVlan =>
      a.created = true ∨ b.created = true → a.vlanId ≠ b.vlanId :=
    ⟨fun _ _ h hc heq => h hc.symm heq.symm⟩
  by_contra hne
  exact hpw.forall ha hb hne (.inl hc) hid

theorem Shape.desc_of_id (h : Shape conf (l.map (·.toVlanInfo))) (ha : a ∈ l) (hb : b ∈ l)
    (hpos : 0 < a.vlanId) (hid : a.vlanId = b.vlanId) : a.vlanDesc = b.vlanDesc := by
  by_cases hc : a.created = true
  · rw [h.eq_of_id ha hb hc hid]
  · have hle' := h.confIds _ (mem_map_of_mem ha) (by simpa using hc)
    obtain ⟨d, hd, hu, ht⟩ := h.descs _ (mem_map_of_mem ha) hpos hle'
    obtain ⟨d', hd', hu', ht'⟩ := h.descs _ (mem_map_of_mem hb) (hid ▸ hpos) (hid ▸ hle')
    have heq : d = d' := by
      have hun : d.untagged = d'.untagged := by
        have : (d.untagged : Int) = d'.untagged := hu.trans (hid.trans hu'.symm)
        omega
      cases d
      cases d'
      simp_all
    rw [show a.vlanDesc = some d from hd, show b.vlanDesc = some d' from hd', heq]

theorem Shape.sublist {l' : List VlanInfo} {l : List VlanInfo} (h : Shape conf l)
    (hsub : List.Sublist l' l) : Shape conf l' where
  ids := h.ids.sublist hsub
  pos := fun a ha => h.pos a (hsub.subset ha)
  confIds := fun a ha => h.confIds a (hsub.subset ha)
  descIds := fun a ha => h.descIds a (hsub.subset ha)
  descs := fun a ha => h.descs a (hsub.subset ha)
  front := h.front.sublist hsub
  names := fun hf => (h.names hf).sublist hsub

theorem freeVlanIdFrom_spec {n : Nat} {id : Int}
    (h : (l.filter fun v => id ≤ v.vlanId).length ≤ n) :
    id ≤ freeVlanIdFrom l n id ∧ ∀ v ∈ l, v.vlanId ≠ freeVlanIdFrom l n id := by
  induction n generalizing id with
  | zero =>
    have hnil : l.filter (fun v => decide (id ≤ v.vlanId)) = [] :=
      length_eq_zero_iff.1 (Nat.le_zero.1 h)
    refine ⟨Int.le_refl _, ?_⟩
    intro v hv heq
    have hmem : v ∈ l.filter fun v => decide (id ≤ v.vlanId) :=
      mem_filter.2 ⟨hv, decide_eq_true (by rw [heq]; exact Int.le_refl _)⟩
    rw [hnil] at hmem
    cases hmem
  | succ n ih =>
    unfold freeVlanIdFrom
    split
    · rename_i hused
      obtain ⟨v, hv, hid⟩ := any_eq_true.1 hused
      have hid' : v.vlanId = id := of_decide_eq_true hid
      -- the entry with this id is left behind
      have hlt : (l.filter fun v => id + 1 ≤ v.vlanId).length <
          (l.filter fun v => id ≤ v.vlanId).length := by
        have hsub : List.Sublist (l.filter fun v => decide (id + 1 ≤ v.vlanId))
            ((l.filter fun v => decide (id ≤ v.vlanId)).filter fun v => decide (v.vlanId ≠ id)) := by
          rw [filter_filter]
          refine monotone_filter_right l fun v hv => ?_
          have := of_decide_eq_true hv
          simp only [Bool.and_eq_true, decide_eq_true_eq]
          omega
        refine Nat.lt_of_le_of_lt hsub.length_le ?_
        refine length_filter_lt_length_iff_exists.2 ⟨v, ?_, by simp [hid']⟩
        exact mem_filter.2 ⟨hv, decide_eq_true (by omega)⟩
      obtain ⟨h₁, h₂⟩ := ih (by omega : (l.filter fun v => id + 1 ≤ v.vlanId).length ≤ n)
      exact ⟨by omega, h₂⟩
    · rename_i hfree
      refine ⟨Int.le_refl _, fun v hv heq => hfree ?_⟩
      exact any_eq_true.2 ⟨v, hv, decide_eq_true heq⟩

theorem apStaGetFreeVlanId_spec (l : List HostapdVlan) :
    (maxVlanId : Int) < apStaGetFreeVlanId l ∧ ∀ v ∈ l, v.vlanId ≠ apStaGetFreeVlanId l := by
  have hlen : (l.filter fun v => (maxVlanId : Int) + 2 ≤ v.vlanId).length ≤ l.length :=
    length_filter_le _ _
  obtain ⟨h₁, h₂⟩ := freeVlanIdFrom_spec hlen
  refine ⟨?_, h₂⟩
  have : (maxVlanId : Int) + 2 ≤ apStaGetFreeVlanId l := h₁
  omega

theorem CountsAll.created {n : Int → Nat} (h : CountsAll conf n l) (ha : a ∈ l)
    (hpos : 0 < a.dynamicVlan) : a.created = true := by
  by_contra hc
  have := h a ha
  rw [Counts, if_neg hc] at this
  omega

theorem CountsAll.congr {n n' : Int → Nat} (h : CountsAll conf n l)
    (heq : ∀ v ∈ l, v.created = true → n v.vlanId = n' v.vlanId) : CountsAll conf n' l := by
  intro v hv
  have hc := h v hv
  unfold Counts at hc ⊢
  split
  · rename_i hcr
    rw [if_pos hcr, heq v hv hcr] at hc
    exact hc
  · rename_i hcr
    rw [if_neg hcr] at hc
    exact hc

theorem Shape.others {l₁ l₂ : List HostapdVlan} (h : Shape conf (l.map (·.toVlanInfo)))
    (hl : l = l₁ ++ a :: l₂) (hc : a.created = true) : ∀ v ∈ l₁ ++ l₂, v.vlanId ≠ a.vlanId := by
  have hpw := pairwise_map.1 h.ids
  rw [hl] at hpw
  obtain ⟨_, h₂, h₁₂⟩ := pairwise_append.1 hpw
  intro v hv
  rcases mem_append.1 hv with hv | hv
  · exact h₁₂ v hv a mem_cons_self (.inr hc)
  · exact ((pairwise_cons.1 h₂).1 v hv (.inl hc)).symm

theorem CountsAll.write {n n' : Int → Nat} {l₁ l₂ : List HostapdVlan} {a' : HostapdVlan}
    (h : CountsAll conf n l) (hs : Shape conf (l.map (·.toVlanInfo))) (hl : l = l₁ ++ a :: l₂)
    (hc : a.created = true) (hn : ∀ id, id ≠ a.vlanId → n' id = n id)
    (ha : Counts conf (n' a'.vlanId) a') : CountsAll conf n' (l₁ ++ a' :: l₂) := by
  intro v hv
  by_cases hself : v = a'
  · rw [hself]
    exact ha
  · have hother : v ∈ l₁ ++ l₂ := by
      rcases mem_append.1 hv with hv | hv
      · exact mem_append_left _ hv
      · exact mem_append_right _ ((mem_cons.1 hv).resolve_left hself)
    have hin : v ∈ l := by
      rw [hl]
      rcases mem_append.1 hother with hv | hv
      · exact mem_append_left _ hv
      · exact mem_append_right _ (mem_cons_of_mem _ hv)
    rw [hn _ (hs.others hl hc v hother)]
    exact h v hin

theorem CountsAll.countUp {n : Int → Nat} {p : HostapdVlan → Bool} (h : CountsAll conf n l)
    (hs : Shape conf (l.map (·.toVlanInfo))) (hfind : l.find? p = some a)
    (hcount : a.created = true → 0 < a.dynamicVlan) :
    CountsAll conf (bump a.vlanId n) (countUp p a l) := by
  have ha := mem_of_find?_eq_some hfind
  unfold Hostap.countUp
  split
  · rename_i hpos
    have hc := h.created ha hpos
    obtain ⟨l₁, l₂, hl, _, hmod⟩ := FirstMatch.modifyFirst_split
      (f := fun v : HostapdVlan => { v with dynamicVlan := v.dynamicVlan + 1 }) hfind
    rw [hmod]
    refine h.write hs hl hc (fun id hid => by simp [bump, hid]) ?_
    have hold := h a ha
    unfold Counts at hold ⊢
    rw [if_pos hc] at hold ⊢
    obtain ⟨h₁, h₂, h₃⟩ := hold
    simp only [bump, if_true]
    exact ⟨by omega, by rw [h₂]; omega, fun _ => by omega⟩
  · rename_i hzero
    refine h.congr fun v hv hc => ?_
    have hne : v.vlanId ≠ a.vlanId := by
      intro hid
      have heq := hs.eq_of_id hv ha hc hid
      exact hzero (hcount (heq ▸ hc))
    simp [bump, hne]

theorem map_countUp {p : HostapdVlan → Bool} :
    (countUp p a l).map (·.toVlanInfo) = l.map (·.toVlanInfo) := by
  unfold countUp
  split
  · exact FirstMatch.map_modifyFirst fun _ => rfl
  · rfl

theorem has_iff {id : Int} {desc : Option VlanDesc} :
    Has l id desc ↔ ∃ i ∈ l.map (·.toVlanInfo), i.vlanId = id ∧ i.vlanDesc = desc := by
  simp [Has]

theorem vlanRemoveDynamic_cases (conf : VlanConf) (x : Int) (l : List HostapdVlan)
    (hs : Shape conf (l.map (·.toVlanInfo))) {n : Int → Nat} (h : CountsAll conf n l) :
    (vlanRemoveDynamic conf x l = l ∧ ∀ v ∈ l, v.vlanId = x → v.created = true →
      v.dynamicVlan = 0 ∨ x ≤ 0) ∨
    ∃ a l₁ l₂, l = l₁ ++ a :: l₂ ∧ a.vlanId = x ∧ 0 < a.dynamicVlan ∧ a.created = true ∧
      (vlanRemoveDynamic conf x l = l₁ ++ a.drop :: l₂ ∧
          ¬ (a.dynamicVlan - 1 = 0 ∧ conf.fullDynamicVlan = true) ∨
        vlanRemoveDynamic conf x l = l₁ ++ l₂ ∧ a.dynamicVlan - 1 = 0) := by
  unfold vlanRemoveDynamic
  split
  · rename_i hx
    exact .inl ⟨rfl, fun _ _ _ _ => .inr hx⟩
  · split
    · rename_i hfind
      refine .inl ⟨rfl, fun v hv hid _ => .inl ?_⟩
      have := find?_eq_none.1 hfind v hv
      simp only [hid, decide_true, Bool.true_and, decide_eq_true_eq] at this
      omega
    · rename_i a hfind
      obtain ⟨l₁, l₂, hl, hbefore, hmod⟩ := FirstMatch.modifyFirst_split (f := HostapdVlan.drop) hfind
      have htest := find?_some hfind
      rw [Bool.and_eq_true, decide_eq_true_eq, decide_eq_true_eq] at htest
      have hc := h.created (mem_of_find?_eq_some hfind) htest.2
      refine .inr ⟨a, l₁, l₂, hl, htest.1, htest.2, hc, ?_⟩
      rw [hmod]
      simp only
      split
      · rename_i hlast
        refine .inr ⟨?_, hlast.1⟩
        -- the entries before it were made too, and have other names
        have hfront : ∀ v ∈ l₁, v.ifname ≠ a.ifname := by
          have h₁ := pairwise_map.1 hs.front
          have h₂ := pairwise_map.1 (hs.names hlast.2)
          rw [hl] at h₁ h₂
          intro v hv
          have hvc := (pairwise_append.1 h₁).2.2 v hv a mem_cons_self hc
          exact (pairwise_append.1 h₂).2.2 v hv a mem_cons_self hvc hc
        rw [eraseP_append_right _ fun v hv => by simpa using hfront v hv,
          eraseP_cons_of_pos (by simp [HostapdVlan.drop])]
      · rename_i hnot
        exact .inl ⟨rfl, hnot⟩

theorem CountsAll.remove {n : Int → Nat} {x : Int} (h : CountsAll conf (bump x n) l)
    (hs : Shape conf (l.map (·.toVlanInfo))) :
    CountsAll conf n (vlanRemoveDynamic conf x l) ∧
      Shape conf ((vlanRemoveDynamic conf x l).map (·.toVlanInfo)) ∧
      ∀ id desc, 0 < n id → Has l id desc → Has (vlanRemoveDynamic conf x l) id desc := by
  rcases vlanRemoveDynamic_cases conf x l hs h with
    ⟨heq, hnone⟩ | ⟨a, l₁, l₂, hl, hid, hpos, hc, hres⟩
  · rw [heq]
    refine ⟨h.congr fun v hv hcr => ?_, hs, fun _ _ _ hhas => hhas⟩
    have hne : v.vlanId ≠ x := by
      intro hvx
      have hp := hs.pos _ (mem_map_of_mem hv) hcr
      rcases hnone v hv hvx hcr with hz | hx
      · have hcount := h v hv
        rw [Counts, if_pos hcr] at hcount
        simp only [bump, hvx, if_true] at hcount
        omega
      · have : (0 : Int) < v.vlanId := hp
        omega
    simp [bump, hne]
  · have ha : a ∈ l := by rw [hl]; simp
    have hold := h a ha
    rw [Counts, if_pos hc] at hold
    obtain ⟨h₁, h₂, h₃⟩ := hold
    simp only [bump, hid, if_true] at h₁ h₂
    have hbefore : ∀ id, id ≠ a.vlanId → n id = bump x n id := by
      intro id hne
      simp [bump, hid ▸ hne]
    rcases hres with ⟨heq, hnot⟩ | ⟨heq, hlast⟩
    · rw [heq]
      have hinfo : (l₁ ++ a.drop :: l₂).map (·.toVlanInfo) = l.map (·.toVlanInfo) := by
        rw [hl]
        simp [HostapdVlan.drop]
      refine ⟨?_, by rw [hinfo]; exact hs, ?_⟩
      · refine h.write hs hl hc hbefore ?_
        rw [Counts, if_pos (by exact hc)]
        refine ⟨?_, ?_, ?_⟩
        · show a.dynamicVlan - 1 = n a.vlanId
          rw [hid]
          omega
        · show (if a.dynamicVlan - 1 = 0 then false else a.iface) = true ↔ 0 < n a.vlanId
          rw [hid]
          split
          · rename_i hz
            constructor
            · intro hf
              cases hf
            · intro hn
              omega
          · rename_i hz
            rw [h₂]
            omega
        · intro hfull
          show 0 < n a.vlanId
          rw [hid]
          have : a.dynamicVlan - 1 ≠ 0 := fun hz => hnot ⟨hz, hfull⟩
          omega
      · intro id desc _ hhas
        rw [has_iff, hinfo, ← has_iff]
        exact hhas
    · rw [heq]
      have hsub : List.Sublist ((l₁ ++ l₂).map (·.toVlanInfo)) (l.map (·.toVlanInfo)) := by
        rw [hl]
        exact ((sublist_cons_self a l₂).append_left l₁).map _
      refine ⟨?_, hs.sublist hsub, ?_⟩
      · intro v hv
        have hin : v ∈ l := by
          rw [hl]
          exact ((sublist_cons_self a l₂).append_left l₁).subset hv
        rw [hbefore _ (hs.others hl hc v hv)]
        exact h v hin
      · rintro id desc hn ⟨v, hv, hvid, hvdesc⟩
        refine ⟨v, ?_, hvid, hvdesc⟩
        have hne : v ≠ a := by
          rintro rfl
          rw [← hvid, hid] at hn
          omega
        rw [hl] at hv
        rcases mem_append.1 hv with hv | hv
        · exact mem_append_left _ hv
        · exact mem_append_right _ ((mem_cons.1 hv).resolve_left hne)

theorem CountsAll.add {n : Int → Nat} {env : VlanEnv} {w : HostapdVlan} {id : Int}
    {desc : Option VlanDesc} {l' : List HostapdVlan} (h : CountsAll conf n l)
    (hs : Shape conf (l.map (·.toVlanInfo))) (hadd : vlanAddDynamic env w id desc l = some l')
    (hfree : ∀ v ∈ l, v.vlanId ≠ id) (hpos : 0 < id)
    (hdesc : id ≤ maxVlanId → ∃ d, desc = some d ∧ d.IsUntagged id) (hzero : n id = 0) :
    CountsAll conf (bump id n) l' ∧ Shape conf (l'.map (·.toVlanInfo)) ∧ Has l' id desc ∧
      ∀ id' desc', Has l id' desc' → Has l' id' desc' := by
  unfold vlanAddDynamic at hadd
  split at hadd
  · cases hadd
  · rename_i ifname _
    split at hadd
    · rename_i hok
      cases hadd
      refine ⟨?_, ⟨?_, ?_, ?_, ?_, ?_, ?_, ?_⟩, ⟨_, mem_cons_self, rfl, rfl⟩, ?_⟩
      · intro v hv
        rcases mem_cons.1 hv with rfl | hv
        · rw [Counts, if_pos rfl]
          simp [bump, hzero]
        · have hne := hfree v hv
          have hsame : bump id n v.vlanId = n v.vlanId := by simp [bump, hne]
          rw [hsame]
          exact h v hv
      · refine pairwise_cons.2 ⟨?_, hs.ids⟩
        intro i hi _
        obtain ⟨v, hv, rfl⟩ := mem_map.1 hi
        exact (hfree v hv).symm
      · intro i hi hcr
        rcases mem_cons.1 hi with rfl | hi
        · exact hpos
        · exact hs.pos i hi hcr
      · intro i hi hcr
        rcases mem_cons.1 hi with rfl | hi
        · cases hcr
        · exact hs.confIds i hi hcr
      · intro i hi hd
        rcases mem_cons.1 hi with rfl | hi
        · exact hpos
        · exact hs.descIds i hi hd
      · intro i hi hp hle
        rcases mem_cons.1 hi with rfl | hi
        · exact hdesc hle
        · exact hs.descs i hi hp hle
      · exact pairwise_cons.2 ⟨fun _ _ _ => rfl, hs.front⟩
      · intro hfull
        refine pairwise_cons.2 ⟨?_, hs.names hfull⟩
        intro i hi _ hcr
        obtain ⟨v, hv, rfl⟩ := mem_map.1 hi
        have hcount := h v hv
        rw [Counts, if_pos hcr] at hcount
        have hlive : v.iface = true := hcount.2.1.2 (hcount.2.2 hfull)
        intro hname
        refine hok.2.2 (any_eq_true.2 ⟨v, hv, ?_⟩)
        rw [hlive, Bool.true_and, decide_eq_true_eq]
        exact hname.symm
      · rintro id' desc' ⟨v, hv, hvid, hvdesc⟩
        exact ⟨v, mem_cons_of_mem _ hv, hvid, hvdesc⟩
    · cases hadd

end Entries

/-! ## Steps -/

def FindsNoLeftover (conf : VlanConf) (s : VlanState) : VlanEvent → Prop
  | .setVlan _ desc _ => conf.fullDynamicVlan = true ∨ conf.perStaVif = true ∨
      ∀ d ∈ usedDesc conf desc, ∀ v ∈ s.vlans.find? fun v => v.vlanDesc = some d,
        v.created = true → v.dynamicVlan ≠ 0
  | _ => True

instance (conf : VlanConf) (s : VlanState) (ev : VlanEvent) : Decidable (FindsNoLeftover conf s ev) := by
  unfold FindsNoLeftover
  split <;> infer_instance

section Steps

variable {conf : VlanConf} {env : VlanEnv} {s s' : VlanState} {i : Nat} {sta : VlanSta}
  {desc : Option VlanDesc}

theorem refs_pos_assigned (hs : Slots.get s.stas i = some sta) : 0 < refs s.stas sta.vlanId := by
  have := Slots.count_pos (p := fun _ sta' => decide (sta'.vlanId = sta.vlanId)) hs (by simp)
  unfold refs
  omega

theorem refs_pos_bound (hs : Slots.get s.stas i = some sta) : 0 < refs s.stas sta.vlanIdBound := by
  have := Slots.count_pos (p := fun _ sta' => decide (sta'.vlanIdBound = sta.vlanIdBound)) hs
    (by simp)
  unfold refs
  omega

theorem VlanInv.refs_eq_zero (h : VlanInv conf s) {id : Int} (hpos : 0 < id)
    (hfree : ∀ v ∈ s.vlans, v.vlanId ≠ id) : refs s.stas id = 0 := by
  unfold refs
  rw [Slots.count_eq_zero, Slots.count_eq_zero]
  · intro i sta hs
    rw [decide_eq_false_iff_not]
    rintro rfl
    obtain ⟨_, v, hv, hid, _⟩ := (h.bound i sta hs).2 (by omega)
    exact hfree v hv hid
  · intro i sta hs
    rw [decide_eq_false_iff_not]
    rintro rfl
    obtain ⟨v, hv, hid, _⟩ := (h.assigned i sta hs).2.2 (by omega)
    exact hfree v hv hid

/-- What a station is assigned to by `ap_sta_set_vlan()`. -/
structure Taken (conf : VlanConf) (s : VlanState) (sta : VlanSta)
    (r : List HostapdVlan × Int × Option VlanDesc) : Prop where
  counts : CountsAll conf (bump r.2.1 (refs s.stas)) r.1
  shape : Shape conf (r.1.map (·.toVlanInfo))
  has : ∀ id desc, Has s.vlans id desc → Has r.1 id desc
  nonneg : 0 ≤ r.2.1
  noDesc : r.2.1 = 0 → r.2.2 = none
  assigned : r.2.1 ≠ 0 → Has r.1 r.2.1 r.2.2
  /-- Only a station without a VLAN may keep its id. -/
  other : r.2.1 = sta.vlanId → sta.vlanId = 0

theorem VlanInv.takeNone (h : VlanInv conf s) (sta : VlanSta) : Taken conf s sta (s.vlans, 0, none) where
  counts := h.counts.congr fun v hv hc => by
    have hpos : 0 < v.vlanId := h.shape.pos _ (mem_map_of_mem hv) hc
    have hne : v.vlanId ≠ 0 := by omega
    simp [bump, hne]
  shape := h.shape
  has := fun _ _ hhas => hhas
  nonneg := Int.le_refl 0
  noDesc := fun _ => rfl
  assigned := fun hne => absurd rfl hne
  other := fun heq => heq.symm

theorem VlanInv.takeExisting (h : VlanInv conf s) (hs : Slots.get s.stas i = some sta) {d : VlanDesc}
    {v : HostapdVlan} (hfind : s.vlans.find? (fun v => v.vlanDesc = some d) = some v)
    (hleft : v.created = true → v.dynamicVlan ≠ 0) (hne : some d ≠ sta.vlanDesc) :
    Taken conf s sta
      (countUp (fun v => v.vlanDesc = some d) v s.vlans, v.vlanId, v.vlanDesc) := by
  have hmem := mem_of_find?_eq_some hfind
  have hdesc : v.vlanDesc = some d := by simpa using find?_some hfind
  have hpos : 0 < v.vlanId := h.shape.descIds _ (mem_map_of_mem hmem) (by
    show v.vlanDesc ≠ none
    rw [hdesc]
    simp)
  have hhas : ∀ id desc, Has s.vlans id desc →
      Has (countUp (fun v => v.vlanDesc = some d) v s.vlans) id desc := by
    intro id desc hhas
    rw [has_iff, map_countUp, ← has_iff]
    exact hhas
  refine ⟨h.counts.countUp h.shape hfind fun hc => Nat.pos_of_ne_zero (hleft hc), ?_, hhas, ?_, ?_, ?_,
    ?_⟩
  · rw [map_countUp]
    exact h.shape
  · exact Int.le_of_lt hpos
  · intro hz
    have : v.vlanId = 0 := hz
    omega
  · intro _
    exact hhas _ _ ⟨v, hmem, rfl, rfl⟩
  · intro hid
    have hid' : v.vlanId = sta.vlanId := hid
    obtain ⟨v', hv', hvid', hvdesc'⟩ := (h.assigned i sta hs).2.2 (by omega)
    have hsame := h.shape.desc_of_id hmem hv' hpos (by rw [hid', hvid'])
    exact absurd (by rw [← hdesc, hsame, hvdesc']) hne

theorem VlanInv.takeWildcard (h : VlanInv conf s) (hs : Slots.get s.stas i = some sta)
    {w : HostapdVlan} {id : Int} (hfree : ∀ v ∈ s.vlans, v.vlanId ≠ id) (hpos : 0 < id)
    (hdesc : id ≤ maxVlanId → ∃ d, desc = some d ∧ d.IsUntagged id) :
    Taken conf s sta (takeVlan env desc s.vlans (.wildcard w id)) := by
  unfold takeVlan
  simp only
  split
  · rename_i l' hadd
    obtain ⟨hc, hsh, hnew, hhas⟩ := h.counts.add h.shape hadd hfree hpos hdesc
      (h.refs_eq_zero hpos hfree)
    refine ⟨hc, hsh, hhas, Int.le_of_lt hpos, ?_, fun _ => hnew, ?_⟩
    · intro hz
      have : id = 0 := hz
      omega
    · intro hid
      have hid' : id = sta.vlanId := hid
      obtain ⟨v, hv, hvid, _⟩ := (h.assigned i sta hs).2.2 (by omega)
      exact absurd (hvid.trans hid'.symm) (hfree v hv)
  · exact h.takeNone sta

theorem Shape.untagged_free {l : List HostapdVlan} (h : Shape conf (l.map (·.toVlanInfo)))
    {d : VlanDesc} (htag : d.tagged = []) (hfind : l.find? (fun v => v.vlanDesc = some d) = none) :
    ∀ v ∈ l, v.vlanId ≠ d.untagged := by
  intro v hv hid
  have hun : d.untagged ≠ 0 := d.notempty.resolve_right fun hne => hne htag
  have hle := d.untagged_le
  have hid' : v.toVlanInfo.vlanId = d.untagged := hid
  obtain ⟨d', hd', hu, ht⟩ := h.descs _ (mem_map_of_mem hv) (by rw [hid']; omega)
    (by rw [hid']; omega)
  have heq : d' = d := by
    have hun' : d'.untagged = d.untagged := by
      have : (d'.untagged : Int) = d.untagged := hu.trans hid
      omega
    cases d
    cases d'
    simp_all
  have hdesc : v.vlanDesc = some d := by rw [← heq]; exact hd'
  exact find?_eq_none.1 hfind v hv (by simp [hdesc])

theorem VlanInv.take (h : VlanInv conf s) (hs : Slots.get s.stas i = some sta)
    (hc : FindsNoLeftover conf s (.setVlan i desc env))
    (hch : vlanChanges conf (usedDesc conf desc) sta = true) :
    Taken conf s sta (takeVlan env (usedDesc conf desc) s.vlans
      (chooseVlan conf (usedDesc conf desc) s.vlans)) := by
  obtain ⟨hbig, hfree⟩ := apStaGetFreeVlanId_spec s.vlans
  have hbigpos : 0 < apStaGetFreeVlanId s.vlans := by omega
  unfold chooseVlan
  split
  · split
    · exact h.takeNone sta
    · exact h.takeWildcard hs hfree hbigpos fun hle => by omega
  · rename_i hvif
    split
    · exact h.takeNone sta
    · rename_i d hd
      split
      · rename_i v hfind
        have hleft : v.created = true → v.dynamicVlan ≠ 0 := by
          intro hcr
          rcases hc with hfull | hvif' | hnone
          · have hcount := h.counts v (mem_of_find?_eq_some hfind)
            rw [Counts, if_pos hcr] at hcount
            have := hcount.2.2 hfull
            omega
          · exact absurd hvif' hvif
          · exact hnone d hd v hfind hcr
        have hne : some d ≠ sta.vlanDesc := by
          have hdyn : conf.dynamicVlan = true := by
            by_contra hdis
            rw [usedDesc, if_neg hdis] at hd
            cases hd
          rw [hd] at hch
          simpa [vlanChanges, hvif, hdyn] using hch
        rw [hd]
        exact h.takeExisting hs hfind hleft hne
      · rename_i hfind
        split
        · split
          · exact h.takeWildcard hs hfree hbigpos fun hle => by omega
          · rename_i htag
            have htag' : d.tagged = [] := by simpa using htag
            have hun : d.untagged ≠ 0 := d.notempty.resolve_right fun hne => hne htag'
            exact h.takeWildcard hs (h.shape.untagged_free htag' hfind) (by omega)
              fun _ => ⟨d, hd, rfl, htag'⟩
        · exact h.takeNone sta

theorem refs_set (hs : Slots.get s.stas i = some sta) (sta' : VlanSta) (id : Int) :
    refs (s.stas.set i (some sta')) id + ((decide (sta.vlanId = id)).toNat +
      (decide (sta.vlanIdBound = id)).toNat) =
    refs s.stas id + ((decide (sta'.vlanId = id)).toNat + (decide (sta'.vlanIdBound = id)).toNat) := by
  have h₁ := Slots.count_set (p := fun (_ : Nat) (x : VlanSta) => decide (x.vlanId = id)) (y := sta') hs
  have h₂ := Slots.count_set (p := fun (_ : Nat) (x : VlanSta) => decide (x.vlanIdBound = id)) (y := sta') hs
  unfold refs
  omega

theorem toNat_decide_eq (a b : Int) : (decide (a = b)).toNat = if b = a then 1 else 0 := by
  by_cases h : a = b
  · simp [h]
  · simp [h, Ne.symm h]

theorem bump_refs_assigned (hs : Slots.get s.stas i = some sta) (id : Int) (desc : Option VlanDesc) :
    bump sta.vlanId (refs (s.stas.set i (some { sta with vlanId := id, vlanDesc := desc }))) =
      bump id (refs s.stas) := by
  funext x
  have := refs_set hs { sta with vlanId := id, vlanDesc := desc } x
  simp only [toNat_decide_eq] at this
  unfold bump
  omega

theorem bump_refs_bound (hs : Slots.get s.stas i = some sta) (id : Int) :
    bump sta.vlanIdBound (refs (s.stas.set i (some { sta with vlanIdBound := id }))) =
      bump id (refs s.stas) := by
  funext x
  have := refs_set hs { sta with vlanIdBound := id } x
  simp only [toNat_decide_eq] at this
  unfold bump
  omega

theorem vlanRemoveDynamic_zero (l : List HostapdVlan) : vlanRemoveDynamic conf 0 l = l := by
  unfold vlanRemoveDynamic
  rw [if_pos (Int.le_refl 0)]

theorem VlanInv.ofRemove {vlans : List HostapdVlan} {stas : List (Option VlanSta)} {old : Int}
    (hc : CountsAll conf (bump old (refs stas)) vlans)
    (hshape : Shape conf (vlans.map (·.toVlanInfo)))
    (ha : ∀ i sta, Slots.get stas i = some sta → 0 ≤ sta.vlanId ∧
      (sta.vlanId = 0 → sta.vlanDesc = none) ∧
      (sta.vlanId ≠ 0 → Has vlans sta.vlanId sta.vlanDesc))
    (hb : ∀ i sta, Slots.get stas i = some sta → 0 ≤ sta.vlanIdBound ∧
      (sta.vlanIdBound ≠ 0 → ∃ desc, Has vlans sta.vlanIdBound desc)) :
    VlanInv conf ⟨vlanRemoveDynamic conf old vlans, stas⟩ := by
  obtain ⟨hcounts, hsh, hhas⟩ := hc.remove hshape
  refine ⟨hsh, hcounts, ?_, ?_⟩
  · intro i sta hs
    obtain ⟨h₁, h₂, h₃⟩ := ha i sta hs
    exact ⟨h₁, h₂, fun hne => hhas _ _ (refs_pos_assigned (s := ⟨vlans, stas⟩) hs) (h₃ hne)⟩
  · intro i sta hs
    obtain ⟨h₁, h₂⟩ := hb i sta hs
    refine ⟨h₁, fun hne => ?_⟩
    obtain ⟨desc, hdesc⟩ := h₂ hne
    exact ⟨desc, hhas _ _ (refs_pos_bound (s := ⟨vlans, stas⟩) hs) hdesc⟩

theorem VlanInv.setVlan (h : VlanInv conf s) (hs : Slots.get s.stas i = some sta)
    (hc : FindsNoLeftover conf s (.setVlan i desc env)) :
    VlanInv conf (apStaSetVlan conf env i sta desc s) := by
  unfold apStaSetVlan
  simp only
  split
  · rename_i hch
    have ht := h.take hs hc hch
    generalize takeVlan env (usedDesc conf desc) s.vlans
      (chooseVlan conf (usedDesc conf desc) s.vlans) = r at ht
    have hvlans : (if r.2.1 ≠ sta.vlanId ∧ sta.vlanId ≠ 0 then
        vlanRemoveDynamic conf sta.vlanId r.1 else r.1) =
        vlanRemoveDynamic conf sta.vlanId r.1 := by
      by_cases hz : sta.vlanId = 0
      · rw [if_neg (by simp [hz]), hz, vlanRemoveDynamic_zero]
      · rw [if_pos ⟨fun heq => hz (ht.other heq), hz⟩]
    rw [hvlans]
    refine VlanInv.ofRemove ?_ ht.shape ?_ ?_
    · rw [bump_refs_assigned hs]
      exact ht.counts
    · intro j sta₁ hj
      rw [Slots.get_set hs] at hj
      split at hj
      · cases hj
        exact ⟨ht.nonneg, ht.noDesc, ht.assigned⟩
      · obtain ⟨h₁, h₂, h₃⟩ := h.assigned j sta₁ hj
        exact ⟨h₁, h₂, fun hne => ht.has _ _ (h₃ hne)⟩
    · intro j sta₁ hj
      have hold : ∀ sta₂, Slots.get s.stas j = some sta₂ → sta₂.vlanIdBound = sta₁.vlanIdBound →
          0 ≤ sta₁.vlanIdBound ∧ (sta₁.vlanIdBound ≠ 0 → ∃ desc, Has r.1 sta₁.vlanIdBound desc) := by
        intro sta₂ hj₂ heq
        obtain ⟨h₁, h₂⟩ := h.bound j sta₂ hj₂
        rw [heq] at h₁ h₂
        exact ⟨h₁, fun hne => (h₂ hne).imp fun d hd => ht.has _ _ hd⟩
      rw [Slots.get_set hs] at hj
      split at hj
      · rename_i heq
        cases hj
        exact hold sta (by rw [heq]; exact hs) rfl
      · exact hold sta₁ hj rfl
  · exact h

theorem VlanInv.rebind (h : VlanInv conf s) (hs : Slots.get s.stas i = some sta) {id : Int}
    {vlans : List HostapdVlan} (hpos : 0 ≤ id)
    (hinfo : vlans.map (·.toVlanInfo) = s.vlans.map (·.toVlanInfo))
    (hc : CountsAll conf (bump id (refs s.stas)) vlans)
    (hid : id ≠ 0 → ∃ desc, Has s.vlans id desc) :
    VlanInv conf ⟨vlanRemoveDynamic conf sta.vlanIdBound vlans,
      s.stas.set i (some { sta with vlanIdBound := id })⟩ := by
  have hhas : ∀ id desc, Has s.vlans id desc → Has vlans id desc := by
    intro id desc hold
    rw [has_iff, hinfo, ← has_iff]
    exact hold
  refine VlanInv.ofRemove ?_ (by rw [hinfo]; exact h.shape) ?_ ?_
  · rw [bump_refs_bound hs]
    exact hc
  · intro j sta₁ hj
    have hold : ∀ sta₂, Slots.get s.stas j = some sta₂ → sta₂.vlanId = sta₁.vlanId →
        sta₂.vlanDesc = sta₁.vlanDesc → 0 ≤ sta₁.vlanId ∧
        (sta₁.vlanId = 0 → sta₁.vlanDesc = none) ∧
        (sta₁.vlanId ≠ 0 → Has vlans sta₁.vlanId sta₁.vlanDesc) := by
      intro sta₂ hj₂ heq hdeq
      obtain ⟨h₁, h₂, h₃⟩ := h.assigned j sta₂ hj₂
      rw [heq] at h₁ h₂ h₃
      rw [hdeq] at h₂ h₃
      exact ⟨h₁, h₂, fun hne => hhas _ _ (h₃ hne)⟩
    rw [Slots.get_set hs] at hj
    split at hj
    · rename_i heq
      cases hj
      exact hold sta (by rw [heq]; exact hs) rfl rfl
    · exact hold sta₁ hj rfl rfl
  · intro j sta₁ hj
    rw [Slots.get_set hs] at hj
    split at hj
    · cases hj
      exact ⟨hpos, fun hne => (hid hne).imp fun d hd => hhas _ _ hd⟩
    · obtain ⟨h₁, h₂⟩ := h.bound j sta₁ hj
      exact ⟨h₁, fun hne => (h₂ hne).imp fun d hd => hhas _ _ hd⟩

theorem VlanInv.counts_zero (h : VlanInv conf s) : CountsAll conf (bump 0 (refs s.stas)) s.vlans :=
  (h.takeNone {}).counts

theorem VlanInv.bindVlan (h : VlanInv conf s) (hs : Slots.get s.stas i = some sta) :
    VlanInv conf (apStaBindVlan conf i sta s) := by
  obtain ⟨hnonneg, _, hhas⟩ := h.assigned i sta hs
  have hbound := (h.bound i sta hs).1
  have hold : ∀ l, (if 0 < sta.vlanIdBound then vlanRemoveDynamic conf sta.vlanIdBound l else l) =
      vlanRemoveDynamic conf sta.vlanIdBound l := by
    intro l
    split
    · rfl
    · rename_i hz
      have : sta.vlanIdBound = 0 := by omega
      rw [this, vlanRemoveDynamic_zero]
  unfold apStaBindVlan
  split
  · exact h
  · simp only [hold]
    split
    · rename_i hpos
      split
      · exact h
      · rename_i v hfind
        have hmem := mem_of_find?_eq_some hfind
        have hvid : v.vlanId = sta.vlanId := by simpa using find?_some hfind
        have hcount : v.created = true → 0 < v.dynamicVlan := by
          intro hcr
          have := h.counts v hmem
          rw [Counts, if_pos hcr, hvid] at this
          rw [this.1]
          exact refs_pos_assigned hs
        have hc := h.counts.countUp h.shape hfind hcount
        rw [hvid] at hc
        exact h.rebind hs hnonneg map_countUp hc fun hne => ⟨_, hhas hne⟩
    · rename_i hz
      have hzero : sta.vlanId = 0 := by omega
      exact h.rebind hs hnonneg rfl (by rw [hzero]; exact h.counts_zero) fun hne => absurd hzero hne

theorem VlanInv.clear (h : VlanInv conf s) (hs : Slots.get s.stas i = some sta)
    (h₁ : sta.vlanId = 0) (h₂ : sta.vlanIdBound = 0) :
    VlanInv conf { s with stas := s.stas.set i none } := by
  have hget : ∀ j sta₁, Slots.get (s.stas.set i none) j = some sta₁ →
      Slots.get s.stas j = some sta₁ := by
    intro j sta₁ hj
    rw [Slots.get_set hs] at hj
    split at hj
    · cases hj
    · exact hj
  refine ⟨h.shape, ?_, fun j sta₁ hj => h.assigned j sta₁ (hget j sta₁ hj),
    fun j sta₁ hj => h.bound j sta₁ (hget j sta₁ hj)⟩
  refine h.counts.congr fun v hv hc => ?_
  have hpos : 0 < v.vlanId := h.shape.pos _ (mem_map_of_mem hv) hc
  have hne : sta.vlanId ≠ v.vlanId := by omega
  have hne' : sta.vlanIdBound ≠ v.vlanId := by omega
  have hc₁ := Slots.count_clear (p := fun (_ : Nat) (x : VlanSta) => decide (x.vlanId = v.vlanId)) hs
  have hc₂ := Slots.count_clear (p := fun (_ : Nat) (x : VlanSta) => decide (x.vlanIdBound = v.vlanId)) hs
  simp only [hne, hne', decide_false, Bool.toNat_false, Nat.add_zero] at hc₁ hc₂
  unfold refs
  rw [hc₁, hc₂]

theorem VlanInv.freeSta (h : VlanInv conf s) (hs : Slots.get s.stas i = some sta) :
    VlanInv conf (apFreeStaVlan conf i sta s) := by
  have hold : ∀ (x : Int) l, (if x ≠ 0 then vlanRemoveDynamic conf x l else l) =
      vlanRemoveDynamic conf x l := by
    intro x l
    split
    · rfl
    · rename_i hz
      rw [not_not.1 hz, vlanRemoveDynamic_zero]
  -- the station gives up its assignment, then its binding, and is then taken out
  have h₁ : VlanInv conf ⟨vlanRemoveDynamic conf sta.vlanId s.vlans,
      s.stas.set i (some { sta with vlanId := 0, vlanDesc := none })⟩ := by
    refine VlanInv.ofRemove ?_ h.shape ?_ ?_
    · rw [bump_refs_assigned hs]
      exact h.counts_zero
    · intro j sta₁ hj
      rw [Slots.get_set hs] at hj
      split at hj
      · cases hj
        exact ⟨Int.le_refl 0, fun _ => rfl, fun hne => absurd rfl hne⟩
      · exact h.assigned j sta₁ hj
    · intro j sta₁ hj
      rw [Slots.get_set hs] at hj
      split at hj
      · rename_i heq
        cases hj
        exact h.bound j sta (by rw [heq]; exact hs)
      · exact h.bound j sta₁ hj
  have hs₁ := Slots.get_set_self hs (some { sta with vlanId := 0, vlanDesc := none })
  have h₂ := h₁.rebind hs₁ (Int.le_refl 0) rfl h₁.counts_zero fun hne => absurd rfl hne
  have hs₂ := Slots.get_set_self hs₁
    (some { sta with vlanId := 0, vlanDesc := none, vlanIdBound := 0 })
  have h₃ := h₂.clear hs₂ rfl rfl
  simp only [set_set] at h₃
  unfold apFreeStaVlan
  simp only [hold]
  exact h₃

theorem VlanInv.addSta (h : VlanInv conf s) : VlanInv conf { s with stas := s.stas ++ [some {}] } := by
  refine ⟨h.shape, ?_, ?_, ?_⟩
  · refine h.counts.congr fun v hv hc => ?_
    have hpos : 0 < v.vlanId := h.shape.pos _ (mem_map_of_mem hv) hc
    have hne : (0 : Int) ≠ v.vlanId := by omega
    unfold refs
    rw [Slots.count_push, Slots.count_push]
    simp [hne]
  · intro j sta₁ hj
    rw [Slots.get_push] at hj
    split at hj
    · cases hj
      exact ⟨Int.le_refl 0, fun _ => rfl, fun hne => absurd rfl hne⟩
    · exact h.assigned j sta₁ hj
  · intro j sta₁ hj
    rw [Slots.get_push] at hj
    split at hj
    · cases hj
      exact ⟨Int.le_refl 0, fun hne => absurd rfl hne⟩
    · exact h.bound j sta₁ hj

theorem withSta_ok {f : VlanSta → VlanState} (h : withSta i f s = .ok s') :
    ∃ sta, Slots.get s.stas i = some sta ∧ s' = f sta := by
  unfold withSta at h
  split at h
  · rename_i sta hs
    cases h
    exact ⟨sta, hs, rfl⟩
  · cases h

theorem VlanInv.step {ev : VlanEvent} (h : VlanInv conf s) (hc : FindsNoLeftover conf s ev)
    (hs : vlanStep conf s ev = .ok s') : VlanInv conf s' := by
  cases ev with
  | addSta =>
    cases hs
    exact h.addSta
  | setVlan i desc env =>
    obtain ⟨sta, hsta, rfl⟩ := withSta_ok hs
    exact h.setVlan hsta hc
  | bindVlan i =>
    obtain ⟨sta, hsta, rfl⟩ := withSta_ok hs
    exact h.bindVlan hsta
  | freeSta i =>
    obtain ⟨sta, hsta, rfl⟩ := withSta_ok hs
    exact h.freeSta hsta

end Steps

theorem VlanLine.entry_spec (line : VlanLine) : line.entry.created = false ∧
    line.entry.dynamicVlan = 0 ∧ line.entry.vlanId ≤ maxVlanId ∧
    (line.entry.vlanDesc ≠ none → 0 < line.entry.vlanId) ∧
    (0 < line.entry.vlanId → ∃ d, line.entry.vlanDesc = some d ∧ d.IsUntagged line.entry.vlanId) := by
  cases line with
  | static id ifname pos le =>
    have hpos : (0 : Int) < id := by omega
    have hle : (id : Int) ≤ maxVlanId := by omega
    exact ⟨rfl, rfl, hle, fun _ => hpos, fun _ => ⟨_, rfl, rfl, rfl⟩⟩
  | wildcard ifname =>
    refine ⟨rfl, rfl, (by decide : (-1 : Int) ≤ maxVlanId), fun hne => absurd rfl hne, fun hpos => ?_⟩
    exact absurd hpos (by decide : ¬ (0 : Int) < -1)

theorem vlanInv_init (conf : VlanConf) : VlanInv conf (vlanInit conf) := by
  have hentry : ∀ v ∈ (vlanInit conf).vlans, ∃ line : VlanLine, v = line.entry := by
    intro v hv
    obtain ⟨line, _, heq⟩ := mem_map.1 hv
    exact ⟨line, heq.symm⟩
  have hinfo : ∀ a ∈ (vlanInit conf).vlans.map (·.toVlanInfo),
      ∃ line : VlanLine, a = line.entry.toVlanInfo := by
    intro a ha
    obtain ⟨v, hv, heq⟩ := mem_map.1 ha
    obtain ⟨line, hline⟩ := hentry v hv
    exact ⟨line, by rw [← heq, hline]⟩
  have hnone : ∀ a ∈ (vlanInit conf).vlans.map (·.toVlanInfo), a.created = false := by
    intro a ha
    obtain ⟨line, rfl⟩ := hinfo a ha
    exact line.entry_spec.1
  refine ⟨⟨?_, ?_, ?_, ?_, ?_, ?_, ?_⟩, ?_, ?_, ?_⟩
  · refine pairwise_of_forall_mem_list fun a ha b hb hc => ?_
    rw [hnone a ha, hnone b hb] at hc
    cases hc <;> contradiction
  · intro a ha hc
    rw [hnone a ha] at hc
    cases hc
  · intro a ha _
    obtain ⟨line, rfl⟩ := hinfo a ha
    exact line.entry_spec.2.2.1
  · intro a ha
    obtain ⟨line, rfl⟩ := hinfo a ha
    exact line.entry_spec.2.2.2.1
  · intro a ha hpos _
    obtain ⟨line, rfl⟩ := hinfo a ha
    exact line.entry_spec.2.2.2.2 hpos
  · refine pairwise_of_forall_mem_list fun a _ b hb hc => ?_
    rw [hnone b hb] at hc
    cases hc
  · refine fun _ => pairwise_of_forall_mem_list fun a _ b hb _ hc => ?_
    rw [hnone b hb] at hc
    cases hc
  · intro v hv
    obtain ⟨line, rfl⟩ := hentry v hv
    rw [Counts, line.entry_spec.1]
    exact line.entry_spec.2.1
  · intro i sta hs
    cases hs
  · intro i sta hs
    cases hs

def RefersTo (sta : VlanSta) (id : Int) : Prop := id ≠ 0 ∧ (sta.vlanId = id ∨ sta.vlanIdBound = id)

/-- In every run of assignments, bindings and removals in which no call finds a leftover entry, the
counter of each entry that was made is the number of references of the stations to it, its interface
is there as long as there is one, and no station refers to an entry that is gone. -/
theorem dynamic_vlan_counts_references (conf : VlanConf) (evs : List VlanEvent) (s : VlanState)
    (h : Run.Reach (vlanStep conf) (FindsNoLeftover conf) (vlanInit conf) evs s) :
    (∀ v ∈ s.vlans, v.created = true →
      v.dynamicVlan = refs s.stas v.vlanId ∧ (v.iface = true ↔ 0 < refs s.stas v.vlanId)) ∧
    (∀ v ∈ s.vlans, v.created = true → ∀ w ∈ s.vlans, v.vlanId = w.vlanId → v = w) ∧
    (∀ i sta id, Slots.get s.stas i = some sta → RefersTo sta id →
      ∃ v ∈ s.vlans, v.vlanId = id ∧ (v.created = true → v.iface = true)) := by
  have hinv : VlanInv conf s :=
    h.invariant (vlanInv_init conf) fun s ev s' hinv hc hs => hinv.step hc hs
  have hcounts : ∀ v ∈ s.vlans, v.created = true →
      v.dynamicVlan = refs s.stas v.vlanId ∧ (v.iface = true ↔ 0 < refs s.stas v.vlanId) := by
    intro v hv hc
    have hcount := hinv.counts v hv
    rw [Counts, if_pos hc] at hcount
    exact ⟨hcount.1, hcount.2.1⟩
  refine ⟨hcounts, fun v hv hc w hw hid => hinv.shape.eq_of_id hv hw hc hid, ?_⟩
  intro i sta id hs href
  obtain ⟨hne, hid | hid⟩ := href
  · obtain ⟨v, hv, hvid, _⟩ := (hinv.assigned i sta hs).2.2 (by rw [hid]; exact hne)
    refine ⟨v, hv, hvid.trans hid, fun hc => (hcounts v hv hc).2.2 ?_⟩
    rw [hvid]
    exact refs_pos_assigned hs
  · obtain ⟨desc, v, hv, hvid, _⟩ := (hinv.bound i sta hs).2 (by rw [hid]; exact hne)
    refine ⟨v, hv, hvid.trans hid, fun hc => (hcounts v hv hc).2.2 ?_⟩
    rw [hvid]
    exact refs_pos_bound hs

def smallVlanConf : VlanConf where
  dynamicVlan := true
  perStaVif := false
  fullDynamicVlan := false
  lines := [.wildcard ['v', '#']]

def smallVlanDesc : VlanDesc where
  untagged := 5
  tagged := []
  untagged_le := by decide
  notempty := by decide

theorem dynamic_vlan_counts_references_small :
    ∃ s, Run.Reach (vlanStep smallVlanConf) (FindsNoLeftover smallVlanConf) (vlanInit smallVlanConf)
        [.addSta, .addSta, .setVlan 0 (some smallVlanDesc) {}, .bindVlan 0,
          .setVlan 1 (some smallVlanDesc) {}, .freeSta 0] s ∧
      ∃ v ∈ s.vlans, v.created = true ∧ v.dynamicVlan = refs s.stas 5 := by
  obtain ⟨s, hs, hp⟩ := Run.reach_of_runWhile_any (vlanStep smallVlanConf)
    (FindsNoLeftover smallVlanConf) (vlanInit smallVlanConf)
    [.addSta, .addSta, .setVlan 0 (some smallVlanDesc) {}, .bindVlan 0,
      .setVlan 1 (some smallVlanDesc) {}, .freeSta 0]
    (fun s => s.vlans.any fun v => v.created && v.vlanId = 5) (by decide +kernel)
  obtain ⟨v, hv, hvp⟩ := any_eq_true.1 hp
  simp only [Bool.and_eq_true, decide_eq_true_eq] at hvp
  obtain ⟨hcounts, _, _⟩ := dynamic_vlan_counts_references smallVlanConf _ s hs
  have := (hcounts v hv hvp.1).1
  rw [hvp.2] at this
  exact ⟨s, hs, v, hv, hvp.1, this⟩

/-- The interface of VLAN 5 is removed with its first station; a second station is then assigned to
the entry that was left, is not counted, and gets no interface. -/
theorem leftover_vlan_not_counted :
    ∃ s, Run.Reach (vlanStep smallVlanConf) Run.always (vlanInit smallVlanConf)
        [.addSta, .addSta, .setVlan 0 (some smallVlanDesc) {}, .freeSta 0,
          .setVlan 1 (some smallVlanDesc) {}] s ∧
      ∃ v ∈ s.vlans, v.created = true ∧ v.vlanId = 5 ∧ v.dynamicVlan = 0 ∧ v.iface = false ∧
        refs s.stas 5 = 1 := by
  obtain ⟨s, hs, hp⟩ := Run.reach_of_runWhile_any (vlanStep smallVlanConf) Run.always
    (vlanInit smallVlanConf)
    [.addSta, .addSta, .setVlan 0 (some smallVlanDesc) {}, .freeSta 0,
      .setVlan 1 (some smallVlanDesc) {}]
    (fun s => s.vlans.any fun v => v.created && v.vlanId = 5 && v.dynamicVlan = 0 && !v.iface &&
      refs s.stas 5 = 1) (by decide +kernel)
  obtain ⟨v, hv, hvp⟩ := any_eq_true.1 hp
  simp only [Bool.and_eq_true, decide_eq_true_eq, Bool.not_eq_true'] at hvp
  obtain ⟨⟨⟨⟨hc, hid⟩, hzero⟩, hif⟩, hrefs⟩ := hvp
  exact ⟨s, hs, v, hv, hc, hid, hzero, hif, hrefs⟩

end Hostap
