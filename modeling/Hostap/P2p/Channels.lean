import Hostap.Dpp.Channel
import Hostap.Lib.Except
import Hostap.Lib.Grouped

/-!
# Channel sets of P2P

`src/p2p/p2p_utils.c` keeps the channels a device supports as an array of operating classes, each with an
array of channel numbers (`struct p2p_channels`), and the channels of a peer come from its Channel List
attribute. `P2pChannels.groups` is the set that such a structure means; the functions are those on sets, as
far as there is room (`p2pChannels_sets`), and none of them leaves its arrays.
-/

namespace Hostap

open FixedArray Grouped

/-! ## The structures -/

/-- `P2P_MAX_REG_CLASSES`. -/
abbrev p2pMaxRegClasses : Nat := 15

/-- `P2P_MAX_REG_CLASS_CHANNELS`. -/
abbrev p2pMaxRegClassChannels : Nat := 20

/-- `struct p2p_reg_class`. -/
structure P2pRegClass where
  regClass : UInt8
  channel : Vector UInt8 p2pMaxRegClassChannels
  channels : Nat
  deriving DecidableEq

/-- `struct p2p_channels`. -/
structure P2pChannels where
  regClass : Vector P2pRegClass p2pMaxRegClasses
  regClasses : Nat
  deriving DecidableEq

/-- `os_memset(res, 0, sizeof(*res))`. -/
def P2pRegClass.zero : P2pRegClass := ⟨0, Vector.replicate _ 0, 0⟩

def P2pChannels.zero : P2pChannels := ⟨Vector.replicate _ P2pRegClass.zero, 0⟩

/-- `struct wpa_freq_range`. -/
structure WpaFreqRange where
  min : Nat
  max : Nat

/-- What `struct p2p_device` has of channels; `forceFreq` is `P2P_DEV_FORCE_FREQ`. -/
structure P2pDevice where
  country : List UInt8
  channels : P2pChannels
  operFreq : Int
  forceFreq : Bool

/-! ## The functions -/

/-- `p2p_channel_to_freq()`. -/
def p2pChannelToFreq (opClass channel : UInt8) : Int :=
  match ieee80211ChanToFreq opClass.toNat channel.toNat with
  | some freq => freq
  | none => -1

/-- `p2p_freq_to_channel()`. -/
def p2pFreqToChannel (freq : Nat) : Option (UInt8 × UInt8) :=
  (ieee80211FreqToChannelExt freq 0 .useHt).map fun c => (UInt8.ofNat c.1, UInt8.ofNat c.2)

/-- `freq_range_list_includes()`. -/
def freqRangeListIncludes (list : Option (List WpaFreqRange)) (freq : Nat) : Bool :=
  match list with
  | none => false
  | some ranges => ranges.any fun range => range.min ≤ freq ∧ freq ≤ range.max

/-- `p2p_reg_class_intersect()`. -/
def p2pRegClassIntersect (a b res : P2pRegClass) : Except BadIndex P2pRegClass := do
  let res := { res with regClass := a.regClass }
  let flow ← forEach a.channel a.channels (fun x res =>
    forEach b.channel b.channels (fun y res =>
      if x ≠ y then .ok (.next res)
      else do
        let channel ← put res.channel res.channels x
        let res := { res with channel, channels := res.channels + 1 }
        if res.channels = p2pMaxRegClassChannels then .ok (.stop res) else .ok (.next res)) res) res
  return flow.state

/-- `p2p_channels_intersect()`. -/
def p2pChannelsIntersect (a b : P2pChannels) : Except BadIndex P2pChannels := do
  let flow ← forEach a.regClass a.regClasses (fun aReg res =>
    forEach b.regClass b.regClasses (fun bReg res =>
      if aReg.regClass ≠ bReg.regClass then .ok (.next res)
      else do
        let cl ← p2pRegClassIntersect aReg bReg (← get res.regClass res.regClasses)
        let res := { res with regClass := ← put res.regClass res.regClasses cl }
        if cl.channels = 0 then .ok (.next res)
        else
          let res := { res with regClasses := res.regClasses + 1 }
          if res.regClasses = p2pMaxRegClasses then .ok (.stop res) else .ok (.next res)) res) P2pChannels.zero
  return flow.state

/-- `p2p_op_class_union()`. -/
def p2pOpClassUnion (cl bCl : P2pRegClass) : Except BadIndex P2pRegClass := do
  let flow ← forEach bCl.channel bCl.channels (fun x cl => do
    if ← anyOf cl.channel cl.channels (fun y => x = y) then .ok (.next cl)
    else if cl.channels = p2pMaxRegClassChannels then .ok (.stop cl)
    else
      let channel ← put cl.channel cl.channels x
      .ok (.next { cl with channel, channels := cl.channels + 1 })) cl
  return flow.state

/-- `p2p_channels_union_inplace()`. -/
def p2pChannelsUnionInplace (res b : P2pChannels) : Except BadIndex P2pChannels := do
  let regClass ← updateEach (fun cl => do
    let flow ← forEach b.regClass b.regClasses (fun bCl cl =>
      if cl.regClass ≠ bCl.regClass then .ok (.next cl)
      else do
        let cl ← p2pOpClassUnion cl bCl
        .ok (.next cl)) cl
    return flow.state) res.regClass res.regClasses
  let res := { res with regClass }
  let flow ← forEach b.regClass b.regClasses (fun bCl res => do
    if ← anyOf res.regClass res.regClasses (fun cl => cl.regClass = bCl.regClass) then .ok (.next res)
    else if res.regClasses = p2pMaxRegClasses then .ok (.stop res)
    else
      let regClass ← put res.regClass res.regClasses bCl
      .ok (.next { res with regClass, regClasses := res.regClasses + 1 })) res
  return flow.state

/-- `p2p_channels_union()`, which starts with a copy of `a`. -/
def p2pChannelsUnion (a b : P2pChannels) : Except BadIndex P2pChannels := p2pChannelsUnionInplace a b

/-- The test of `p2p_channels_remove_freqs()`. -/
def freqListed (list : Option (List WpaFreqRange)) (regClass channel : UInt8) : Bool :=
  let freq := p2pChannelToFreq regClass channel
  freq > 0 && freqRangeListIncludes list freq.toNat

/-- The inner loop of `p2p_channels_remove_freqs()`. -/
def removeChannels (list : Option (List WpaFreqRange)) (op : P2pRegClass) : Except BadIndex P2pRegClass := do
  let (channel, channels) ←
    filterEach (fun c => .ok (c, ! freqListed list op.regClass c)) op.channel op.channels
  return { op with channel, channels }

/-- `p2p_channels_remove_freqs()`. -/
def p2pChannelsRemoveFreqs (chan : P2pChannels) (list : Option (List WpaFreqRange)) :
    Except BadIndex P2pChannels :=
  match list with
  | none => .ok chan
  | some _ => do
    let (regClass, regClasses) ← filterEach (fun op => do
      let op ← removeChannels list op
      return (op, op.channels ≠ 0)) chan.regClass chan.regClasses
    return { regClass, regClasses }

/-- `p2p_channels_includes()`. -/
def p2pChannelsIncludes (channels : P2pChannels) (regClass channel : UInt8) : Except BadIndex Bool := do
  let flow ← forEach channels.regClass channels.regClasses (fun reg found => do
    if reg.regClass ≠ regClass then .ok (.next found)
    else if ← anyOf reg.channel reg.channels (fun c => c = channel) then .ok (.stop true)
    else .ok (.next found)) false
  return flow.state

/-- The loop of `p2p_peer_channels_check()` over the operating classes of the attribute, with the turns there
is room for. The flag is whether the attribute could be read. -/
def readChannelList (channelList : List UInt8) : Nat → Nat → P2pChannels → Except BadIndex (P2pChannels × Bool)
  | 0, _, ch => .ok (ch, true)
  | turns + 1, pos, ch =>
    if channelList.length - pos > 2 then do
      let cl ← get ch.regClass ch.regClasses
      let cl := { cl with regClass := ← readIndex channelList pos }
      let channels := (← readIndex channelList (pos + 1)).toNat
      if channels > channelList.length - (pos + 2) then
        .ok ({ ch with regClass := ← put ch.regClass ch.regClasses cl }, false)
      else
        let len := if channels > p2pMaxRegClassChannels then p2pMaxRegClassChannels else channels
        let cl := { cl with channels := len, channel := ← copyIn cl.channel channelList (pos + 2) len }
        let ch := { ch with
          regClass := ← put ch.regClass ch.regClasses cl
          regClasses := ch.regClasses + 1 }
        if ch.regClasses = p2pMaxRegClasses then .ok (ch, true)
        else readChannelList channelList turns (pos + 2 + channels) ch
    else .ok (ch, true)

/-- `p2p_peer_channels_check()`. The flag is whether it returns 0. -/
def p2pPeerChannelsCheck (cfgCountry : Vector UInt8 3) (own : P2pChannels) (dev : P2pDevice)
    (channelList : List UInt8) : Except BadIndex (P2pDevice × Bool) := do
  let dev := { dev with channels := P2pChannels.zero }
  if channelList.length < 3 then .ok (dev, false)
  else
    let country := [← readIndex channelList 0, ← readIndex channelList 1, ← readIndex channelList 2]
    let dev := { dev with country }
    if country[2]? ≠ some 0x04 ∧ country.take 2 ≠ cfgCountry.toList.take 2 then .ok (dev, false)
    else
      let (channels, valid) ← readChannelList channelList p2pMaxRegClasses 3 dev.channels
      let dev := { dev with channels }
      if ¬ valid then .ok (dev, false)
      else
        let intersection ← p2pChannelsIntersect own dev.channels
        .ok (dev, intersection.regClasses ≠ 0)

/-! ## The sets -/

def P2pRegClass.toGroup (cl : P2pRegClass) : UInt8 × List UInt8 := (cl.regClass, used cl.channel cl.channels)

def P2pChannels.groups (p : P2pChannels) : List (UInt8 × List UInt8) :=
  (used p.regClass p.regClasses).map P2pRegClass.toGroup

/-- The numbers do not go beyond the arrays. -/
structure P2pChannels.Fits (p : P2pChannels) : Prop where
  regClasses : p.regClasses ≤ p2pMaxRegClasses
  channels : ∀ cl ∈ used p.regClass p.regClasses, cl.channels ≤ p2pMaxRegClassChannels

def P2pChannels.Distinct (p : P2pChannels) : Prop := Grouped.Distinct p.groups

/-- The structure has the channel, as `p2p_channels_includes()` sees it. -/
def P2pChannels.Includes (p : P2pChannels) (regClass channel : UInt8) : Prop :=
  p2pChannelsIncludes p regClass channel = .ok true

def P2pChannels.UnionFits (a b : P2pChannels) : Prop :=
  Grouped.UnionFits p2pMaxRegClasses p2pMaxRegClassChannels a.groups b.groups

section
variable {a b p res : P2pChannels} {cl aReg bReg : P2pRegClass} {list : Option (List WpaFreqRange)}

theorem P2pChannels.zero_fits : P2pChannels.zero.Fits :=
  ⟨Nat.zero_le _, nofun⟩

theorem P2pChannels.Fits.groups_length (h : p.Fits) : p.groups.length = p.regClasses := by
  unfold P2pChannels.groups
  rw [List.length_map, used_length h.regClasses]

theorem P2pChannels.Fits.grouped (h : p.Fits) :
    Grouped.Fits p2pMaxRegClasses p2pMaxRegClassChannels p.groups := by
  constructor
  · rw [h.groups_length]
    exact h.regClasses
  · intro g hg
    obtain ⟨cl, hcl, rfl⟩ := List.mem_map.1 hg
    show (used cl.channel cl.channels).length ≤ _
    rw [used_length (h.channels cl hcl)]
    exact h.channels cl hcl

theorem groups_put (h : p.regClasses < p2pMaxRegClasses) (cl : P2pRegClass) :
    P2pChannels.groups { p with
      regClass := p.regClass.set p.regClasses cl h, regClasses := p.regClasses + 1 } =
      p.groups ++ [cl.toGroup] := by
  unfold P2pChannels.groups
  show (used (p.regClass.set p.regClasses cl) (p.regClasses + 1)).map _ = _
  rw [used_put h, List.map_append, List.map_singleton]

theorem P2pChannels.Fits.put (hp : p.Fits) (cl : P2pRegClass) (h : p.regClasses < p2pMaxRegClasses)
    (hcl : cl.channels ≤ p2pMaxRegClassChannels) :
    P2pChannels.Fits { p with
      regClass := p.regClass.set p.regClasses cl h, regClasses := p.regClasses + 1 } := by
  refine ⟨h, ?_⟩
  show ∀ c ∈ used (p.regClass.set p.regClasses cl) (p.regClasses + 1), _
  rw [used_put h]
  intro c hc
  rcases List.mem_append.1 hc with hc | hc
  · exact hp.channels c hc
  · rw [List.mem_singleton.1 hc]
    exact hcl

theorem groups_put_behind (h : p.regClasses < p2pMaxRegClasses) (cl : P2pRegClass) :
    P2pChannels.groups { p with regClass := p.regClass.set p.regClasses cl h } = p.groups := by
  unfold P2pChannels.groups
  show (used (p.regClass.set p.regClasses cl) p.regClasses).map _ = _
  rw [used_put_of_le h (Nat.le_refl _)]

theorem P2pChannels.Fits.put_behind (hp : p.Fits) (h : p.regClasses < p2pMaxRegClasses) (cl : P2pRegClass) :
    P2pChannels.Fits { p with regClass := p.regClass.set p.regClasses cl h } := by
  refine ⟨hp.regClasses, ?_⟩
  show ∀ c ∈ used (p.regClass.set p.regClasses cl) p.regClasses, _
  rw [used_put_of_le h (Nat.le_refl _)]
  exact hp.channels

/-! ## Membership -/

theorem includesLoop_eq (regClass channel : UInt8) {cls : List P2pRegClass}
    (h : ∀ cl ∈ cls, cl.channels ≤ p2pMaxRegClassChannels) :
    ∃ flow, overList (fun (reg : P2pRegClass) found => do
        if reg.regClass ≠ regClass then .ok (.next found)
        else if ← anyOf reg.channel reg.channels (fun c => c = channel) then .ok (.stop true)
        else .ok (.next found)) cls false = .ok flow ∧
      (flow.state = true ↔ HasPair (cls.map P2pRegClass.toGroup) regClass channel) := by
  induction cls with
  | nil => exact ⟨.next false, rfl, fun h => (Bool.false_ne_true h).elim, fun ⟨_, h, _⟩ => by cases h⟩
  | cons cl cls ih =>
    obtain ⟨flow, hflow, hiff⟩ := ih fun c hc => h c (List.mem_cons_of_mem _ hc)
    have hcons : HasPair ((cl :: cls).map P2pRegClass.toGroup) regClass channel ↔
        (cl.regClass = regClass ∧ channel ∈ used cl.channel cl.channels) ∨
          HasPair (cls.map P2pRegClass.toGroup) regClass channel := by
      unfold HasPair
      simp only [List.map_cons, List.mem_cons, exists_eq_or_imp]
      rfl
    rw [hcons, overList]
    by_cases hclass : cl.regClass = regClass
    · rw [if_neg (not_not_intro hclass), anyOf_eq (h cl List.mem_cons_self)]
      by_cases hchan : channel ∈ used cl.channel cl.channels
      · have hany : (used cl.channel cl.channels).any (fun c => c = channel) = true :=
          List.any_eq_true.2 ⟨channel, hchan, decide_eq_true rfl⟩
        rw [hany]
        exact ⟨.stop true, rfl, fun _ => .inl ⟨hclass, hchan⟩, fun _ => rfl⟩
      · have hany : (used cl.channel cl.channels).any (fun c => c = channel) = false := by
          rw [List.any_eq_false]
          intro c hc hcc
          exact hchan (of_decide_eq_true hcc ▸ hc)
        rw [hany]
        refine ⟨flow, hflow, hiff.trans ⟨.inr, ?_⟩⟩
        rintro (⟨-, hc⟩ | hrest)
        · exact absurd hc hchan
        · exact hrest
    · rw [if_pos hclass]
      refine ⟨flow, hflow, hiff.trans ⟨.inr, ?_⟩⟩
      rintro (⟨hc, -⟩ | hrest)
      · exact absurd hc hclass
      · exact hrest

theorem p2pChannelsIncludes_ok (h : p.Fits) (regClass channel : UInt8) :
    ∃ found, p2pChannelsIncludes p regClass channel = .ok found ∧
      (found = true ↔ HasPair p.groups regClass channel) := by
  obtain ⟨flow, hflow, hiff⟩ := includesLoop_eq regClass channel h.channels
  refine ⟨flow.state, ?_, hiff⟩
  unfold p2pChannelsIncludes
  rw [forEach_eq h.regClasses, hflow]
  rfl

theorem includes_iff (h : p.Fits) {regClass channel : UInt8} :
    p.Includes regClass channel ↔ HasPair p.groups regClass channel := by
  obtain ⟨found, hfound, hiff⟩ := p2pChannelsIncludes_ok h regClass channel
  rw [← hiff]
  unfold P2pChannels.Includes
  rw [hfound]
  exact ⟨Except.ok.inj, fun h => h ▸ rfl⟩

/-! ## Intersection -/

def RegClassInv (regClass : UInt8) (res : P2pRegClass) : Prop :=
  res.regClass = regClass ∧ res.channels ≤ p2pMaxRegClassChannels

def P2pRegClass.view (cl : P2pRegClass) : List UInt8 := used cl.channel cl.channels

theorem view_length (h : cl.channels ≤ p2pMaxRegClassChannels) : cl.view.length = cl.channels := used_length h

theorem view_put (h : cl.channels < p2pMaxRegClassChannels) (x : UInt8) :
    ({ cl with channel := cl.channel.set cl.channels x h, channels := cl.channels + 1 } : P2pRegClass).view =
      cl.view ++ [x] := used_put h

theorem p2pRegClassIntersect_ok (ha : aReg.channels ≤ p2pMaxRegClassChannels)
    (hb : bReg.channels ≤ p2pMaxRegClassChannels) (hres : cl.channels = 0) :
    ∃ r, p2pRegClassIntersect aReg bReg cl = .ok r ∧ r.channels ≤ p2pMaxRegClassChannels ∧
      r.toGroup = (aReg.regClass, (common aReg.view bReg.view).take p2pMaxRegClassChannels) := by
  have hpair : ∀ x y, ∀ res, RegClassInv aReg.regClass res → res.view.length < p2pMaxRegClassChannels →
      Fills (RegClassInv aReg.regClass) P2pRegClass.view p2pMaxRegClassChannels (if x = y then [x] else []) res
        (if x ≠ y then .ok (.next res)
        else do
          let channel ← put res.channel res.channels x
          let res := { res with channel, channels := res.channels + 1 }
          if res.channels = p2pMaxRegClassChannels then .ok (.stop res) else .ok (.next res)) := by
    intro x y res hinv hroom
    by_cases hxy : x = y
    · rw [if_pos hxy, if_neg (not_not_intro hxy)]
      rw [view_length hinv.2] at hroom
      rw [put_ok hroom]
      refine fills_one ⟨hinv.1, hroom⟩ (view_put hroom x) (by rw [view_length hinv.2]; exact hroom) ?_
      rw [view_put hroom, List.length_append, view_length hinv.2]
      rfl
    · rw [if_neg hxy, if_pos hxy]
      exact fills_nil hinv rfl hroom
  obtain ⟨flow, hflow, hinv, hview, -⟩ := fills_forEach (v := aReg.channel) (k := aReg.channels) ha
    (s := { cl with regClass := aReg.regClass }) (fun x _ res hinv hroom =>
      fills_forEach (v := bReg.channel) (k := bReg.channels) hb
        (fun y _ res hinv hroom => hpair x y res hinv hroom) hinv hroom)
    ⟨rfl, by show cl.channels ≤ _; omega⟩
    (by rw [view_length (by show cl.channels ≤ _; omega)]; show cl.channels < _; rw [hres]; decide)
  refine ⟨flow.state, ?_, hinv.2, ?_⟩
  · exact bind_of_ok hflow _
  · have hempty : ({ cl with regClass := aReg.regClass } : P2pRegClass).view = [] := by
      show used cl.channel cl.channels = []
      rw [hres]
      rfl
    rw [hempty, List.nil_append] at hview
    exact Prod.ext hinv.1 hview

/-- What the set being written keeps: behind its classes every class is empty. -/
structure IntersectInv (res : P2pChannels) : Prop where
  fits : res.Fits
  empty : ∀ i, (h : i < p2pMaxRegClasses) → res.regClasses ≤ i → res.regClass[i].channels = 0

theorem IntersectInv.put_behind (hinv : IntersectInv res) (hroom : res.regClasses < p2pMaxRegClasses)
    (hzero : cl.channels = 0) :
    IntersectInv { res with regClass := res.regClass.set res.regClasses cl hroom } := by
  refine ⟨hinv.fits.put_behind hroom cl, fun i h hi => ?_⟩
  show (res.regClass.set res.regClasses cl)[i].channels = 0
  by_cases heq : res.regClasses = i
  · rw [Vector.getElem_set, if_pos heq]
    exact hzero
  · rw [Vector.getElem_set_ne _ _ heq]
    exact hinv.empty i h hi

theorem IntersectInv.put (hinv : IntersectInv res) (hroom : res.regClasses < p2pMaxRegClasses)
    (hle : cl.channels ≤ p2pMaxRegClassChannels) :
    IntersectInv { res with
      regClass := res.regClass.set res.regClasses cl hroom, regClasses := res.regClasses + 1 } := by
  refine ⟨hinv.fits.put cl hroom hle, fun i h hi => ?_⟩
  show (res.regClass.set res.regClasses cl)[i].channels = 0
  rw [Vector.getElem_set_ne _ _ (Nat.ne_of_lt hi)]
  exact hinv.empty i h (Nat.le_of_succ_le hi)

theorem intersectPair (ha : aReg.channels ≤ p2pMaxRegClassChannels)
    (hb : bReg.channels ≤ p2pMaxRegClassChannels) (hinv : IntersectInv res)
    (hroom : res.groups.length < p2pMaxRegClasses) :
    Fills IntersectInv P2pChannels.groups p2pMaxRegClasses
      (commonGroup p2pMaxRegClassChannels aReg.toGroup bReg.toGroup) res
      (if aReg.regClass ≠ bReg.regClass then .ok (.next res)
      else do
        let cl ← p2pRegClassIntersect aReg bReg (← get res.regClass res.regClasses)
        let res := { res with regClass := ← put res.regClass res.regClasses cl }
        if cl.channels = 0 then .ok (.next res)
        else
          let res := { res with regClasses := res.regClasses + 1 }
          if res.regClasses = p2pMaxRegClasses then .ok (.stop res) else .ok (.next res)) := by
  by_cases hclass : aReg.regClass = bReg.regClass
  · rw [if_neg (not_not_intro hclass)]
    rw [hinv.fits.groups_length] at hroom
    obtain ⟨cl, hcl, hle, hgroup⟩ := p2pRegClassIntersect_ok ha hb (hinv.empty _ hroom (Nat.le_refl _))
    rw [get_ok hroom]
    show Fills _ _ _ _ _ (p2pRegClassIntersect aReg bReg _ >>= _)
    rw [hcl]
    show Fills _ _ _ _ _ (put res.regClass res.regClasses cl >>= _)
    rw [put_ok hroom]
    show Fills _ _ _ _ _ (if cl.channels = 0 then _ else _)
    have hlen : ((common aReg.view bReg.view).take p2pMaxRegClassChannels).length = cl.channels := by
      have hsnd : used cl.channel cl.channels =
          (common aReg.view bReg.view).take p2pMaxRegClassChannels := congrArg Prod.snd hgroup
      rw [← hsnd]
      exact used_length hle
    by_cases hzero : cl.channels = 0
    · -- the entry is left half filled, and is the next one to be used
      rw [if_pos hzero, commonGroup_of_nil (List.eq_nil_of_length_eq_zero (hlen.trans hzero))]
      exact fills_nil (hinv.put_behind hroom hzero) (groups_put_behind hroom cl)
        (by rw [hinv.fits.groups_length]; exact hroom)
    · have hne : (common aReg.view bReg.view).take p2pMaxRegClassChannels ≠ [] := by
        intro hnil
        rw [hnil] at hlen
        exact hzero hlen.symm
      rw [if_neg hzero, commonGroup_of_ne_nil hclass hne]
      apply fills_one
      · exact hinv.put hroom hle
      · rw [groups_put hroom, hgroup]
        rfl
      · rw [hinv.fits.groups_length]
        exact hroom
      · rw [(hinv.fits.put cl hroom hle).groups_length]
  · rw [if_pos hclass, commonGroup_of_ne hclass]
    exact fills_nil hinv rfl hroom

theorem p2pChannelsIntersect_ok (ha : a.Fits) (hb : b.Fits) :
    ∃ r, p2pChannelsIntersect a b = .ok r ∧ r.Fits ∧
      r.groups = inter p2pMaxRegClasses p2pMaxRegClassChannels a.groups b.groups := by
  have hstart : IntersectInv P2pChannels.zero := by
    refine ⟨P2pChannels.zero_fits, fun i h _ => ?_⟩
    show (Vector.replicate p2pMaxRegClasses P2pRegClass.zero)[i].channels = 0
    rw [Vector.getElem_replicate]
    rfl
  obtain ⟨flow, hflow, hinv, hview, -⟩ := fills_forEach (v := a.regClass) (k := a.regClasses) ha.regClasses
    (s := P2pChannels.zero) (fun aReg haReg res hinv hroom =>
      fills_forEach (v := b.regClass) (k := b.regClasses) hb.regClasses
        (fun bReg hbReg res hinv hroom =>
          intersectPair (ha.channels aReg haReg) (hb.channels bReg hbReg) hinv hroom) hinv hroom)
    hstart (by decide)
  refine ⟨flow.state, ?_, hinv.fits, ?_⟩
  · exact bind_of_ok hflow _
  · rw [hview]
    show ([] ++ _).take _ = _
    unfold inter P2pChannels.groups
    rw [List.nil_append, List.flatMap_map]
    simp only [List.flatMap_map]

/-! ## Union -/

theorem addChannel_adds (hinv : RegClassInv regClass c) (x : UInt8) :
    Adds (RegClassInv regClass) P2pRegClass.view p2pMaxRegClassChannels id x c (do
      if ← anyOf c.channel c.channels (fun y => x = y) then .ok (.next c)
      else if c.channels = p2pMaxRegClassChannels then .ok (.stop c)
      else
        let channel ← put c.channel c.channels x
        .ok (.next { c with channel, channels := c.channels + 1 })) := by
  rw [anyOf_eq hinv.2]
  refine adds_ite hinv ?_ ?_ ?_
  · rw [List.map_id, List.any_eq_true]
    constructor
    · rintro ⟨y, hy, hxy⟩
      rwa [id_eq, of_decide_eq_true hxy]
    · exact fun hmem => ⟨x, hmem, decide_eq_true rfl⟩
  · rw [view_length hinv.2]
  · intro hfull
    have hroom : c.channels < p2pMaxRegClassChannels := Nat.lt_of_le_of_ne hinv.2 hfull
    rw [put_ok hroom]
    exact ⟨_, rfl, ⟨hinv.1, hroom⟩, view_put hroom x⟩

theorem p2pOpClassUnion_ok (hcl : cl.channels ≤ p2pMaxRegClassChannels)
    (hb : bReg.channels ≤ p2pMaxRegClassChannels) :
    ∃ r, p2pOpClassUnion cl bReg = .ok r ∧ RegClassInv cl.regClass r ∧
      r.view = addUpTo p2pMaxRegClassChannels id cl.view bReg.view := by
  have hturn : ∀ x ∈ bReg.view, ∀ c, RegClassInv cl.regClass c → _ := fun x _ c hinv => addChannel_adds hinv x
  obtain ⟨flow, hflow, hinv, hview⟩ := adds_overList id hturn ⟨rfl, hcl⟩
  refine ⟨flow.state, ?_, hinv, by rw [hview, List.map_id]⟩
  unfold p2pOpClassUnion
  rw [forEach_eq hb]
  exact bind_of_ok hflow _

theorem mergeLoop_ok {cls : List P2pRegClass} (hcl : cl.channels ≤ p2pMaxRegClassChannels)
    (h : ∀ c ∈ cls, c.channels ≤ p2pMaxRegClassChannels) :
    ∃ flow, overList (fun (bCl : P2pRegClass) (cl : P2pRegClass) =>
        if cl.regClass ≠ bCl.regClass then .ok (.next cl)
        else do
          let cl ← p2pOpClassUnion cl bCl
          .ok (.next cl)) cls cl = .ok flow ∧
      RegClassInv cl.regClass flow.state ∧
      flow.state.view = (cls.map P2pRegClass.toGroup).foldl
        (fun acc g => if cl.regClass = g.1 then addUpTo p2pMaxRegClassChannels id acc g.2 else acc)
        cl.view := by
  induction cls generalizing cl with
  | nil => exact ⟨.next cl, rfl, ⟨rfl, hcl⟩, rfl⟩
  | cons bCl cls ih =>
    have hrest := fun (c : P2pRegClass) (hc : c.channels ≤ p2pMaxRegClassChannels) =>
      ih hc fun d hd => h d (List.mem_cons_of_mem _ hd)
    rw [overList, List.map_cons, List.foldl_cons]
    by_cases hclass : cl.regClass = bCl.regClass
    · obtain ⟨c, hc, hinv, hview⟩ := p2pOpClassUnion_ok hcl (h bCl List.mem_cons_self)
      obtain ⟨flow, hflow, hinv', hview'⟩ := hrest c hinv.2
      rw [if_neg (not_not_intro hclass), if_pos (show cl.regClass = bCl.toGroup.1 from hclass), hc]
      refine ⟨flow, hflow, ⟨hinv'.1.trans hinv.1, hinv'.2⟩, ?_⟩
      rw [hview', hinv.1, hview]
      rfl
    · rw [if_pos hclass, if_neg (show ¬ cl.regClass = bCl.toGroup.1 from hclass)]
      exact hrest cl hcl

theorem mergeClasses_ok (ha : a.Fits) (hb : b.Fits) :
    ∃ v, updateEach (fun cl : P2pRegClass => do
        let flow ← forEach b.regClass b.regClasses (fun bCl cl =>
          if cl.regClass ≠ bCl.regClass then .ok (.next cl)
          else do
            let cl ← p2pOpClassUnion cl bCl
            .ok (.next cl)) cl
        return flow.state) a.regClass a.regClasses = .ok v ∧
      (P2pChannels.mk v a.regClasses).Fits ∧
      (P2pChannels.mk v a.regClasses).groups = a.groups.map (mergeGroup p2pMaxRegClassChannels b.groups) := by
  obtain ⟨v, g, hv, hused, hg⟩ := updateEach_ok (v := a.regClass) (k := a.regClasses)
    (P := fun cl c => c.channels ≤ p2pMaxRegClassChannels ∧
      c.toGroup = mergeGroup p2pMaxRegClassChannels b.groups cl.toGroup)
    (f := fun cl => do
      let flow ← forEach b.regClass b.regClasses (fun bCl cl =>
        if cl.regClass ≠ bCl.regClass then .ok (.next cl)
        else do
          let cl ← p2pOpClassUnion cl bCl
          .ok (.next cl)) cl
      return flow.state) ha.regClasses (by
        intro cl hcl
        obtain ⟨flow, hflow, hinv, hview⟩ := mergeLoop_ok (ha.channels cl hcl) hb.channels
        rw [forEach_eq hb.regClasses]
        exact ⟨flow.state, bind_of_ok hflow _, hinv.2, Prod.ext hinv.1 hview⟩)
  refine ⟨v, hv, ⟨ha.regClasses, ?_⟩, ?_⟩
  · show ∀ c ∈ used v a.regClasses, _
    rw [hused]
    intro c hc
    obtain ⟨cl, hcl, rfl⟩ := List.mem_map.1 hc
    exact (hg cl hcl).1
  · unfold P2pChannels.groups
    show (used v a.regClasses).map _ = _
    rw [hused, List.map_map, List.map_map]
    exact List.map_congr_left fun cl hcl => (hg cl hcl).2

theorem addClass_adds (hr : r.Fits) (hbCl : bCl.channels ≤ p2pMaxRegClassChannels) :
    Adds P2pChannels.Fits P2pChannels.groups p2pMaxRegClasses Prod.fst bCl.toGroup r (do
      if ← anyOf r.regClass r.regClasses (fun cl => cl.regClass = bCl.regClass) then .ok (.next r)
      else if r.regClasses = p2pMaxRegClasses then .ok (.stop r)
      else
        let regClass ← put r.regClass r.regClasses bCl
        .ok (.next { r with regClass, regClasses := r.regClasses + 1 })) := by
  rw [anyOf_eq hr.regClasses]
  refine adds_ite hr ?_ ?_ ?_
  · unfold P2pChannels.groups
    rw [List.any_eq_true, List.map_map, List.mem_map]
    exact exists_congr fun cl => and_congr_right fun _ => decide_eq_true_iff
  · rw [hr.groups_length]
  · intro hfull
    have hroom : r.regClasses < p2pMaxRegClasses := Nat.lt_of_le_of_ne hr.regClasses hfull
    rw [put_ok hroom]
    exact ⟨_, rfl, hr.put bCl hroom hbCl, groups_put hroom bCl⟩

theorem p2pChannelsUnionInplace_ok (ha : a.Fits) (hb : b.Fits) :
    ∃ r, p2pChannelsUnionInplace a b = .ok r ∧ r.Fits ∧
      r.groups = union p2pMaxRegClasses p2pMaxRegClassChannels a.groups b.groups := by
  obtain ⟨v, hv, hmerged, hgroups⟩ := mergeClasses_ok ha hb
  have hturn : ∀ bCl ∈ used b.regClass b.regClasses, ∀ r : P2pChannels, r.Fits → _ :=
    fun bCl hbCl r hr => addClass_adds hr (hb.channels bCl hbCl)
  obtain ⟨flow, hflow, hfits, hview⟩ := adds_overList P2pRegClass.toGroup hturn hmerged
  refine ⟨flow.state, ?_, hfits, ?_⟩
  · unfold p2pChannelsUnionInplace
    rw [hv]
    show (forEach b.regClass b.regClasses _ (P2pChannels.mk v a.regClasses) >>= _) = _
    rw [forEach_eq hb.regClasses]
    exact bind_of_ok hflow _
  · rw [hview, hgroups]
    rfl

/-! ## Removal -/

theorem removeChannels_ok (list : Option (List WpaFreqRange)) (h : cl.channels ≤ p2pMaxRegClassChannels) :
    ∃ r, removeChannels list cl = .ok r ∧ r.channels ≤ p2pMaxRegClassChannels ∧
      r.toGroup = (cl.regClass, cl.view.filter fun c => ! freqListed list cl.regClass c) := by
  obtain ⟨channel, channels, g, hrun, hle, hused, hg⟩ := filterEach_ok (v := cl.channel) (k := cl.channels)
    (f := fun c => .ok (c, ! freqListed list cl.regClass c))
    (P := fun c r => r = (c, ! freqListed list cl.regClass c)) h (fun c _ => ⟨_, rfl, rfl⟩)
  refine ⟨_, bind_of_ok hrun _, Nat.le_trans hle h, ?_⟩
  have hkept : kept g cl.view = cl.view.filter fun c => ! freqListed list cl.regClass c := by
    have hmap : cl.view.map g = cl.view.map fun c => (c, ! freqListed list cl.regClass c) :=
      List.map_congr_left hg
    unfold kept
    rw [hmap, List.filter_map, List.map_map]
    exact List.map_id _
  exact Prod.ext rfl (hused.trans hkept)

/-- What becomes of a class, and whether it stays. -/
structure ClassRemoved (list : Option (List WpaFreqRange)) (cl : P2pRegClass) (r : P2pRegClass × Bool) :
    Prop where
  channels : r.1.channels ≤ p2pMaxRegClassChannels
  stays : r.2 = decide (r.1.channels ≠ 0)
  group : r.1.toGroup = (cl.regClass, cl.view.filter fun c => ! freqListed list cl.regClass c)

theorem removeClass_ok (list : Option (List WpaFreqRange)) (h : cl.channels ≤ p2pMaxRegClassChannels) :
    ∃ r, (do
        let op ← removeChannels list cl
        return (op, decide (op.channels ≠ 0))) = Except.ok r ∧ ClassRemoved list cl r := by
  obtain ⟨r, hr, hle, hgroup⟩ := removeChannels_ok list h
  exact ⟨_, bind_of_ok hr _, hle, rfl, hgroup⟩

theorem ClassRemoved.stays_eq {r : P2pRegClass × Bool} (h : ClassRemoved list cl r) :
    r.2 = ! (cl.view.filter fun c => ! freqListed list cl.regClass c).isEmpty := by
  have hlist : r.1.view = cl.view.filter fun c => ! freqListed list cl.regClass c := congrArg Prod.snd h.group
  have hempty : r.1.view.isEmpty = decide (r.1.channels = 0) := by
    rw [← view_length h.channels, Bool.eq_iff_iff, List.isEmpty_iff_length_eq_zero, decide_eq_true_iff]
  rw [h.stays, ← hlist, hempty, ← decide_not]

theorem kept_groups {g : P2pRegClass → P2pRegClass × Bool} {cls : List P2pRegClass}
    (hg : ∀ cl ∈ cls, ClassRemoved list cl (g cl)) :
    (kept g cls).map P2pRegClass.toGroup =
      Grouped.remove (freqListed list) (cls.map P2pRegClass.toGroup) := by
  unfold kept Grouped.remove
  rw [List.map_map, List.map_map, List.filter_map, List.filter_map, List.map_map]
  have hsame : cls.filter (Prod.snd ∘ g) = cls.filter ((fun g => ! g.2.isEmpty) ∘
      ((fun g => (g.1, g.2.filter fun x => ! freqListed list g.1 x)) ∘ P2pRegClass.toGroup)) :=
    List.filter_congr fun cl hcl => (hg cl hcl).stays_eq
  rw [hsame]
  exact List.map_congr_left fun cl hcl => (hg cl (List.mem_of_mem_filter hcl)).group

theorem p2pChannelsRemoveFreqs_ok (list : Option (List WpaFreqRange)) (h : p.Fits) :
    ∃ r, p2pChannelsRemoveFreqs p list = .ok r ∧ r.Fits ∧
      ∀ c ch, HasPair r.groups c ch ↔ HasPair p.groups c ch ∧ freqListed list c ch = false := by
  cases list with
  | none =>
    refine ⟨p, rfl, h, fun c ch => ?_⟩
    have hnot : freqListed none c ch = false := Bool.and_false _
    rw [hnot]
    exact ⟨fun h => ⟨h, rfl⟩, And.left⟩
  | some ranges =>
    obtain ⟨v, count, g, hrun, hle, hused, hg⟩ := filterEach_ok (v := p.regClass) (k := p.regClasses)
      (f := fun op => do
        let op ← removeChannels (some ranges) op
        return (op, decide (op.channels ≠ 0)))
      (P := ClassRemoved (some ranges)) h.regClasses
      fun cl hcl => removeClass_ok (some ranges) (h.channels cl hcl)
    have hfits : (P2pChannels.mk v count).Fits := by
      refine ⟨Nat.le_trans hle h.regClasses, ?_⟩
      show ∀ c ∈ used v count, _
      rw [hused]
      intro c hc
      obtain ⟨r, hr, rfl⟩ := List.mem_map.1 hc
      obtain ⟨cl, hcl, rfl⟩ := List.mem_map.1 (List.mem_of_mem_filter hr)
      exact (hg cl hcl).channels
    have hgroups : (P2pChannels.mk v count).groups = Grouped.remove (freqListed (some ranges)) p.groups := by
      show (used v count).map _ = _
      rw [hused]
      exact kept_groups hg
    refine ⟨_, bind_of_ok hrun _, hfits, fun c ch => ?_⟩
    rw [hgroups]
    exact remove_has

/-! ## The list of a peer -/

/-- A Channel List attribute names a channel, behind the country: it is in the list of channels of an entry
that ends within the attribute, as those in front of it do. -/
inductive ChannelListHas : List UInt8 → UInt8 → UInt8 → Prop
  | here {opClass count channel : UInt8} {rest : List UInt8} (hlen : count.toNat ≤ rest.length)
      (h : channel ∈ rest.take count.toNat) : ChannelListHas (opClass :: count :: rest) opClass channel
  | later {opClass channel c count : UInt8} {rest : List UInt8} (hlen : count.toNat ≤ rest.length)
      (h : ChannelListHas (rest.drop count.toNat) opClass channel) :
      ChannelListHas (c :: count :: rest) opClass channel

theorem hasPair_append_entry {c count : UInt8} {rest : List UInt8} {len : Nat}
    {groups : List (UInt8 × List UInt8)} {k x : UInt8} (hlen : len ≤ count.toNat)
    (hcount : count.toNat ≤ rest.length) (h : HasPair (groups ++ [(c, rest.take len)]) k x) :
    HasPair groups k x ∨ ChannelListHas (c :: count :: rest) k x := by
  obtain ⟨g, hg, rfl, hx⟩ := h
  rcases List.mem_append.1 hg with hg | hg
  · exact .inl ⟨g, hg, rfl, hx⟩
  · rw [List.mem_singleton.1 hg] at hx ⊢
    refine .inr (.here hcount ?_)
    exact List.mem_of_mem_take (i := len) (by rwa [List.take_take, Nat.min_eq_left hlen])

theorem copiedChannels_le (count : Nat) :
    (if count > p2pMaxRegClassChannels then p2pMaxRegClassChannels else count) ≤ count ∧
      (if count > p2pMaxRegClassChannels then p2pMaxRegClassChannels else count) ≤ p2pMaxRegClassChannels := by
  by_cases hmax : count > p2pMaxRegClassChannels
  · rw [if_pos hmax]
    exact ⟨Nat.le_of_lt hmax, Nat.le_refl _⟩
  · rw [if_neg hmax]
    exact ⟨Nat.le_refl _, Nat.le_of_not_lt hmax⟩

theorem readChannelList_ok (l : List UInt8) (turns pos : Nat) {ch : P2pChannels} (hch : ch.Fits)
    (hturns : ch.regClasses + turns ≤ p2pMaxRegClasses) :
    ∃ r, readChannelList l turns pos ch = .ok r ∧ r.1.Fits ∧
      ∀ c x, HasPair r.1.groups c x → HasPair ch.groups c x ∨ ChannelListHas (l.drop pos) c x := by
  induction turns generalizing pos ch with
  | zero => exact ⟨_, rfl, hch, fun c x h => .inl h⟩
  | succ turns ih =>
    unfold readChannelList
    by_cases hmore : l.length - pos > 2
    · have hroom : ch.regClasses < p2pMaxRegClasses := by omega
      have hentry : l.drop pos = l[pos] :: l[pos + 1] :: l.drop (pos + 2) := by
        rw [List.drop_eq_getElem_cons (by omega), List.drop_eq_getElem_cons (by omega)]
      generalize hc : l[pos] = c at hentry
      generalize hn : l[pos + 1] = count at hentry
      rw [if_pos hmore, get_ok hroom]
      show ∃ r, (readIndex l pos >>= _) = _ ∧ _
      rw [readIndex_ok (by omega), hc]
      show ∃ r, (readIndex l (pos + 1) >>= _) = _ ∧ _
      rw [readIndex_ok (by omega), hn]
      show ∃ r, (if count.toNat > l.length - (pos + 2) then _ else _) = _ ∧ _
      by_cases hlong : count.toNat > l.length - (pos + 2)
      · rw [if_pos hlong, put_ok hroom]
        refine ⟨_, rfl, hch.put_behind hroom _, fun k x h => .inl ?_⟩
        rwa [groups_put_behind hroom] at h
      rw [if_neg hlong]
      generalize hlen : (if count.toNat > p2pMaxRegClassChannels then p2pMaxRegClassChannels
        else count.toNat) = len
      have hle : len ≤ count.toNat ∧ len ≤ p2pMaxRegClassChannels := hlen ▸ copiedChannels_le count.toNat
      obtain ⟨channel, hcopy, hused⟩ := copyIn_ok ch.regClass[ch.regClasses].channel l (pos + 2) len
        (by omega) hle.2
      show ∃ r, (copyIn ch.regClass[ch.regClasses].channel l (pos + 2) len >>= _) = _ ∧ _
      rw [hcopy]
      show ∃ r, (put ch.regClass ch.regClasses _ >>= _) = _ ∧ _
      rw [put_ok hroom]
      have hput := hch.put ⟨c, channel, len⟩ hroom hle.2
      have hgroups := groups_put hroom (P2pRegClass.mk c channel len)
      rw [show (P2pRegClass.mk c channel len).toGroup = (c, (l.drop (pos + 2)).take len) from
        Prod.ext rfl hused] at hgroups
      have hcount : count.toNat ≤ (l.drop (pos + 2)).length := by
        rw [List.length_drop]
        omega
      rw [hentry]
      show ∃ r, (if ch.regClasses + 1 = p2pMaxRegClasses then _ else _) = _ ∧ _
      by_cases hfull : ch.regClasses + 1 = p2pMaxRegClasses
      · rw [if_pos hfull]
        refine ⟨_, rfl, hput, fun k x h => hasPair_append_entry hle.1 hcount ?_⟩
        rw [← hgroups]
        exact h
      · rw [if_neg hfull]
        obtain ⟨r, hr, hfits, hrest⟩ := ih (pos + 2 + count.toNat) hput
          (by show ch.regClasses + 1 + turns ≤ _; omega)
        refine ⟨r, hr, hfits, fun k x h => ?_⟩
        rcases hrest k x h with h | h
        · exact hasPair_append_entry hle.1 hcount (by rw [← hgroups]; exact h)
        · exact .inr (.later hcount (by rw [List.drop_drop]; exact h))
    · rw [if_neg hmore]
      exact ⟨_, rfl, hch, fun c x h => .inl h⟩

theorem p2pPeerChannelsCheck_ok (cfgCountry : Vector UInt8 3) {own : P2pChannels} (hown : own.Fits)
    (dev : P2pDevice) (l : List UInt8) :
    ∃ r, p2pPeerChannelsCheck cfgCountry own dev l = .ok r ∧ r.1.channels.Fits ∧
      r.1.forceFreq = dev.forceFreq ∧
      ∀ c x, HasPair r.1.channels.groups c x → ChannelListHas (l.drop 3) c x := by
  have hempty : ∀ c x, ¬ HasPair P2pChannels.zero.groups c x := by
    rintro c x ⟨g, hg, -⟩
    cases hg
  unfold p2pPeerChannelsCheck
  by_cases hshort : l.length < 3
  · exact ⟨_, if_pos hshort, P2pChannels.zero_fits, rfl, fun c x h => absurd h (hempty c x)⟩
  show ∃ r, (if l.length < 3 then _ else _) = _ ∧ _
  rw [if_neg hshort, readIndex_ok (by omega)]
  show ∃ r, (readIndex l 1 >>= _) = _ ∧ _
  rw [readIndex_ok (by omega)]
  show ∃ r, (readIndex l 2 >>= _) = _ ∧ _
  rw [readIndex_ok (by omega)]
  let country := [l[0], l[1], l[2]]
  show ∃ r, (if country[2]? ≠ some 0x04 ∧ country.take 2 ≠ cfgCountry.toList.take 2 then _ else _) = _ ∧ _
  by_cases hmismatch : country[2]? ≠ some 0x04 ∧ country.take 2 ≠ cfgCountry.toList.take 2
  · rw [if_pos hmismatch]
    exact ⟨_, rfl, P2pChannels.zero_fits, rfl, fun c x h => absurd h (hempty c x)⟩
  rw [if_neg hmismatch]
  obtain ⟨⟨channels, valid⟩, hread, hfits, hhas⟩ := readChannelList_ok l p2pMaxRegClasses 3
    P2pChannels.zero_fits (Nat.le_refl _)
  show ∃ r, (readChannelList l p2pMaxRegClasses 3 P2pChannels.zero >>= _) = _ ∧ _
  rw [hread]
  have hhas' : ∀ c x, HasPair channels.groups c x → ChannelListHas (l.drop 3) c x := fun c x h =>
    (hhas c x h).resolve_left (hempty c x)
  cases valid with
  | false => exact ⟨_, rfl, hfits, rfl, hhas'⟩
  | true =>
    obtain ⟨r, hr, -, -⟩ := p2pChannelsIntersect_ok hown hfits
    show ∃ r, (p2pChannelsIntersect own channels >>= _) = _ ∧ _
    rw [hr]
    exact ⟨_, rfl, hfits, rfl, hhas'⟩

/-! ## All of them -/

/-- The functions are those on sets. Intersection and removal are so for all lists that fit, where an
intersection may lose channels if something is there twice; union is so where there is room. No function
accesses an element that an array does not have, and none does when the list of a peer is read. -/
theorem p2pChannels_sets (ha : a.Fits) (hb : b.Fits) (list : Option (List WpaFreqRange)) :
    (∃ r, p2pChannelsIntersect a b = .ok r ∧ r.Fits ∧
      (∀ c ch, r.Includes c ch → a.Includes c ch ∧ b.Includes c ch) ∧
      (a.Distinct → b.Distinct → ∀ c ch, r.Includes c ch ↔ a.Includes c ch ∧ b.Includes c ch)) ∧
    (∃ r, p2pChannelsUnion a b = .ok r ∧ r.Fits ∧
      (a.Distinct → b.Distinct → a.UnionFits b →
        ∀ c ch, r.Includes c ch ↔ a.Includes c ch ∨ b.Includes c ch)) ∧
    (∃ r, p2pChannelsRemoveFreqs a list = .ok r ∧ r.Fits ∧
      ∀ c ch, r.Includes c ch ↔ a.Includes c ch ∧ freqListed list c ch = false) ∧
    (∀ c ch, ∃ found, p2pChannelsIncludes a c ch = .ok found) ∧
    ∀ (cfgCountry : Vector UInt8 3) (dev : P2pDevice) (channelList : List UInt8),
      ∃ r, p2pPeerChannelsCheck cfgCountry a dev channelList = .ok r ∧ r.1.channels.Fits := by
  refine ⟨?_, ?_, ?_, ?_, ?_⟩
  · obtain ⟨r, hr, hfits, hgroups⟩ := p2pChannelsIntersect_ok ha hb
    refine ⟨r, hr, hfits, fun c ch => ?_, fun _ hdb c ch => ?_⟩
    · rw [includes_iff hfits, includes_iff ha, includes_iff hb, hgroups]
      exact has_of_inter
    · rw [includes_iff hfits, includes_iff ha, includes_iff hb, hgroups]
      exact inter_has ha.grouped hdb
  · obtain ⟨r, hr, hfits, hgroups⟩ := p2pChannelsUnionInplace_ok ha hb
    refine ⟨r, hr, hfits, fun hda hdb hroom c ch => ?_⟩
    rw [includes_iff hfits, includes_iff ha, includes_iff hb, hgroups]
    exact union_has hda hdb hroom
  · obtain ⟨r, hr, hfits, hhas⟩ := p2pChannelsRemoveFreqs_ok list ha
    refine ⟨r, hr, hfits, fun c ch => ?_⟩
    rw [includes_iff hfits, includes_iff ha]
    exact hhas c ch
  · intro c ch
    obtain ⟨found, hfound, -⟩ := p2pChannelsIncludes_ok ha c ch
    exact ⟨found, hfound⟩
  · intro cfgCountry dev channelList
    obtain ⟨r, hr, hfits, -, -⟩ := p2pPeerChannelsCheck_ok cfgCountry ha dev channelList
    exact ⟨r, hr, hfits⟩

end

/-! ## Sets of a few channels -/

def P2pChannels.ofGroups (l : List (UInt8 × List UInt8)) : P2pChannels where
  regClass := Vector.ofFn fun i =>
    let g := (l[i.val]?).getD (0, [])
    ⟨g.1, Vector.ofFn fun j => (g.2[j.val]?).getD 0, g.2.length⟩
  regClasses := l.length

def smallOwn : P2pChannels := .ofGroups [(81, [1, 6, 11]), (115, [36, 40])]

def smallPeer : P2pChannels := .ofGroups [(115, [40, 44]), (81, [6, 11, 13])]

theorem p2pChannels_sets_small :
    (∃ r, p2pChannelsIntersect smallOwn smallPeer = .ok r ∧
      ∀ c ch, r.Includes c ch ↔ smallOwn.Includes c ch ∧ smallPeer.Includes c ch) ∧
    ∃ r, p2pChannelsUnion smallOwn smallPeer = .ok r ∧
      ∀ c ch, r.Includes c ch ↔ smallOwn.Includes c ch ∨ smallPeer.Includes c ch := by
  have hown : smallOwn.Fits := ⟨by decide, by decide +kernel⟩
  have hpeer : smallPeer.Fits := ⟨by decide, by decide +kernel⟩
  have hdown : smallOwn.Distinct := ⟨by decide +kernel, by decide +kernel⟩
  have hdpeer : smallPeer.Distinct := ⟨by decide +kernel, by decide +kernel⟩
  have hroom : smallOwn.UnionFits smallPeer := by
    have hgroups : smallOwn.groups = [(81, [1, 6, 11]), (115, [36, 40])] ∧
        smallPeer.groups = [(115, [40, 44]), (81, [6, 11, 13])] := by decide +kernel
    refine ⟨by decide +kernel, fun k => ?_⟩
    rw [hgroups.1, hgroups.2]
    refine Nat.le_trans (Finset.card_union_le _ _) (Nat.le_trans (Nat.add_le_add
      (List.toFinset_card_le _) (List.toFinset_card_le _)) ?_)
    simp only [List.filter_cons, List.filter_nil]
    by_cases h81 : (81 : UInt8) = k <;> by_cases h115 : (115 : UInt8) = k <;>
      simp [h81, h115, p2pMaxRegClassChannels]
  obtain ⟨⟨i, hi, -, -, hinter⟩, ⟨u, hu, -, hunion⟩, -⟩ := p2pChannels_sets hown hpeer none
  exact ⟨⟨i, hi, hinter hdown hdpeer⟩, ⟨u, hu, hunion hdown hdpeer hroom⟩⟩

end Hostap
