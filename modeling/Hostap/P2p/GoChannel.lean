import Hostap.Lib.Buffer
import Hostap.P2p.Channels

/-!
# The operating channel of a group owner

In GO Negotiation the device that becomes the group owner takes a channel that both sides support and that
is not one of those it may not use as a GO (`p2p_go_select_channel()`). If the driver has a list of preferred
frequencies, `p2p_check_pref_chan()` may replace that choice by one of these, which it compares with what the
peer sent.

The first choice is always right (`p2pGoSelectChannel_ok`). The second one need not be: it is made from the
local channels only, so it is right where the frequency is one that the peer has and that is allowed
(`goNegotiation_channel_iff`).
-/

namespace Hostap

open FixedArray Grouped Octets

/-! ## The state -/

/-- `P2P_MAX_PREF_CHANNELS`. -/
abbrev p2pMaxPrefChannels : Nat := 100

/-- A list of preferred frequencies, as the driver writes it to an array. -/
abbrev PrefFreqList := { l : List UInt32 // l.length ≤ p2pMaxPrefChannels }

/-- What `struct p2p_config` has of channels. The callback gets the role and may fail. -/
structure P2pConfig where
  country : Vector UInt8 3
  channels : P2pChannels
  cliChannels : P2pChannels
  opRegClass : UInt8
  opChannel : UInt8
  cfgOpChannel : Bool
  prefChan : List (UInt8 × UInt8)
  getPrefFreqList : Option (Bool → Option PrefFreqList)
  ssidPostfix : List UInt8

/-- What `struct p2p_data` has of channels; `goNegPeer` is whether a negotiation is going on. -/
structure P2pData where
  cfg : P2pConfig
  goNegPeer : Bool
  opRegClass : UInt8
  opChannel : UInt8
  channels : P2pChannels
  noGoFreq : List WpaFreqRange
  ownFreqPreference : Int
  bestFreqOverall : Int
  bestFreq24 : Int
  bestFreq5 : Int
  ssid : Vector UInt8 32
  ssidLen : Nat
  ssidSet : Bool

/-- The attributes that are read here, of `struct p2p_message`. -/
structure P2pMessage where
  channelList : List UInt8
  operatingChannel : Option (List UInt8)
  prefFreqList : List UInt8

/-- What `os_get_random()` gives; the octets for an SSID are missing where it fails. -/
structure P2pRandom where
  pick : UInt32
  ssid : Option (UInt8 × UInt8)

/-- `enum p2p_status_code`, as far as it is used here. -/
inductive P2pStatus
  | success
  | failNoCommonChannels
  deriving DecidableEq

def P2pData.setOp (p2p : P2pData) (op : UInt8 × UInt8) : P2pData :=
  { p2p with opRegClass := op.1, opChannel := op.2 }

def P2pConfig.includes (cfg : P2pConfig) (op : UInt8 × UInt8) : Except BadIndex Bool :=
  p2pChannelsIncludes cfg.channels op.1 op.2

/-! ## The choice from the intersection -/

/-- The steps of a choice, each of which may find nothing. The first that finds something ends it. -/
def firstOf {α : Type} : List (Except BadIndex (Option α)) → Except BadIndex (Option α)
  | [] => .ok none
  | x :: xs => do
    match ← x with
    | some a => .ok (some a)
    | none => firstOf xs

/-- `p2p_channel_pick_random()`. -/
def p2pChannelPickRandom (rnd : P2pRandom) (cl : P2pRegClass) : Except BadIndex UInt8 :=
  get cl.channel (rnd.pick.toNat % cl.channels)

/-- The loop of `p2p_channel_select()` over the classes of the set. -/
def selectClass (rnd : P2pRandom) (chans : P2pChannels) (wanted : UInt8 → Bool) :
    Except BadIndex (Option (UInt8 × UInt8)) := do
  let flow ← forEach chans.regClass chans.regClasses (fun c found =>
    if c.channels = 0 then .ok (.next found)
    else if wanted c.regClass then do
      let channel ← p2pChannelPickRandom rnd c
      .ok (.stop (some (c.regClass, channel)))
    else .ok (.next found)) none
  return flow.state

/-- `p2p_channel_select()`. -/
def p2pChannelSelect (rnd : P2pRandom) (chans : P2pChannels) (classes : Option (List UInt8)) :
    Except BadIndex (Option (UInt8 × UInt8)) :=
  match classes with
  | none => selectClass rnd chans fun _ => true
  | some classes => firstOf (classes.map fun cl => selectClass rnd chans fun c => c = cl)

def ifIncluded (chans : P2pChannels) (op : UInt8 × UInt8) : Except BadIndex (Option (UInt8 × UInt8)) := do
  if ← p2pChannelsIncludes chans op.1 op.2 then .ok (some op) else .ok none

/-- A frequency that is preferred, if there is one and the set has it. -/
def ifFreqIncluded (chans : P2pChannels) (freq : Int) : Except BadIndex (Option (UInt8 × UInt8)) :=
  if freq > 0 then
    match p2pFreqToChannel freq.toNat with
    | some op => ifIncluded chans op
    | none => .ok none
  else .ok none

/-- The best frequency of the other band, where the channel so far is in one band and not in the set. -/
def otherBand (p2p : P2pData) (chans : P2pChannels) (low high best : Int) :
    Except BadIndex (Option (UInt8 × UInt8)) :=
  let freq := p2pChannelToFreq p2p.opRegClass p2p.opChannel
  if freq ≥ low ∧ freq < high ∧ best > 0 then do
    if ← p2pChannelsIncludes chans p2p.opRegClass p2p.opChannel then .ok none else ifFreqIncluded chans best
  else .ok none

def firstChannel (chans : P2pChannels) : Except BadIndex (Option (UInt8 × UInt8)) := do
  let cl ← get chans.regClass 0
  return some (cl.regClass, ← get cl.channel 0)

/-- The steps of `p2p_reselect_channel()`. -/
def reselectSteps (p2p : P2pData) (rnd : P2pRandom) (intersection : P2pChannels) :
    List (Except BadIndex (Option (UInt8 × UInt8))) :=
  [ifFreqIncluded intersection p2p.ownFreqPreference,
    ifFreqIncluded intersection p2p.bestFreqOverall,
    otherBand p2p intersection 2400 2500 p2p.bestFreq5,
    otherBand p2p intersection 4900 6000 p2p.bestFreq24,
    firstOf (p2p.cfg.prefChan.map (ifIncluded intersection)),
    p2pChannelSelect rnd intersection (some [128, 129, 130]),
    p2pChannelSelect rnd intersection (some [126, 127, 116, 117]),
    p2pChannelSelect rnd intersection (some [124, 125, 115]),
    ifIncluded intersection (p2p.opRegClass, p2p.opChannel),
    firstChannel intersection]

/-- `p2p_reselect_channel()`. -/
def p2pReselectChannel (p2p : P2pData) (rnd : P2pRandom) (intersection : P2pChannels) :
    Except BadIndex P2pData := do
  match ← firstOf (reselectSteps p2p rnd intersection) with
  | some op => .ok (p2p.setOp op)
  | none => .ok p2p

/-- The character of `p2p_random()` for a random octet: a letter or a digit. -/
def randomChar (val : UInt8) : UInt8 :=
  let val := val % 62
  if val < 26 then 65 + val else if val < 52 then 97 + (val - 26) else 48 + (val - 52)

/-- `p2p_build_ssid()`: `DIRECT-`, two random characters and the postfix. Without random octets the two are
those of the buffer. -/
@[irreducible] def p2pBuildSsid (p2p : P2pData) (rnd : P2pRandom) : Vector UInt8 32 × Nat :=
  let chars := match rnd.ssid with
    | some (x, y) => [randomChar x, randomChar y]
    | none => slice p2p.ssid.toList 7 2
  let ssid := [0x44, 0x49, 0x52, 0x45, 0x43, 0x54, 0x2d] ++ chars ++ p2p.cfg.ssidPostfix
  (Vector.ofFn fun i => (ssid[i.val]?).getD p2p.ssid[i], ssid.length)

def P2pData.ensureSsid (p2p : P2pData) (rnd : P2pRandom) : P2pData :=
  if p2p.ssidSet then p2p
  else { p2p with ssid := (p2pBuildSsid p2p rnd).1, ssidLen := (p2pBuildSsid p2p rnd).2, ssidSet := true }

/-- `p2p_go_select_channel()`. -/
def p2pGoSelectChannel (p2p : P2pData) (dev : P2pDevice) (rnd : P2pRandom) :
    Except BadIndex (P2pData × P2pStatus) := do
  let tmp ← p2pChannelsIntersect p2p.channels dev.channels
  let tmp ← p2pChannelsRemoveFreqs tmp (some p2p.noGoFreq)
  let intersection ← p2pChannelsIntersect tmp p2p.cfg.channels
  if intersection.regClasses = 0 ∨ (← get intersection.regClass 0).channels = 0 then
    .ok (p2p, .failNoCommonChannels)
  else
    let included ← p2pChannelsIncludes intersection p2p.opRegClass p2p.opChannel
    if ¬ included ∧ dev.forceFreq then .ok (p2p, .failNoCommonChannels)
    else if ¬ included ∨ (¬ dev.forceFreq ∧ ¬ p2p.cfg.cfgOpChannel) then do
      let p2p ← p2pReselectChannel p2p rnd intersection
      .ok (p2p.ensureSsid rnd, .success)
    else .ok (p2p.ensureSsid rnd, .success)

/-! ## The list of the driver -/

/-- The octets of the array that the driver wrote, of a little-endian machine. -/
def freqOctets (l : PrefFreqList) : Bytes := l.val.flatMap fun freq => (natBe 4 freq.toNat).reverse

/-- `freq_list[i]`. -/
def freqAt (freqList : Bytes) (i : Nat) : Nat := beNat (slice freqList (4 * i) 4).reverse

/-- The test of `p2p_check_pref_chan()` for a frequency of the driver. -/
def prefAcceptable (cfg : P2pConfig) (go : Bool) (freq : Nat) : Except BadIndex Bool :=
  match p2pFreqToChannel freq with
  | none => .ok false
  | some op => do
    if ← cfg.includes op then .ok true
    else if go then .ok false
    else p2pChannelsIncludes cfg.cliChannels op.1 op.2

/-- The loop of `p2p_check_pref_chan()` that drops frequencies. `os_memmove()` is given the number of the
frequencies behind, but moves octets, so that what is behind is not moved as a whole. -/
def filterPrefFreqs (cfg : P2pConfig) (go : Bool) : Nat → Nat → Nat → Bytes → Except BadIndex (Bytes × Nat)
  | 0, _, size, freqList => .ok (freqList, size)
  | turns + 1, i, size, freqList =>
    if i < size then do
      if ← prefAcceptable cfg go (freqAt freqList i) then filterPrefFreqs cfg go turns (i + 1) size freqList
      else
        let freqList := overwrite (4 * i) (slice freqList (4 * (i + 1)) (size - i - 1)) freqList
        filterPrefFreqs cfg go turns i (size - 1) freqList
    else .ok (freqList, size)

def acceptedFreqs (cfg : P2pConfig) (go : Bool) (l : PrefFreqList) : Except BadIndex (List Nat) := do
  let (freqList, size) ← filterPrefFreqs cfg go l.val.length 0 l.val.length (freqOctets l)
  return (List.range size).map (freqAt freqList)

/-! ## The choice from the list of the driver -/

def P2pData.override (p2p : P2pData) (op : UInt8 × UInt8) : P2pData :=
  { p2p.setOp op with channels := p2p.cfg.channels }

/-- `p2p_check_pref_chan_no_recv()`. -/
def p2pCheckPrefChanNoRecv (p2p : P2pData) (msg : P2pMessage) : List Nat → P2pData
  | [] => p2p
  | freq :: freqs =>
    match p2pFreqToChannel freq with
    | none => p2pCheckPrefChanNoRecv p2p msg freqs
    | some op =>
      if msg.channelList.any (fun octet => op.2 = octet) then p2p.override op
      else p2pCheckPrefChanNoRecv p2p msg freqs

/-- The operating class and the channel at the place `j` of the peer's list of preferred frequencies. -/
def prefPair (l : List UInt8) (j : Nat) : UInt8 × UInt8 := (l.getD (2 * j) 0, l.getD (2 * j + 1) 0)

/-- The frequency of a pair of octets, as an `unsigned int`. -/
def pairFreq (op : UInt8 × UInt8) : Nat := (p2pChannelToFreq op.1 op.2 % 2 ^ 32).toNat

/-- The inner loop of `p2p_check_pref_chan_recv()`, with the places that are left. -/
def recvPairs (p2p : P2pData) (l : List UInt8) (freq : Nat) : List Nat → Option P2pData
  | [] => none
  | j :: js =>
    let operFreq := pairFreq (prefPair l j)
    if freq ≠ operFreq then recvPairs p2p l freq js
    else
      match p2pFreqToChannel operFreq with
      | none => recvPairs p2p l freq js
      | some op => some (p2p.override op)

/-- `for (j = 2; j < (msg->pref_freq_list_len / 2); j++)`. -/
def prefPlaces (msg : P2pMessage) : List Nat := List.range' 2 (msg.prefFreqList.length / 2 - 2)

/-- `p2p_check_pref_chan_recv()`. -/
def p2pCheckPrefChanRecv (p2p : P2pData) (msg : P2pMessage) : List Nat → P2pData
  | [] => p2p
  | freq :: freqs =>
    match recvPairs p2p msg.prefFreqList freq (prefPlaces msg) with
    | some p2p => p2p
    | none => p2pCheckPrefChanRecv p2p msg freqs

/-- The rest of `p2p_check_pref_chan()`, with the frequencies that are left. -/
def usePrefFreqs (p2p : P2pData) (dev : P2pDevice) (msg : P2pMessage) (freqs : List Nat) : P2pData :=
  match (freqs.find? fun freq => freq = (dev.operFreq % 2 ^ 32).toNat).bind p2pFreqToChannel with
  | some op => p2p.override op
  | none =>
    if msg.prefFreqList.length = 0 then p2pCheckPrefChanNoRecv p2p msg freqs
    else p2pCheckPrefChanRecv p2p msg freqs

/-- The list of the driver, where `p2p_check_pref_chan()` asks for it and gets it. -/
def driverList (cfg : P2pConfig) (forceFreq go : Bool) : Option PrefFreqList :=
  match cfg.getPrefFreqList with
  | none => none
  | some callback => if cfg.prefChan.length ≠ 0 ∨ forceFreq ∨ cfg.cfgOpChannel then none else callback go

/-- `p2p_check_pref_chan()`. -/
def p2pCheckPrefChan (p2p : P2pData) (go : Bool) (dev : P2pDevice) (msg : P2pMessage) :
    Except BadIndex P2pData :=
  match driverList p2p.cfg dev.forceFreq go with
  | none => .ok p2p
  | some l => do
    let freqs ← acceptedFreqs p2p.cfg go l
    return usePrefFreqs p2p dev msg freqs

/-! ## The negotiation -/

/-- `dev->oper_freq`, from the Operating Channel attribute. -/
def operFreqOf (operatingChannel : List UInt8) : Int :=
  p2pChannelToFreq (operatingChannel.getD 3 0) (operatingChannel.getD 4 0)

/-- The state in which a request starts a negotiation: with the default channels, if it is a new one and no
frequency is forced. -/
def goNegStart (p2p : P2pData) (dev : P2pDevice) : P2pData :=
  if ¬ p2p.goNegPeer ∧ ¬ dev.forceFreq then
    { p2p with
      opRegClass := p2p.cfg.opRegClass, opChannel := p2p.cfg.opChannel, channels := p2p.cfg.channels }
  else p2p

/-- What `p2p_process_go_neg_req()` does about the channel where the device becomes the GO. -/
def p2pProcessGoNegReq (p2p : P2pData) (dev : P2pDevice) (msg : P2pMessage) (rnd : P2pRandom) :
    Except BadIndex (P2pData × P2pDevice × Bool) :=
  match msg.operatingChannel with
  | none => .ok (p2p, dev, false)
  | some operatingChannel => do
    let p2p := goNegStart p2p dev
    let (dev, valid) ← p2pPeerChannelsCheck p2p.cfg.country p2p.channels dev msg.channelList
    if ¬ valid then .ok (p2p, dev, false)
    else
      let (p2p, status) ← p2pGoSelectChannel p2p dev rnd
      if status ≠ .success then .ok (p2p, dev, false)
      else
        let dev := { dev with operFreq := operFreqOf operatingChannel }
        let p2p ← p2pCheckPrefChan p2p true dev msg
        .ok ({ p2p with goNegPeer := true }, dev, true)

/-- What `p2p_process_go_neg_resp()` does about the channel where the device becomes the GO. -/
def p2pProcessGoNegResp (p2p : P2pData) (dev : P2pDevice) (msg : P2pMessage) (rnd : P2pRandom) :
    Except BadIndex (P2pData × P2pDevice × Bool) := do
  let (dev, valid) ← p2pPeerChannelsCheck p2p.cfg.country p2p.channels dev msg.channelList
  if ¬ valid then .ok (p2p, dev, false)
  else
    let dev := { dev with operFreq := (msg.operatingChannel.map operFreqOf).getD 0 }
    let (p2p, status) ← p2pGoSelectChannel p2p dev rnd
    if status ≠ .success then .ok (p2p, dev, false)
    else
      let p2p ← p2pCheckPrefChan p2p true dev msg
      .ok (p2p, dev, true)

/-! ## The first choice -/

section
variable {p2p : P2pData} {dev : P2pDevice} {msg : P2pMessage} {rnd : P2pRandom} {chans : P2pChannels}

def Picks {α : Type} (P : α → Prop) (x : Except BadIndex (Option α)) : Prop :=
  ∃ o, x = .ok o ∧ ∀ a, o = some a → P a

theorem picks_none {α : Type} {P : α → Prop} : Picks P (.ok none) :=
  ⟨none, rfl, nofun⟩

theorem firstOf_picks {α : Type} {P : α → Prop} {l : List (Except BadIndex (Option α))}
    (h : ∀ x ∈ l, Picks P x) : Picks P (firstOf l) := by
  induction l with
  | nil => exact picks_none
  | cons x l ih =>
    obtain ⟨o, rfl, ho⟩ := h x List.mem_cons_self
    cases o with
    | some a => exact ⟨some a, rfl, ho⟩
    | none => exact ih fun y hy => h y (List.mem_cons_of_mem _ hy)

theorem firstOf_some {α : Type} {P : α → Prop} {l : List (Except BadIndex (Option α))} {a : α}
    (h : ∀ x ∈ l, Picks P x) (hmem : .ok (some a) ∈ l) : ∃ b, firstOf l = .ok (some b) ∧ P b := by
  induction l with
  | nil => cases hmem
  | cons x l ih =>
    obtain ⟨o, rfl, ho⟩ := h x List.mem_cons_self
    cases o with
    | some b => exact ⟨b, rfl, ho b rfl⟩
    | none =>
      apply ih fun y hy => h y (List.mem_cons_of_mem _ hy)
      rcases List.mem_cons.1 hmem with heq | hmem
      · cases heq
      · exact hmem

def P2pChannels.HasOp (chans : P2pChannels) (op : UInt8 × UInt8) : Prop := HasPair chans.groups op.1 op.2

theorem includes_ok (h : chans.Fits) (op : UInt8 × UInt8) :
    ∃ found, p2pChannelsIncludes chans op.1 op.2 = .ok found ∧ (found = true ↔ chans.HasOp op) :=
  p2pChannelsIncludes_ok h op.1 op.2

theorem ifIncluded_picks (h : chans.Fits) (op : UInt8 × UInt8) : Picks chans.HasOp (ifIncluded chans op) := by
  obtain ⟨found, hfound, hiff⟩ := includes_ok h op
  unfold ifIncluded
  rw [hfound]
  cases found with
  | false => exact picks_none
  | true =>
    refine ⟨some op, rfl, ?_⟩
    rintro a ⟨⟩
    exact hiff.1 rfl

theorem ifFreqIncluded_picks (h : chans.Fits) (freq : Int) :
    Picks chans.HasOp (ifFreqIncluded chans freq) := by
  unfold ifFreqIncluded
  by_cases hpos : freq > 0
  · rw [if_pos hpos]
    cases p2pFreqToChannel freq.toNat with
    | none => exact picks_none
    | some op => exact ifIncluded_picks h op
  · rw [if_neg hpos]
    exact picks_none

theorem otherBand_picks (h : chans.Fits) (low high best : Int) :
    Picks chans.HasOp (otherBand p2p chans low high best) := by
  unfold otherBand
  dsimp only
  by_cases hband : p2pChannelToFreq p2p.opRegClass p2p.opChannel ≥ low ∧
      p2pChannelToFreq p2p.opRegClass p2p.opChannel < high ∧ best > 0
  · rw [if_pos hband]
    obtain ⟨found, hfound, -⟩ := p2pChannelsIncludes_ok h p2p.opRegClass p2p.opChannel
    rw [hfound]
    cases found with
    | true => exact picks_none
    | false => exact ifFreqIncluded_picks h best
  · rw [if_neg hband]
    exact picks_none

theorem pickRandom_ok (rnd : P2pRandom) {cl : P2pRegClass} (h : cl.channels ≤ p2pMaxRegClassChannels)
    (hne : cl.channels ≠ 0) :
    ∃ channel, p2pChannelPickRandom rnd cl = .ok channel ∧ channel ∈ used cl.channel cl.channels := by
  have hlt : rnd.pick.toNat % cl.channels < cl.channels := Nat.mod_lt _ (Nat.pos_of_ne_zero hne)
  exact ⟨_, get_ok (by omega), mem_used_get h hlt⟩

theorem selectClass_picks (h : chans.Fits) (wanted : UInt8 → Bool) :
    Picks chans.HasOp (selectClass rnd chans wanted) := by
  have hloop : ∀ cls : List P2pRegClass, (∀ c ∈ cls, c ∈ used chans.regClass chans.regClasses) →
      ∃ flow, overList (fun (c : P2pRegClass) found =>
        if c.channels = 0 then .ok (.next found)
        else if wanted c.regClass then do
          let channel ← p2pChannelPickRandom rnd c
          .ok (.stop (some (c.regClass, channel)))
        else .ok (.next found)) cls none = .ok flow ∧ ∀ op, flow.state = some op → chans.HasOp op := by
    intro cls
    induction cls with
    | nil => exact fun _ => ⟨.next none, rfl, fun op h => by cases h⟩
    | cons c cls ih =>
      intro hmem
      have hrest := ih fun d hd => hmem d (List.mem_cons_of_mem _ hd)
      rw [overList]
      by_cases hzero : c.channels = 0
      · rw [if_pos hzero]
        exact hrest
      rw [if_neg hzero]
      by_cases hwanted : wanted c.regClass = true
      · have hc := hmem c List.mem_cons_self
        obtain ⟨channel, hpick, hin⟩ := pickRandom_ok rnd (h.channels c hc) hzero
        rw [if_pos hwanted, hpick]
        refine ⟨.stop (some (c.regClass, channel)), rfl, ?_⟩
        rintro op ⟨⟩
        exact ⟨c.toGroup, List.mem_map_of_mem hc, rfl, hin⟩
      · rw [if_neg hwanted]
        exact hrest
  obtain ⟨flow, hflow, hop⟩ := hloop _ fun c hc => hc
  refine ⟨flow.state, ?_, hop⟩
  unfold selectClass
  rw [forEach_eq h.regClasses]
  exact bind_of_ok hflow _

theorem p2pChannelSelect_picks (h : chans.Fits) (classes : Option (List UInt8)) :
    Picks chans.HasOp (p2pChannelSelect rnd chans classes) := by
  cases classes with
  | none => exact selectClass_picks h fun _ => true
  | some classes =>
    apply firstOf_picks
    intro x hx
    obtain ⟨cl, -, rfl⟩ := List.mem_map.1 hx
    exact selectClass_picks h _

theorem firstChannel_ok (h : chans.Fits) (hne : chans.regClasses ≠ 0) (hcl : chans.regClass[0].channels ≠ 0) :
    ∃ op, firstChannel chans = .ok (some op) ∧ chans.HasOp op := by
  have hmem : chans.regClass[0] ∈ used chans.regClass chans.regClasses :=
    mem_used_get h.regClasses (Nat.pos_of_ne_zero hne)
  have hle := h.channels _ hmem
  refine ⟨(chans.regClass[0].regClass, chans.regClass[0].channel[0]), ?_, ?_⟩
  · unfold firstChannel
    rw [bind_of_ok (get_ok (by decide)), bind_of_ok (get_ok (by decide))]
    rfl
  · exact ⟨_, List.mem_map_of_mem hmem, rfl, mem_used_get hle (Nat.pos_of_ne_zero hcl)⟩

theorem p2pReselectChannel_ok (p2p : P2pData) (rnd : P2pRandom) (h : chans.Fits) (hne : chans.regClasses ≠ 0)
    (hcl : chans.regClass[0].channels ≠ 0) :
    ∃ op, p2pReselectChannel p2p rnd chans = .ok (p2p.setOp op) ∧ chans.HasOp op := by
  obtain ⟨first, hfirst, hop⟩ := firstChannel_ok h hne hcl
  have hsteps : ∀ x ∈ reselectSteps p2p rnd chans, Picks chans.HasOp x := by
    intro x hx
    unfold reselectSteps at hx
    simp only [List.mem_cons, List.not_mem_nil, or_false] at hx
    rcases hx with rfl | rfl | rfl | rfl | rfl | rfl | rfl | rfl | rfl | rfl
    · exact ifFreqIncluded_picks h _
    · exact ifFreqIncluded_picks h _
    · exact otherBand_picks h _ _ _
    · exact otherBand_picks h _ _ _
    · apply firstOf_picks
      intro y hy
      obtain ⟨op, -, rfl⟩ := List.mem_map.1 hy
      exact ifIncluded_picks h op
    · exact p2pChannelSelect_picks h _
    · exact p2pChannelSelect_picks h _
    · exact p2pChannelSelect_picks h _
    · exact ifIncluded_picks h _
    · rw [hfirst]
      refine ⟨some first, rfl, ?_⟩
      rintro a ⟨⟩
      exact hop
  have hlast : .ok (some first) ∈ reselectSteps p2p rnd chans := by
    rw [← hfirst]
    simp only [reselectSteps, List.mem_cons, true_or, or_true]
  obtain ⟨op, hrun, hpick⟩ := firstOf_some hsteps hlast
  exact ⟨op, bind_of_ok hrun _, hpick⟩

/-- What a choice of the channel leaves as it is. -/
structure SameConfig (p2p p2p' : P2pData) : Prop where
  cfg : p2p'.cfg = p2p.cfg
  noGoFreq : p2p'.noGoFreq = p2p.noGoFreq

/-- The channel is in the local list and the peer's, and is allowed. -/
structure GoodOp (p2p : P2pData) (peer : P2pChannels) (op : UInt8 × UInt8) : Prop where
  own : p2p.cfg.channels.HasOp op
  peer : peer.HasOp op
  allowed : freqListed (some p2p.noGoFreq) op.1 op.2 = false

def P2pData.op (p2p : P2pData) : UInt8 × UInt8 := (p2p.opRegClass, p2p.opChannel)

theorem ensureSsid_op (rnd : P2pRandom) : (p2p.ensureSsid rnd).op = p2p.op := by
  unfold P2pData.ensureSsid
  by_cases h : p2p.ssidSet = true
  · rw [if_pos h]
  · rw [if_neg h]
    rfl

theorem ensureSsid_same (rnd : P2pRandom) : SameConfig p2p (p2p.ensureSsid rnd) := by
  unfold P2pData.ensureSsid
  by_cases h : p2p.ssidSet = true
  · rw [if_pos h]
    exact ⟨rfl, rfl⟩
  · rw [if_neg h]
    exact ⟨rfl, rfl⟩

theorem p2pGoSelectChannel_ok (rnd : P2pRandom) (hch : p2p.channels.Fits) (hcfg : p2p.cfg.channels.Fits)
    (hdev : dev.channels.Fits) :
    ∃ r, p2pGoSelectChannel p2p dev rnd = .ok r ∧ SameConfig p2p r.1 ∧
      (r.2 = .success → GoodOp p2p dev.channels r.1.op) := by
  obtain ⟨common, hcommon, hfits, hgroups⟩ := p2pChannelsIntersect_ok hch hdev
  obtain ⟨allowed, hallowed, hfits', hhas⟩ := p2pChannelsRemoveFreqs_ok (some p2p.noGoFreq) hfits
  obtain ⟨intersection, hinter, hfits'', hgroups'⟩ := p2pChannelsIntersect_ok hfits' hcfg
  have hgood : ∀ op, intersection.HasOp op → GoodOp p2p dev.channels op := by
    intro op hop
    unfold P2pChannels.HasOp at hop
    rw [hgroups'] at hop
    obtain ⟨hop, hown⟩ := has_of_inter hop
    obtain ⟨hop, hnot⟩ := (hhas op.1 op.2).1 hop
    rw [hgroups] at hop
    exact ⟨hown, (has_of_inter hop).2, hnot⟩
  unfold p2pGoSelectChannel
  rw [bind_of_ok hcommon, bind_of_ok hallowed, bind_of_ok hinter, bind_of_ok (get_ok (by decide))]
  show ∃ r, (if intersection.regClasses = 0 ∨ intersection.regClass[0].channels = 0 then _ else _) = _ ∧ _
  by_cases hempty : intersection.regClasses = 0 ∨ intersection.regClass[0].channels = 0
  · rw [if_pos hempty]
    exact ⟨_, rfl, ⟨rfl, rfl⟩, nofun⟩
  rw [if_neg hempty]
  obtain ⟨included, hincluded, hiff⟩ := p2pChannelsIncludes_ok hfits'' p2p.opRegClass p2p.opChannel
  rw [bind_of_ok hincluded]
  show ∃ r, (if ¬ included = true ∧ dev.forceFreq = true then _ else _) = _ ∧ _
  by_cases hforced : ¬ included = true ∧ dev.forceFreq = true
  · rw [if_pos hforced]
    exact ⟨_, rfl, ⟨rfl, rfl⟩, nofun⟩
  rw [if_neg hforced]
  by_cases hreselect : ¬ included = true ∨ (¬ dev.forceFreq = true ∧ ¬ p2p.cfg.cfgOpChannel = true)
  · obtain ⟨op, hop, hin⟩ := p2pReselectChannel_ok p2p rnd hfits''
      (fun h => hempty (.inl h)) (fun h => hempty (.inr h))
    rw [if_pos hreselect, bind_of_ok hop]
    refine ⟨_, rfl, ⟨(ensureSsid_same rnd).cfg, (ensureSsid_same rnd).noGoFreq⟩, fun _ => ?_⟩
    rw [ensureSsid_op]
    exact hgood op hin
  · rw [if_neg hreselect]
    have hin : included = true := by
      by_contra hnot
      exact hreselect (.inl hnot)
    refine ⟨_, rfl, ensureSsid_same rnd, fun _ => ?_⟩
    rw [ensureSsid_op]
    exact hgood p2p.op (hiff.1 hin)

/-! ## The second choice -/

theorem freqAt_overwrite {freqList data : Bytes} {i j : Nat} (hj : j < i)
    (hlen : 4 * i + data.length ≤ freqList.length) :
    freqAt (overwrite (4 * i) data freqList) j = freqAt freqList j := by
  unfold freqAt
  rw [Buffer.slice_overwrite (by omega) hlen]

theorem freqOctets_length (l : PrefFreqList) : (freqOctets l).length = 4 * l.val.length := by
  unfold freqOctets
  induction l.val with
  | nil => rfl
  | cons f fs ih =>
    rw [List.flatMap_cons, List.length_append, ih, List.length_cons, List.length_reverse]
    show 4 + _ = _
    omega

theorem prefAcceptable_ok {cfg : P2pConfig} (h : cfg.channels.Fits) (freq : Nat) :
    ∃ ok, prefAcceptable cfg true freq = .ok ok ∧
      (ok = true → ∃ op, p2pFreqToChannel freq = some op ∧ cfg.channels.HasOp op) := by
  unfold prefAcceptable
  cases hop : p2pFreqToChannel freq with
  | none => exact ⟨false, rfl, fun h => (Bool.false_ne_true h).elim⟩
  | some op =>
    obtain ⟨found, hfound, hiff⟩ := includes_ok h op
    have hcfg : cfg.includes op = .ok found := hfound
    dsimp only
    rw [bind_of_ok hcfg]
    cases found with
    | true => exact ⟨true, rfl, fun _ => ⟨op, rfl, hiff.1 rfl⟩⟩
    | false => exact ⟨false, rfl, fun h => (Bool.false_ne_true h).elim⟩

theorem filterPrefFreqs_ok {cfg : P2pConfig} (h : cfg.channels.Fits) (turns i size : Nat)
    {freqList : Bytes} (hi : i ≤ size) (hturns : size - i ≤ turns) (hlen : 4 * size ≤ freqList.length)
    (hdone : ∀ j < i, ∃ op, p2pFreqToChannel (freqAt freqList j) = some op ∧ cfg.channels.HasOp op) :
    ∃ r, filterPrefFreqs cfg true turns i size freqList = .ok r ∧
      ∀ j < r.2, ∃ op, p2pFreqToChannel (freqAt r.1 j) = some op ∧ cfg.channels.HasOp op := by
  induction turns generalizing i size freqList with
  | zero => exact ⟨_, rfl, fun j hj => hdone j (by show j < i; have := hj; omega)⟩
  | succ turns ih =>
    unfold filterPrefFreqs
    by_cases hlt : i < size
    · obtain ⟨ok, hok, hacc⟩ := prefAcceptable_ok h (freqAt freqList i)
      rw [if_pos hlt, bind_of_ok hok]
      cases ok with
      | true =>
        refine ih (i + 1) size (by omega) (by omega) hlen fun j hj => ?_
        rcases Nat.lt_succ_iff_lt_or_eq.1 hj with hj | rfl
        · exact hdone j hj
        · exact hacc rfl
      | false =>
        -- the octets that are moved are those of the list
        have hdata : (slice freqList (4 * (i + 1)) (size - i - 1)).length = size - i - 1 :=
          slice_length (by omega)
        have hroom : 4 * i + (slice freqList (4 * (i + 1)) (size - i - 1)).length ≤ freqList.length := by
          rw [hdata]
          omega
        refine ih i (size - 1) (by omega) (by omega) ?_ fun j hj => ?_
        · rw [Buffer.overwrite_length hroom]
          omega
        · rw [freqAt_overwrite hj hroom]
          exact hdone j hj
    · rw [if_neg hlt]
      exact ⟨_, rfl, fun j hj => hdone j (by have : j < size := hj; omega)⟩

theorem acceptedFreqs_ok {cfg : P2pConfig} (h : cfg.channels.Fits) (l : PrefFreqList) :
    ∃ freqs, acceptedFreqs cfg true l = .ok freqs ∧
      ∀ f ∈ freqs, ∃ op, p2pFreqToChannel f = some op ∧ cfg.channels.HasOp op := by
  obtain ⟨r, hr, hall⟩ := filterPrefFreqs_ok h l.val.length 0 l.val.length (Nat.zero_le _)
    (Nat.le_refl _) (Nat.le_of_eq (freqOctets_length l).symm) fun j hj => by cases hj
  refine ⟨_, bind_of_ok hr _, fun f hf => ?_⟩
  obtain ⟨j, hj, rfl⟩ := List.mem_map.1 hf
  exact hall j (List.mem_range.1 hj)

/-- The number of the channel is one of the octets of the Channel List attribute. -/
def numberInList (msg : P2pMessage) (freq : Nat) : Bool :=
  (p2pFreqToChannel freq).any fun op => msg.channelList.any fun octet => op.2 = octet

def peerPrefers (msg : P2pMessage) (freq : Nat) : Bool :=
  (prefPlaces msg).any fun j => freq = pairFreq (prefPair msg.prefFreqList j)

/-- The frequency that `p2p_check_pref_chan()` goes for: the peer's operating frequency, if it is there, else
the first that matches what the peer sent. -/
def prefMatch (operFreq : Int) (msg : P2pMessage) (freqs : List Nat) : Option Nat :=
  (freqs.find? fun freq => freq = (operFreq % 2 ^ 32).toNat).or
    (if msg.prefFreqList.length = 0 then freqs.find? (numberInList msg) else freqs.find? (peerPrefers msg))

/-- The channel of a frequency takes the place of the one chosen. -/
def P2pData.overrideFreq (p2p : P2pData) (freq : Option Nat) : P2pData :=
  match freq.bind p2pFreqToChannel with
  | some op => p2p.override op
  | none => p2p

theorem overrideFreq_some {freq : Nat} {op : UInt8 × UInt8} (h : p2pFreqToChannel freq = some op) :
    p2p.overrideFreq (some freq) = p2p.override op := by
  unfold P2pData.overrideFreq
  rw [Option.bind_some, h]

theorem checkPrefChanNoRecv_eq {freqs : List Nat} (h : ∀ f ∈ freqs, ∃ op, p2pFreqToChannel f = some op) :
    p2pCheckPrefChanNoRecv p2p msg freqs = p2p.overrideFreq (freqs.find? (numberInList msg)) := by
  induction freqs with
  | nil => rfl
  | cons f freqs ih =>
    obtain ⟨op, hop⟩ := h f List.mem_cons_self
    have hnumber : numberInList msg f = msg.channelList.any fun octet => op.2 = octet := by
      unfold numberInList
      rw [hop]
      rfl
    rw [p2pCheckPrefChanNoRecv, hop]
    dsimp only
    rw [← hnumber]
    by_cases hmatch : numberInList msg f = true
    · rw [if_pos hmatch, List.find?_cons_of_pos hmatch, overrideFreq_some hop]
    · rw [if_neg hmatch, List.find?_cons_of_neg hmatch]
      exact ih fun g hg => h g (List.mem_cons_of_mem _ hg)

theorem recvPairs_eq {l : List UInt8} {freq : Nat} {op : UInt8 × UInt8} {js : List Nat}
    (hop : p2pFreqToChannel freq = some op) :
    recvPairs p2p l freq js =
      if (js.any fun j => freq = pairFreq (prefPair l j)) = true then some (p2p.override op) else none := by
  induction js with
  | nil => rfl
  | cons j js ih =>
    rw [List.any_cons, recvPairs]
    by_cases heq : freq = pairFreq (prefPair l j)
    · rw [if_neg (not_not_intro heq), ← heq, decide_eq_true rfl, Bool.true_or, if_pos rfl, hop]
    · rw [decide_eq_false heq, Bool.false_or, if_pos heq]
      exact ih

theorem checkPrefChanRecv_eq {freqs : List Nat} (h : ∀ f ∈ freqs, ∃ op, p2pFreqToChannel f = some op) :
    p2pCheckPrefChanRecv p2p msg freqs = p2p.overrideFreq (freqs.find? (peerPrefers msg)) := by
  induction freqs with
  | nil => rfl
  | cons f freqs ih =>
    obtain ⟨op, hop⟩ := h f List.mem_cons_self
    rw [p2pCheckPrefChanRecv, recvPairs_eq hop]
    by_cases hmatch : peerPrefers msg f = true
    · have hany : ((prefPlaces msg).any fun j => f = pairFreq (prefPair msg.prefFreqList j)) = true := hmatch
      rw [if_pos hany, List.find?_cons_of_pos hmatch, overrideFreq_some hop]
    · have hany : ¬ ((prefPlaces msg).any fun j => f = pairFreq (prefPair msg.prefFreqList j)) = true := hmatch
      rw [if_neg hany, List.find?_cons_of_neg hmatch]
      exact ih fun g hg => h g (List.mem_cons_of_mem _ hg)

theorem usePrefFreqs_eq {freqs : List Nat} (h : ∀ f ∈ freqs, ∃ op, p2pFreqToChannel f = some op) :
    usePrefFreqs p2p dev msg freqs = p2p.overrideFreq (prefMatch dev.operFreq msg freqs) := by
  unfold usePrefFreqs prefMatch
  cases hfind : freqs.find? fun freq => freq = (dev.operFreq % 2 ^ 32).toNat with
  | some f =>
    obtain ⟨op, hop⟩ := h f (List.mem_of_find?_eq_some hfind)
    rw [Option.bind_some, hop, Option.some_or, overrideFreq_some hop]
  | none =>
    rw [Option.bind_none, Option.none_or]
    by_cases hlen : msg.prefFreqList.length = 0
    · rw [if_pos hlen]
      dsimp only
      rw [if_pos hlen]
      exact checkPrefChanNoRecv_eq h
    · rw [if_neg hlen]
      dsimp only
      rw [if_neg hlen]
      exact checkPrefChanRecv_eq h

theorem prefMatch_mem {operFreq : Int} {freqs : List Nat} {f : Nat}
    (h : prefMatch operFreq msg freqs = some f) :
    f ∈ freqs := by
  unfold prefMatch at h
  rcases Option.or_eq_some_iff.1 h with h | ⟨-, h⟩
  · exact List.mem_of_find?_eq_some h
  · by_cases hlen : msg.prefFreqList.length = 0
    · rw [if_pos hlen] at h
      exact List.mem_of_find?_eq_some h
    · rw [if_neg hlen] at h
      exact List.mem_of_find?_eq_some h

/-! ## The channel of the group -/

def P2pMessage.operFreq (msg : P2pMessage) : Int := (msg.operatingChannel.map operFreqOf).getD 0

/-- The channel of `q` is in the local list and in the peer's Channel List attribute, and is not one of those
that may not be used as a GO. -/
structure GoChannelOk (p2p : P2pData) (msg : P2pMessage) (q : P2pData) : Prop where
  own : p2p.cfg.channels.Includes q.opRegClass q.opChannel
  peer : ChannelListHas (msg.channelList.drop 3) q.opRegClass q.opChannel
  allowed : freqListed (some p2p.noGoFreq) q.opRegClass q.opChannel = false

/-- The frequency of the driver's list that matches what the peer sent, if there is one, is one that the peer
has in its Channel List attribute and that is allowed. -/
def PrefListAgrees (p2p : P2pData) (dev : P2pDevice) (msg : P2pMessage) : Prop :=
  ∀ l freqs freq op, driverList p2p.cfg dev.forceFreq true = some l →
    acceptedFreqs p2p.cfg true l = .ok freqs → prefMatch msg.operFreq msg freqs = some freq →
    p2pFreqToChannel freq = some op →
    ChannelListHas (msg.channelList.drop 3) op.1 op.2 ∧ freqListed (some p2p.noGoFreq) op.1 op.2 = false

theorem checkPrefChan_iff {q : P2pData} (dev dev' : P2pDevice) (hcfg : p2p.cfg.channels.Fits)
    (hsame : SameConfig p2p q) (hforce : dev'.forceFreq = dev.forceFreq) (hfreq : dev'.operFreq = msg.operFreq)
    (hgood : GoChannelOk p2p msg q) :
    ∃ q', p2pCheckPrefChan q true dev' msg = .ok q' ∧
      (GoChannelOk p2p msg q' ↔ PrefListAgrees p2p dev msg) := by
  unfold p2pCheckPrefChan
  rw [hsame.cfg, hforce]
  cases hlist : driverList p2p.cfg dev.forceFreq true with
  | none =>
    refine ⟨q, rfl, fun _ l freqs freq op h => ?_, fun _ => hgood⟩
    rw [hlist] at h
    cases h
  | some l =>
    obtain ⟨freqs, hfreqs, hacc⟩ := acceptedFreqs_ok hcfg l
    have hops : ∀ f ∈ freqs, ∃ op, p2pFreqToChannel f = some op := fun f hf => by
      obtain ⟨op, hop, -⟩ := hacc f hf
      exact ⟨op, hop⟩
    refine ⟨usePrefFreqs q dev' msg freqs, bind_of_ok hfreqs _, ?_⟩
    rw [usePrefFreqs_eq hops, hfreq]
    cases hmatch : prefMatch msg.operFreq msg freqs with
    | none =>
      refine ⟨fun _ l' freqs' freq op h h' h'' => ?_, fun _ => hgood⟩
      cases hlist.symm.trans h
      cases hfreqs.symm.trans h'
      cases hmatch.symm.trans h''
    | some f =>
      obtain ⟨op, hop, hown⟩ := hacc f (prefMatch_mem hmatch)
      rw [overrideFreq_some hop]
      constructor
      · intro hok l' freqs' freq op' h h' h'' hop'
        cases hlist.symm.trans h
        cases hfreqs.symm.trans h'
        cases hmatch.symm.trans h''
        cases hop.symm.trans hop'
        exact ⟨hok.peer, hok.allowed⟩
      · intro hagrees
        obtain ⟨hpeer, hallowed⟩ := hagrees l freqs f op hlist hfreqs hmatch hop
        exact ⟨(includes_iff hcfg).2 hown, hpeer, hallowed⟩

theorem GoodOp.goChannelOk {peer : P2pChannels} {q : P2pData} (h : GoodOp p2p peer q.op)
    (hcfg : p2p.cfg.channels.Fits)
    (hpeer : ∀ c x, HasPair peer.groups c x → ChannelListHas (msg.channelList.drop 3) c x) :
    GoChannelOk p2p msg q :=
  ⟨(includes_iff hcfg).2 h.own, hpeer _ _ h.peer, h.allowed⟩

theorem p2pProcessGoNegResp_iff (hch : p2p.channels.Fits) (hcfg : p2p.cfg.channels.Fits) :
    ∃ r, p2pProcessGoNegResp p2p dev msg rnd = .ok r ∧
      (r.2.2 = true → (GoChannelOk p2p msg r.1 ↔ PrefListAgrees p2p dev msg)) := by
  obtain ⟨⟨dev', valid⟩, hcheck, hfits, hforce, hpeer⟩ :=
    p2pPeerChannelsCheck_ok p2p.cfg.country hch dev msg.channelList
  unfold p2pProcessGoNegResp
  rw [bind_of_ok hcheck]
  cases valid with
  | false => exact ⟨_, rfl, fun h => (Bool.false_ne_true h).elim⟩
  | true =>
    obtain ⟨⟨q, status⟩, hselect, hsame, hgood⟩ := p2pGoSelectChannel_ok rnd hch hcfg
      (show P2pChannels.Fits (P2pDevice.channels { dev' with operFreq := msg.operFreq }) from hfits)
    show ∃ r, (p2pGoSelectChannel p2p { dev' with operFreq := msg.operFreq } rnd >>= _) = _ ∧ _
    rw [bind_of_ok hselect]
    cases status with
    | failNoCommonChannels => exact ⟨_, rfl, fun h => (Bool.false_ne_true h).elim⟩
    | success =>
      obtain ⟨q', hq', hiff⟩ := checkPrefChan_iff dev
        { dev' with operFreq := msg.operFreq } hcfg hsame hforce rfl
        ((hgood rfl).goChannelOk hcfg hpeer)
      show ∃ r, (p2pCheckPrefChan q true { dev' with operFreq := msg.operFreq } msg >>= _) = _ ∧ _
      rw [bind_of_ok hq']
      exact ⟨_, rfl, fun _ => hiff⟩

theorem goNegStart_same : SameConfig p2p (goNegStart p2p dev) := by
  unfold goNegStart
  split <;> exact ⟨rfl, rfl⟩

theorem goNegStart_fits (hch : p2p.channels.Fits) (hcfg : p2p.cfg.channels.Fits) :
    (goNegStart p2p dev).channels.Fits := by
  unfold goNegStart
  split
  · exact hcfg
  · exact hch

theorem p2pProcessGoNegReq_iff (hch : p2p.channels.Fits) (hcfg : p2p.cfg.channels.Fits) :
    ∃ r, p2pProcessGoNegReq p2p dev msg rnd = .ok r ∧
      (r.2.2 = true → (GoChannelOk p2p msg r.1 ↔ PrefListAgrees p2p dev msg)) := by
  unfold p2pProcessGoNegReq
  cases hoper : msg.operatingChannel with
  | none => exact ⟨_, rfl, fun h => (Bool.false_ne_true h).elim⟩
  | some operatingChannel =>
    have hfreq : msg.operFreq = operFreqOf operatingChannel := by
      unfold P2pMessage.operFreq
      rw [hoper]
      rfl
    have hstart : SameConfig p2p (goNegStart p2p dev) := goNegStart_same
    obtain ⟨⟨dev', valid⟩, hcheck, hfits, hforce, hpeer⟩ :=
      p2pPeerChannelsCheck_ok (goNegStart p2p dev).cfg.country (goNegStart_fits hch hcfg) dev msg.channelList
    show ∃ r, (p2pPeerChannelsCheck (goNegStart p2p dev).cfg.country (goNegStart p2p dev).channels dev
      msg.channelList >>= _) = _ ∧ _
    rw [bind_of_ok hcheck]
    cases valid with
    | false => exact ⟨_, rfl, fun h => (Bool.false_ne_true h).elim⟩
    | true =>
      obtain ⟨⟨q, status⟩, hselect, hsame, hgood⟩ := p2pGoSelectChannel_ok rnd
        (goNegStart_fits hch hcfg) (by rw [hstart.cfg]; exact hcfg) hfits
      show ∃ r, (p2pGoSelectChannel (goNegStart p2p dev) dev' rnd >>= _) = _ ∧ _
      rw [bind_of_ok hselect]
      cases status with
      | failNoCommonChannels => exact ⟨_, rfl, fun h => (Bool.false_ne_true h).elim⟩
      | success =>
        have hop := hgood rfl
        have hok : GoChannelOk p2p msg q := by
          refine ⟨(includes_iff hcfg).2 ?_, hpeer _ _ hop.peer, ?_⟩
          · rw [← hstart.cfg]
            exact hop.own
          · rw [← hstart.noGoFreq]
            exact hop.allowed
        obtain ⟨q', hq', hiff⟩ := checkPrefChan_iff dev
          { dev' with operFreq := operFreqOf operatingChannel } hcfg
          ⟨hsame.cfg.trans hstart.cfg, hsame.noGoFreq.trans hstart.noGoFreq⟩ hforce hfreq.symm hok
        show ∃ r, (p2pCheckPrefChan q true { dev' with operFreq := operFreqOf operatingChannel } msg >>=
          _) = _ ∧ _
        rw [bind_of_ok hq']
        exact ⟨_, rfl, fun _ => ⟨fun h => hiff.1 ⟨h.own, h.peer, h.allowed⟩, fun h =>
          ⟨(hiff.2 h).own, (hiff.2 h).peer, (hiff.2 h).allowed⟩⟩⟩

/-- A negotiation that makes the device the GO, by a request or a response of the peer, ends on a channel that
both have and that is allowed just where the list of the driver does not bring one that is not. -/
theorem goNegotiation_channel_iff (p2p : P2pData) (dev : P2pDevice) (msg : P2pMessage) (rnd : P2pRandom)
    (hch : p2p.channels.Fits) (hcfg : p2p.cfg.channels.Fits) :
    (∃ r, p2pProcessGoNegReq p2p dev msg rnd = .ok r ∧
      (r.2.2 = true → (GoChannelOk p2p msg r.1 ↔ PrefListAgrees p2p dev msg))) ∧
    ∃ r, p2pProcessGoNegResp p2p dev msg rnd = .ok r ∧
      (r.2.2 = true → (GoChannelOk p2p msg r.1 ↔ PrefListAgrees p2p dev msg)) :=
  ⟨p2pProcessGoNegReq_iff hch hcfg, p2pProcessGoNegResp_iff hch hcfg⟩

end

/-! ## Two negotiations -/

def smallP2p (getPrefFreqList : Option (Bool → Option PrefFreqList)) : P2pData where
  cfg := {
    country := #v[0x55, 0x53, 0x04]
    channels := .ofGroups [(81, [1, 6])]
    cliChannels := .zero
    opRegClass := 81
    opChannel := 6
    cfgOpChannel := false
    prefChan := []
    getPrefFreqList
    ssidPostfix := [] }
  goNegPeer := false
  opRegClass := 81
  opChannel := 6
  channels := .ofGroups [(81, [1, 6])]
  noGoFreq := []
  ownFreqPreference := 0
  bestFreqOverall := 0
  bestFreq24 := 0
  bestFreq5 := 0
  ssid := Vector.replicate 32 0
  ssidLen := 0
  ssidSet := true

def smallDevice : P2pDevice := ⟨[], .zero, 0, false⟩

def smallMessage : P2pMessage where
  channelList := [0x55, 0x53, 0x04, 81, 1, 6]
  operatingChannel := some [0x55, 0x53, 0x04, 81, 6]
  prefFreqList := []

theorem smallP2p_fits (callback : Option (Bool → Option PrefFreqList)) :
    (smallP2p callback).channels.Fits ∧ (smallP2p callback).cfg.channels.Fits := by
  have h : (P2pChannels.ofGroups [(81, [1, 6])]).Fits := ⟨by decide, by decide +kernel⟩
  exact ⟨h, h⟩

/-- Without a list of the driver the two agree on the channel they have in common. -/
theorem goNegotiation_channel_small :
    ∃ r, p2pProcessGoNegReq (smallP2p none) smallDevice smallMessage ⟨0, none⟩ = .ok r ∧ r.2.2 = true ∧
      GoChannelOk (smallP2p none) smallMessage r.1 := by
  obtain ⟨⟨r, hr, hiff⟩, -⟩ := goNegotiation_channel_iff (smallP2p none) smallDevice smallMessage ⟨0, none⟩
    (smallP2p_fits none).1 (smallP2p_fits none).2
  have hrun : (p2pProcessGoNegReq (smallP2p none) smallDevice smallMessage ⟨0, none⟩).map
      (fun r => r.2.2) = .ok true := by decide +kernel
  rw [hr] at hrun
  have hok : r.2.2 = true := Except.ok.inj hrun
  exact ⟨r, hr, hok, (hiff hok).2 fun l freqs freq op h => by cases h⟩

/-- A driver that prefers channel 1. The number is found among the octets of the attribute, where it is how
many channels the class 81 has, and the group is on a channel that the peer does not have. -/
theorem goNegotiation_channel_octet :
    ∃ r, p2pProcessGoNegReq (smallP2p (some fun _ => some ⟨[2412], by decide⟩)) smallDevice smallMessage
        ⟨0, none⟩ = .ok r ∧ r.2.2 = true ∧ (r.1.opRegClass, r.1.opChannel) = (81, 1) ∧
      ¬ GoChannelOk (smallP2p (some fun _ => some ⟨[2412], by decide⟩)) smallMessage r.1 := by
  have hrun : (p2pProcessGoNegReq (smallP2p (some fun _ => some ⟨[2412], by decide⟩)) smallDevice smallMessage
      ⟨0, none⟩).map (fun r => (r.1.opRegClass, r.1.opChannel, r.2.2)) = .ok (81, 1, true) := by decide +kernel
  obtain ⟨r, hr, heq⟩ := except_map_ok hrun
  obtain ⟨hclass, hchannel, hok⟩ : r.1.opRegClass = 81 ∧ r.1.opChannel = 1 ∧ r.2.2 = true := by
    simpa only [Prod.mk.injEq] using heq
  refine ⟨r, hr, hok, by rw [hclass, hchannel], fun hgood => ?_⟩
  have hlist : ChannelListHas [81, 1, 6] r.1.opRegClass r.1.opChannel := hgood.peer
  rw [hclass, hchannel] at hlist
  cases hlist with
  | here _ h => exact absurd h (by decide)
  | later _ h => cases h

end Hostap
