import Mathlib.Data.List.Basic
import Mathlib.Data.List.Nodup

/-!
# Channels of an authentication

The initiator goes through a list of frequencies (`dpp_prepare_channel_list()`), and can ask the responder
to move to another one, which it names by an operating class and a channel number. Two tables of
`src/common/ieee802_11_common.c` go from one to the other.
-/

namespace Hostap

/-! ## Operating classes -/

/-- `VHT_CHANWIDTH_*`. -/
inductive VhtChanwidth
  | useHt
  | w80
  | w160
  | w80p80
  deriving DecidableEq

/-- `vht_opclass` of `ieee80211_freq_to_channel_ext()`. -/
def VhtChanwidth.opclass : VhtChanwidth → Nat
  | .useHt => 0
  | .w80 => 128
  | .w160 => 129
  | .w80p80 => 130

/-- A channel of the 5 GHz band, if the frequency is on the grid. -/
def channel5Ghz (freq opClass : Nat) : Option (Nat × Nat) :=
  if (freq - 5000) % 5 ≠ 0 then none else some (opClass, (freq - 5000) / 5)

/-- The operating class in the 5 GHz band, by the width and the secondary channel. -/
def opClass5Ghz (secChannel : Int) (vht : VhtChanwidth) (above below none : Nat) : Nat :=
  if vht.opclass ≠ 0 then vht.opclass else if secChannel = 1 then above else if secChannel =
    -1 then below else none

/-- `ieee80211_freq_to_channel_ext()`: operating class and channel. -/
def ieee80211FreqToChannelExt (freq : Nat) (secChannel : Int) (vht : VhtChanwidth) : Option (Nat × Nat) :=
  if 1 < secChannel ∨ secChannel < -1 then none
  else if 2412 ≤ freq ∧ freq ≤ 2472 then
    if (freq - 2407) % 5 ≠ 0 then none
    else if vht ≠ .useHt then none
    else some (if secChannel = 1 then 83 else if secChannel = -1 then 84 else 81, (freq - 2407) / 5)
  else if freq = 2484 then
    if secChannel ≠ 0 ∨ vht ≠ .useHt then none else some (82, 14)
  else if 4900 ≤ freq ∧ freq < 5000 then
    if (freq - 4000) % 5 ≠ 0 then none else some (0, (freq - 4000) / 5)
  else if 5180 ≤ freq ∧ freq ≤ 5240 then channel5Ghz freq (opClass5Ghz secChannel vht 116 117 115)
  else if 5260 ≤ freq ∧ freq ≤ 5320 then channel5Ghz freq (opClass5Ghz secChannel vht 119 120 118)
  else if 5745 ≤ freq ∧ freq ≤ 5845 then
    channel5Ghz freq (opClass5Ghz secChannel vht 126 127 (if freq ≤ 5805 then 124 else 125))
  else if 5000 ≤ freq ∧ freq ≤ 5700 then channel5Ghz freq (opClass5Ghz secChannel vht 122 123 121)
  else if 5000 ≤ freq ∧ freq < 5900 then channel5Ghz freq 0
  else if 56160 + 2160 * 1 ≤ freq ∧ freq ≤ 56160 + 2160 * 4 then
    if secChannel ≠ 0 ∨ vht ≠ .useHt then none else some (180, (freq - 56160) / 2160)
  else none

/-- A frequency of a class whose channels are `low` to `high`. -/
def freqInClass (start step low high chan : Nat) : Option Nat :=
  if chan < low ∨ high < chan then none else some (start + step * chan)

/-- `ieee80211_chan_to_freq_global()`, which is `ieee80211_chan_to_freq()` where no country is given. -/
def ieee80211ChanToFreq (opClass chan : Nat) : Option Nat :=
  match opClass with
  | 81 => freqInClass 2407 5 1 13 chan
  | 82 => freqInClass 2414 5 14 14 chan
  | 83 => freqInClass 2407 5 1 13 chan
  | 84 => freqInClass 2407 5 1 13 chan
  | 115 => freqInClass 5000 5 36 64 chan
  | 116 => freqInClass 5000 5 36 64 chan
  | 117 => freqInClass 5000 5 36 64 chan
  | 118 => freqInClass 5000 5 36 64 chan
  | 119 => freqInClass 5000 5 36 64 chan
  | 120 => freqInClass 5000 5 36 64 chan
  | 121 => freqInClass 5000 5 100 140 chan
  | 122 => freqInClass 5000 5 100 140 chan
  | 123 => freqInClass 5000 5 100 140 chan
  | 124 => freqInClass 5000 5 149 161 chan
  | 126 => freqInClass 5000 5 149 161 chan
  | 127 => freqInClass 5000 5 149 161 chan
  | 125 => freqInClass 5000 5 149 169 chan
  | 128 => freqInClass 5000 5 36 161 chan
  | 130 => freqInClass 5000 5 36 161 chan
  | 129 => freqInClass 5000 5 36 128 chan
  | 180 => freqInClass 56160 2160 1 4 chan
  | _ => none

/-! ## The list of the initiator -/

/-- `struct hostapd_channel_data`. -/
structure HostapdChannel where
  freq : Nat
  flag : Nat

/-- None of `HOSTAPD_CHAN_DISABLED`, `HOSTAPD_CHAN_NO_IR` and `HOSTAPD_CHAN_RADAR` is set. -/
def HostapdChannel.usable (c : HostapdChannel) : Bool := c.flag &&& (1 ||| 2 ||| 8) = 0

/-- `dpp_channel_ok_init()`. -/
def dppChannelOkInit (ownModes : List (List HostapdChannel)) (freq : Nat) : Bool :=
  ownModes.isEmpty || ownModes.any fun channels => channels.any fun c => c.freq = freq ∧ c.usable

/-- `freq_to_start()`. -/
def freqToStart (freqs : List Nat) (freq : Nat) : List Nat :=
  let i := freqs.idxOf freq
  if i = 0 ∨ freqs.length ≤ i then freqs else freq :: (freqs.take i ++ freqs.drop (i + 1))

/-- The loop of `dpp_channel_intersect()`. -/
def channelIntersectFrom (ownModes : List (List HostapdChannel)) : List Nat → List Nat → List Nat
  | freqs, [] => freqs
  | freqs, freq :: rest =>
    if freq ∈ freqs then channelIntersectFrom ownModes freqs rest
    else if dppChannelOkInit ownModes freq then channelIntersectFrom ownModes (freqs ++ [freq]) rest
    else channelIntersectFrom ownModes freqs rest

/-- `dpp_channel_intersect()`. -/
def dppChannelIntersect (peerFreq : List Nat) (ownModes : List (List HostapdChannel)) : Option (List Nat) :=
  let freqs := channelIntersectFrom ownModes [] peerFreq
  if freqs.isEmpty then none else some freqs

/-- `DPP_BOOTSTRAP_MAX_FREQ`. -/
abbrev dppBootstrapMaxFreq : Nat := 30

/-- The loops of `dpp_channel_local_list()`; both end when the list is full. -/
def channelLocalListFrom : List Nat → List HostapdChannel → List Nat
  | freqs, [] => freqs
  | freqs, c :: rest =>
    if ¬ c.usable then channelLocalListFrom freqs rest
    else if c.freq ∈ freqs then channelLocalListFrom freqs rest
    else if freqs.length + 1 = dppBootstrapMaxFreq then freqs ++ [c.freq]
    else channelLocalListFrom (freqs ++ [c.freq]) rest

/-- `dpp_channel_local_list()`. -/
def dppChannelLocalList (ownModes : List (List HostapdChannel)) : Option (List Nat) :=
  if ownModes.isEmpty then some [2412, 2437, 2462]
  else
    let freqs := channelLocalListFrom [] ownModes.flatten
    if freqs.isEmpty then none else some freqs

/-- `dpp_prepare_channel_list()`, with the channels 6, 1 and 11 in front. -/
def dppPrepareChannelList (peerFreq : List Nat) (ownModes : List (List HostapdChannel)) : Option (List Nat) :=
  let res := if peerFreq.length > 0 then dppChannelIntersect peerFreq ownModes else dppChannelLocalList ownModes
  res.map fun freqs => freqToStart (freqToStart (freqToStart freqs 2462) 2412) 2437

end Hostap
