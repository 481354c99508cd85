import Hostap.Lib.Octets
import Hostap.Lib.Run
import Mathlib.Data.List.Nodup

/-!
# Sequence numbers of messages between key holders

A key holder keeps for each remote one which of its messages it has seen (`struct ft_remote_seq`,
`src/ap/wpa_auth_i.h` and `src/ap/wpa_auth_ft.c`): the domain the remote has drawn when it started, up
to 16 sequence numbers that were accepted, and one of them as the base from which numbers are
compared. `wpa_ft_rrb_seq_chk()` drops what is older than the base or is among the 16; what it can say
nothing about is deferred, and the remote is asked for its current number. If the answer does not fit
either, the numbers start again from it.

Comparison is modulo `2^32`. As long as all numbers of a domain are within `2^30` of each other the
circle is not seen: `seqPos` puts the numbers of a domain on a line, with room below the first for a
base that was set back, and `sub_toNat` turns every comparison into one of positions. The invariant is
then that an accepted number is below the base or one of the 16.

Starting again sets the base 16 numbers, and one for each message that waits, below the number of the
answer. An answer that comes late, when later messages have been accepted already, sets the base below
them, and they are forgotten. `ReopensNothing` leaves these answers out.
-/

namespace Hostap

open Octets List

/-! ## State -/

/-- `struct os_reltime`. -/
structure Reltime where
  sec : Int
  usec : Int

/-- `os_reltime_sub()`. -/
def Reltime.sub (a b : Reltime) : Reltime :=
  if a.usec - b.usec < 0 then
    { sec := a.sec - b.sec - 1, usec := a.usec - b.usec + 1000000 }
  else
    { sec := a.sec - b.sec, usec := a.usec - b.usec }

/-- `os_reltime_expired()`. -/
def Reltime.expired (now ts : Reltime) (timeoutSecs : Int) : Bool :=
  let age := now.sub ts
  timeoutSecs < age.sec || (age.sec = timeoutSecs && 0 < age.usec)

/-- The conversion of a number of seconds to `u32`. -/
def secU32 (sec : Int) : UInt32 := UInt32.ofNat (sec % 2 ^ 32).toNat

/-- `struct ft_rrb_seq`. -/
structure FtRrbSeq where
  dom : UInt32
  seq : UInt32
  ts : UInt32

/-- `struct ft_remote_item`, with the sequence number of the message that waits. -/
structure FtRemoteItem where
  nonce : Bytes
  nonceTs : Reltime
  msg : FtRrbSeq

/-- `struct ft_remote_seq_rx`. The first `num_last` items of `last` are a list here. `accepted` is not
in the source: the messages that were recorded by `wpa_ft_rrb_seq_accept()`, newest first. -/
structure FtRemoteSeq where
  dom : UInt32 := 0
  last : List UInt32 := []
  offsetidx : Nat := 0
  timeOffset : Reltime := ⟨0, 0⟩
  queue : List FtRemoteItem := []
  accepted : List (UInt32 × UInt32) := []

/-- `ftRRBseqTimeout`. -/
def ftRrbSeqTimeout : Nat := 10

/-- `ftRRBmaxQueueLen`. -/
def ftRrbMaxQueueLen : Nat := 100

/-- `FT_REMOTE_SEQ_BACKLOG`. -/
def ftRemoteSeqBacklog : Nat := 16

/-- `last[offsetidx]`. -/
def FtRemoteSeq.offset (s : FtRemoteSeq) : UInt32 := s.last.getD s.offsetidx 0

/-! ## Checking and recording -/

/-- The results of `wpa_ft_rrb_seq_chk()`. -/
inductive SeqResult
  | ok
  | drop
  | defer
  deriving DecidableEq

/-- The time stamp of a message is too far from the remote clock, as far as it is known. -/
def tsOutOfWindow (s : FtRemoteSeq) (m : FtRrbSeq) (now : Reltime) : Bool :=
  let nowRemote := now.sub s.timeOffset
  let msgTsOff := m.ts - (secU32 nowRemote.sec - UInt32.ofNat ftRrbSeqTimeout)
  2 * UInt32.ofNat ftRrbSeqTimeout < msgTsOff

/-- `wpa_ft_rrb_seq_chk()`; `now` is the clock, if it can be read. -/
def wpaFtRrbSeqChk (s : FtRemoteSeq) (m : FtRrbSeq) (noDefer : Bool) (now : Option Reltime) :
    SeqResult :=
  let unknown : SeqResult := if noDefer then .drop else .defer
  if s.last = [] then
    unknown
  else if m.dom ≠ s.dom then
    unknown
  else if now.any (tsOutOfWindow s m) then
    unknown
  else if 0xC0000000 < m.seq - s.offset then
    .drop
  else if m.seq - s.offset ≤ 0x40000000 then
    if m.seq ∈ s.last then .drop else .ok
  else
    unknown

/-- The loop of `wpa_ft_rrb_seq_accept()` for the index of the next base. -/
def minIdx (last : List UInt32) (offsetidx : Nat) : Nat :=
  let rkhOff := last.getD offsetidx 0
  (List.range last.length).foldl (fun minidx i =>
    if last.getD i 0 - rkhOff < last.getD minidx 0 - rkhOff ∧ i ≠ offsetidx then i else minidx) 0

/-- `wpa_ft_rrb_seq_accept()`. -/
def wpaFtRrbSeqAccept (s : FtRemoteSeq) (m : FtRrbSeq) : FtRemoteSeq :=
  let s := { s with accepted := (m.dom, m.seq) :: s.accepted }
  if s.last.length < ftRemoteSeqBacklog then
    { s with last := s.last ++ [m.seq] }
  else
    { s with
      last := s.last.set s.offsetidx m.seq
      offsetidx := minIdx s.last s.offsetidx }

/-! ## Messages and answers -/

/-- `wpa_ft_rrb_seq_req()`: the nonce that was drawn and the time, if there are any. -/
def wpaFtRrbSeqReq (s : FtRemoteSeq) (m : FtRrbSeq) (req : Option (Bytes × Reltime)) : FtRemoteSeq :=
  if ftRrbMaxQueueLen ≤ s.queue.length then
    s
  else
    match req with
    | none => s
    | some (nonce, nonceTs) => { s with queue := { nonce, nonceTs, msg := m } :: s.queue }

/-- What a received message gets from outside. -/
structure SeqEnv where
  /-- The sender is known by a wildcard entry and has a new address: the message is deferred. -/
  wildcard : Bool := false
  now : Option Reltime
  req : Option (Bytes × Reltime) := none

/-- A pull, response or push message that is authenticated, as `wpa_ft_rrb_rx_pull()` and
`wpa_ft_rrb_rx_r1()` treat it. -/
def rxMessage (env : SeqEnv) (noDefer : Bool) (m : FtRrbSeq) (s : FtRemoteSeq) : FtRemoteSeq :=
  let seqRet := if !noDefer && env.wildcard then .defer else wpaFtRrbSeqChk s m noDefer env.now
  match seqRet with
  | .drop => s
  | .defer => wpaFtRrbSeqReq s m env.req
  | .ok => wpaFtRrbSeqAccept s m

/-- `wpa_ft_rrb_seq_flush()` with callbacks: the messages that wait are treated again. Those without
an environment do not get as far as the check. -/
def wpaFtRrbSeqFlush (envs : List (Option SeqEnv)) (s : FtRemoteSeq) : FtRemoteSeq :=
  let s := (s.queue.zip envs).foldl (fun s (item, env) =>
    match env with
    | some env => rxMessage env true item.msg s
    | none => s) s
  { s with queue := [] }

def resetSeq (m : FtRrbSeq) (now : Reltime) (s : FtRemoteSeq) : FtRemoteSeq :=
  { s with
    dom := m.dom
    offsetidx := 0
    last := [m.seq - UInt32.ofNat ftRemoteSeqBacklog - UInt32.ofNat s.queue.length, m.seq]
    timeOffset := now.sub ⟨m.ts.toNat, 0⟩ }

def nonceFound (nonce : Bytes) (now : Reltime) (s : FtRemoteSeq) : Bool :=
  s.queue.any fun item => item.nonce = nonce && !now.expired item.nonceTs ftRrbSeqTimeout

/-- `wpa_ft_rrb_rx_seq_resp()` for an answer that is authenticated. -/
def wpaFtRrbRxSeqResp (m : FtRrbSeq) (nonce : Bytes) (now chkNow : Option Reltime)
    (envs : List (Option SeqEnv)) (s : FtRemoteSeq) : FtRemoteSeq :=
  match now with
  | none => s
  | some now =>
    if nonceFound nonce now s then
      wpaFtRrbSeqFlush envs <|
        if wpaFtRrbSeqChk s m true chkNow = .ok then wpaFtRrbSeqAccept s m else resetSeq m now s
    else
      s

/-! ## Runs -/

/-- What happens at a key holder. -/
inductive SeqEvent
  | message (m : FtRrbSeq) (noDefer : Bool) (env : SeqEnv)
  | seqResp (m : FtRrbSeq) (nonce : Bytes) (now chkNow : Option Reltime)
      (envs : List (Option SeqEnv))
  /-- `wpa_ft_rrb_seq_timeout()` of a message that waits. -/
  | timeout (i : Nat)

def seqStep (s : FtRemoteSeq) : SeqEvent → Except Empty FtRemoteSeq
  | .message m noDefer env => .ok (rxMessage env noDefer m s)
  | .seqResp m nonce now chkNow envs => .ok (wpaFtRrbRxSeqResp m nonce now chkNow envs s)
  | .timeout i => .ok { s with queue := s.queue.eraseIdx i }

/-- The number of a message is one of the first `2^30` after the one its domain starts with. -/
def InRange (start : UInt32 → UInt32) (m : FtRrbSeq) : Prop := (m.seq - start m.dom).toNat < 2 ^ 30

instance (start : UInt32 → UInt32) (m : FtRrbSeq) : Decidable (InRange start m) := by
  unfold InRange
  infer_instance

def SeqEvent.InRange (start : UInt32 → UInt32) : SeqEvent → Prop
  | .message m _ _ => Hostap.InRange start m
  | .seqResp m _ _ _ _ => Hostap.InRange start m
  | .timeout _ => True

instance (start : UInt32 → UInt32) (ev : SeqEvent) : Decidable (ev.InRange start) := by
  unfold SeqEvent.InRange
  split <;> infer_instance

/-- An answer that makes the numbers start again puts every accepted number of its domain below the
base, or among the two numbers that are recorded. -/
def ReopensNothing (s : FtRemoteSeq) : SeqEvent → Prop
  | .seqResp m nonce now chkNow _ => ∀ t ∈ now, nonceFound nonce t s = true →
      wpaFtRrbSeqChk s m true chkNow ≠ .ok → ∀ a ∈ s.accepted, a.1 = m.dom →
        a.2 ∈ (resetSeq m t s).last ∨ 0xC0000000 < a.2 - (resetSeq m t s).offset
  | _ => True

-- the list is gone through: numbers are a finite type too, and deciding over all of them never ends
instance (s : FtRemoteSeq) (ev : SeqEvent) : Decidable (ReopensNothing s ev) := by
  unfold ReopensNothing
  split
  · rename_i m nonce now chkNow _
    have (t : Reltime) : Decidable (∀ a ∈ s.accepted, a.1 = m.dom →
        a.2 ∈ (resetSeq m t s).last ∨ 0xC0000000 < a.2 - (resetSeq m t s).offset) :=
      List.decidableBAll _ _
    infer_instance
  · infer_instance

/-! ## Positions -/

/-- The place of a number in its domain, counted from `116` before the first: as far as a base can be
set back. -/
def seqPos (start x : UInt32) : Nat := (x - start + 116).toNat

section Positions

variable {start x y : UInt32}

theorem seqPos_lt (start x : UInt32) : seqPos start x < 2 ^ 32 := UInt32.toNat_lt _

theorem seqPos_eq (h : (x - start).toNat < 2 ^ 30) : seqPos start x = (x - start).toNat + 116 := by
  unfold seqPos
  rw [UInt32.toNat_add]
  have h116 : (116 : UInt32).toNat = 116 := rfl
  omega

theorem sub_toNat (start x y : UInt32) :
    (x - y).toNat = (seqPos start x + 2 ^ 32 - seqPos start y) % 2 ^ 32 := by
  have hx := x.toNat_lt
  have hy := y.toNat_lt
  have hs := start.toNat_lt
  have h116 : (116 : UInt32).toNat = 116 := rfl
  unfold seqPos
  simp only [UInt32.toNat_add, UInt32.toNat_sub, h116]
  omega

theorem seqPos_inj (h : seqPos start x = seqPos start y) : x = y := by
  have hx := x.toNat_lt
  have hy := y.toNat_lt
  have hs := start.toNat_lt
  have h116 : (116 : UInt32).toNat = 116 := rfl
  unfold seqPos at h
  simp only [UInt32.toNat_add, UInt32.toNat_sub, h116] at h
  exact UInt32.toNat_inj.1 (by omega)

theorem seqPos_reset (h : (x - start).toNat < 2 ^ 30) {q : Nat} (hq : q ≤ ftRrbMaxQueueLen) :
    seqPos start (x - UInt32.ofNat ftRemoteSeqBacklog - UInt32.ofNat q) + 16 + q = seqPos start x := by
  have hq' : q ≤ 100 := hq
  have hx := x.toNat_lt
  have hs := start.toNat_lt
  have h116 : (116 : UInt32).toNat = 116 := rfl
  have h16 : (UInt32.ofNat ftRemoteSeqBacklog).toNat = 16 := rfl
  have hqn : (UInt32.ofNat q).toNat = q := by
    rw [UInt32.toNat_ofNat']
    omega
  unfold seqPos
  simp only [UInt32.toNat_add, UInt32.toNat_sub, h116, h16, hqn] at h ⊢
  omega

theorem tooOld_iff (start : UInt32) (hx : seqPos start x < 2 ^ 30 + 116) (hy : seqPos start y < 2 ^ 30 + 116)
    (hx' : 116 ≤ seqPos start x) :
    0xC0000000 < x - y ↔ seqPos start x < seqPos start y := by
  have hc : (0xC0000000 : UInt32).toNat = 0xC0000000 := rfl
  rw [UInt32.lt_iff_toNat_lt, sub_toNat start x y, hc]
  omega

end Positions

/-! ## Steps -/

/-- The numbers of a domain that were accepted are below the base or among the last, and no message
was accepted twice. -/
structure SeqInv (start : UInt32 → UInt32) (s : FtRemoteSeq) : Prop where
  offsetidx : s.offsetidx = 0
  queueLen : s.queue.length ≤ ftRrbMaxQueueLen
  queue : ∀ item ∈ s.queue, InRange start item.msg
  nodup : s.accepted.Nodup
  range : ∀ a ∈ s.accepted, (a.2 - start a.1).toNat < 2 ^ 30
  base : s.last ≠ [] → seqPos (start s.dom) s.offset < 2 ^ 30 + 116
  seen : s.last ≠ [] → ∀ a ∈ s.accepted, a.1 = s.dom →
    a.2 ∈ s.last ∨ seqPos (start s.dom) a.2 < seqPos (start s.dom) s.offset

section Steps

variable {start : UInt32 → UInt32} {s s' : FtRemoteSeq} {m : FtRrbSeq} {noDefer : Bool}
  {now : Option Reltime}

theorem chk_ok (h : wpaFtRrbSeqChk s m noDefer now = .ok) :
    s.last ≠ [] ∧ m.dom = s.dom ∧ ¬ 0xC0000000 < m.seq - s.offset ∧ m.seq ∉ s.last := by
  unfold wpaFtRrbSeqChk at h
  simp only at h
  have hunknown : (if noDefer = true then SeqResult.drop else SeqResult.defer) ≠ .ok := by
    split <;> exact SeqResult.noConfusion
  split at h
  · exact absurd h hunknown
  · rename_i hlast
    split at h
    · exact absurd h hunknown
    · rename_i hdom
      split at h
      · exact absurd h hunknown
      · split at h
        · cases h
        · rename_i hold
          split at h
          · split at h
            · cases h
            · rename_i hnew
              exact ⟨hlast, not_not.1 hdom, hold, hnew⟩
          · exact absurd h hunknown

theorem minIdx_zero (last : List UInt32) : minIdx last 0 = 0 := by
  have hstep : ∀ l : List Nat, l.foldl (fun minidx i =>
      if last.getD i 0 - last.getD 0 0 < last.getD minidx 0 - last.getD 0 0 ∧ i ≠ 0 then i
      else minidx) 0 = 0 := by
    intro l
    induction l with
    | nil => rfl
    | cons i l ih =>
      have hno : ¬ (last.getD i 0 - last.getD 0 0 < last.getD 0 0 - last.getD 0 0 ∧ i ≠ 0) := by
        rintro ⟨hlt, _⟩
        rw [UInt32.sub_self, UInt32.lt_iff_toNat_lt] at hlt
        exact absurd hlt (Nat.not_lt_zero _)
      rw [foldl_cons, if_neg hno]
      exact ih
  exact hstep _

theorem SeqInv.accept (h : SeqInv start s) (hm : InRange start m)
    (hok : wpaFtRrbSeqChk s m noDefer now = .ok) : SeqInv start (wpaFtRrbSeqAccept s m) := by
  obtain ⟨hlast, hdom, hold, hnew⟩ := chk_ok hok
  have hm' : (m.seq - start s.dom).toNat < 2 ^ 30 := by
    rw [← hdom]
    exact hm
  have hpos := seqPos_eq hm'
  have hge : seqPos (start s.dom) s.offset ≤ seqPos (start s.dom) m.seq := by
    rw [tooOld_iff (start s.dom) (by omega) (h.base hlast) (by omega)] at hold
    exact Nat.not_lt.1 hold
  have hfresh : (m.dom, m.seq) ∉ s.accepted := by
    intro hmem
    rcases h.seen hlast _ hmem hdom with hin | hlt
    · exact hnew hin
    · exact absurd hlt (Nat.not_lt.2 hge)
  have hrange : ∀ a ∈ (m.dom, m.seq) :: s.accepted, (a.2 - start a.1).toNat < 2 ^ 30 := by
    intro a ha
    rcases mem_cons.1 ha with rfl | ha
    · exact hm
    · exact h.range a ha
  obtain ⟨b, rest, hl⟩ := exists_cons_of_ne_nil hlast
  have hoffset : s.offset = b := by
    unfold FtRemoteSeq.offset
    rw [h.offsetidx, hl]
    rfl
  unfold wpaFtRrbSeqAccept
  simp only
  split
  · refine ⟨h.offsetidx, h.queueLen, h.queue, nodup_cons.2 ⟨hfresh, h.nodup⟩, hrange, ?_, ?_⟩
    all_goals
      have hoffset' : FtRemoteSeq.offset { s with
          accepted := (m.dom, m.seq) :: s.accepted, last := s.last ++ [m.seq] } = s.offset := by
        unfold FtRemoteSeq.offset
        simp only [h.offsetidx, hl]
        rfl
      intro _
      rw [hoffset']
    · exact h.base hlast
    · intro a ha had
      rcases mem_cons.1 ha with rfl | ha
      · exact .inl (by simp)
      · rcases h.seen hlast a ha had with hin | hlt
        · exact .inl (mem_append_left _ hin)
        · exact .inr hlt
  · -- the list is full: the new number takes the place of the base
    have hset : s.last.set s.offsetidx m.seq = m.seq :: rest := by
      rw [h.offsetidx, hl]
      rfl
    have hmin : minIdx s.last s.offsetidx = 0 := by rw [h.offsetidx, minIdx_zero]
    rw [hset, hmin]
    refine ⟨rfl, h.queueLen, h.queue, nodup_cons.2 ⟨hfresh, h.nodup⟩, hrange, ?_, ?_⟩
    · intro _
      show seqPos (start s.dom) m.seq < 2 ^ 30 + 116
      omega
    · intro _ a ha had
      show a.2 ∈ m.seq :: rest ∨ seqPos (start s.dom) a.2 < seqPos (start s.dom) m.seq
      rcases mem_cons.1 ha with rfl | ha
      · exact .inl mem_cons_self
      · rcases h.seen hlast a ha had with hin | hlt
        · rw [hl] at hin
          rcases mem_cons.1 hin with heq | hin
          · -- the base itself is below the new number
            refine .inr (Nat.lt_of_le_of_ne (by rw [heq, ← hoffset]; exact hge) fun hsame => ?_)
            refine hnew ?_
            rw [← seqPos_inj hsame, heq, hl]
            exact mem_cons_self
          · exact .inl (mem_cons_of_mem _ hin)
        · exact .inr (Nat.lt_of_lt_of_le hlt hge)

theorem SeqInv.reset (h : SeqInv start s) (hm : InRange start m) (t : Reltime)
    (hc : ∀ a ∈ s.accepted, a.1 = m.dom →
      a.2 ∈ (resetSeq m t s).last ∨ 0xC0000000 < a.2 - (resetSeq m t s).offset) :
    SeqInv start (resetSeq m t s) := by
  have hpos := seqPos_eq hm
  have hreset := seqPos_reset hm h.queueLen
  have hm' : (m.seq - start m.dom).toNat < 2 ^ 30 := hm
  have hbase : seqPos (start m.dom) (resetSeq m t s).offset < 2 ^ 30 + 116 := by
    show seqPos (start m.dom) (m.seq - UInt32.ofNat ftRemoteSeqBacklog -
      UInt32.ofNat s.queue.length) < 2 ^ 30 + 116
    omega
  refine ⟨rfl, h.queueLen, h.queue, h.nodup, h.range, fun _ => hbase, ?_⟩
  intro _ a ha had
  have had' : a.1 = m.dom := had
  rcases hc a ha had' with hin | hlt
  · exact .inl hin
  · have hr := h.range a ha
    rw [had'] at hr
    have hpa := seqPos_eq hr
    exact .inr ((tooOld_iff _ (by omega) hbase (by omega)).1 hlt)

theorem SeqInv.seqReq (h : SeqInv start s) (hm : InRange start m) (req : Option (Bytes × Reltime)) :
    SeqInv start (wpaFtRrbSeqReq s m req) := by
  unfold wpaFtRrbSeqReq
  split
  · exact h
  · rename_i hroom
    split
    · exact h
    · refine ⟨h.offsetidx, ?_, ?_, h.nodup, h.range, h.base, h.seen⟩
      · simp only [length_cons]
        omega
      · intro item hitem
        rcases mem_cons.1 hitem with rfl | hitem
        · exact hm
        · exact h.queue item hitem

theorem SeqInv.message (h : SeqInv start s) (hm : InRange start m) (env : SeqEnv) (noDefer : Bool) :
    SeqInv start (rxMessage env noDefer m s) := by
  unfold rxMessage
  simp only
  split
  · exact h
  · exact h.seqReq hm env.req
  · rename_i hok
    split at hok
    · cases hok
    · exact h.accept hm hok

theorem SeqInv.flush (h : SeqInv start s) (envs : List (Option SeqEnv)) :
    SeqInv start (wpaFtRrbSeqFlush envs s) := by
  have hfold : ∀ (l : List (FtRemoteItem × Option SeqEnv)) (s : FtRemoteSeq),
      (∀ x ∈ l, InRange start x.1.msg) → SeqInv start s →
      SeqInv start (l.foldl (fun s (item, env) =>
        match env with
        | some env => rxMessage env true item.msg s
        | none => s) s) := by
    intro l
    induction l with
    | nil => exact fun _ _ hs => hs
    | cons x l ih =>
      intro s hl hs
      refine ih _ (fun y hy => hl y (mem_cons_of_mem _ hy)) ?_
      obtain ⟨item, env⟩ := x
      cases env with
      | none => exact hs
      | some env => exact hs.message (hl _ mem_cons_self) env true
  have hinv := hfold (s.queue.zip envs) s
    (fun x hx => h.queue x.1 (of_mem_zip hx).1) h
  exact ⟨hinv.offsetidx, Nat.zero_le _, (fun _ hitem => nomatch hitem), hinv.nodup, hinv.range,
    hinv.base, hinv.seen⟩

theorem SeqInv.step {ev : SeqEvent} (h : SeqInv start s) (hrange : ev.InRange start)
    (hc : ReopensNothing s ev) (hs : seqStep s ev = .ok s') : SeqInv start s' := by
  cases ev with
  | message m noDefer env =>
    cases hs
    exact h.message hrange env noDefer
  | seqResp m nonce now chkNow envs =>
    cases hs
    unfold wpaFtRrbRxSeqResp
    cases now with
    | none => exact h
    | some t =>
      simp only
      split
      · rename_i hfound
        refine SeqInv.flush ?_ envs
        split
        · rename_i hok
          exact h.accept hrange hok
        · rename_i hno
          exact h.reset hrange t (hc t rfl hfound hno)
      · exact h
  | timeout i =>
    cases hs
    refine ⟨h.offsetidx, ?_, ?_, h.nodup, h.range, h.base, h.seen⟩
    · exact Nat.le_trans (length_eraseIdx_le s.queue i) h.queueLen
    · intro item hitem
      exact h.queue item (mem_of_mem_eraseIdx hitem)

end Steps

/-- No message is accepted twice, whatever is lost, repeated or comes in another order and whatever
the clocks say, in every run in which an answer never opens a number again that was accepted. -/
theorem ft_rrb_accepts_once (start : UInt32 → UInt32) (evs : List SeqEvent) (s : FtRemoteSeq)
    (h : Run.Reach seqStep (fun s ev => ev.InRange start ∧ ReopensNothing s ev) {} evs s) :
    s.accepted.Nodup := by
  have hinv : SeqInv start s := by
    refine h.invariant ?_ fun s ev s' hinv hc hs => hinv.step hc.1 hc.2 hs
    exact ⟨rfl, Nat.zero_le _, (fun _ hitem => nomatch hitem), .nil, (fun _ ha => nomatch ha),
      fun hne => absurd rfl hne, fun hne => absurd rfl hne⟩
  exact hinv.nodup

def smallSeqMsg (seq : UInt32) : FtRrbSeq := ⟨1, seq, 100⟩

def smallSeqEnv (nonce : Bytes) : SeqEnv := { now := some ⟨100, 0⟩, req := some (nonce, ⟨100, 0⟩) }

def smallSeqStart : List SeqEvent :=
  [.message (smallSeqMsg 0) false (smallSeqEnv [1]),
    .seqResp (smallSeqMsg 1) [1] (some ⟨100, 0⟩) (some ⟨100, 0⟩) [some (smallSeqEnv [])]]

theorem ft_rrb_accepts_once_small :
    ∃ s, Run.Reach seqStep (fun s ev => ev.InRange (fun _ => 0) ∧ ReopensNothing s ev) {}
        (smallSeqStart ++ [.message (smallSeqMsg 2) false (smallSeqEnv []),
          .message (smallSeqMsg 2) false (smallSeqEnv [])]) s ∧
      s.accepted = [(1, 2), (1, 0)] ∧ s.accepted.Nodup := by
  obtain ⟨s, hs, hp⟩ := Run.reach_of_runWhile_any seqStep
    (fun s ev => ev.InRange (fun _ => 0) ∧ ReopensNothing s ev) {}
    (smallSeqStart ++ [.message (smallSeqMsg 2) false (smallSeqEnv []),
      .message (smallSeqMsg 2) false (smallSeqEnv [])])
    (fun s => s.accepted = [(1, 2), (1, 0)]) (by decide +kernel)
  exact ⟨s, hs, of_decide_eq_true hp, ft_rrb_accepts_once (fun _ => 0) _ s hs⟩

/-- The answer with number 3 is late: the messages 4 to 17 have been accepted, and the list was full
with the last of them. The numbers start again below 3, and message 17 is accepted once more. -/
theorem late_answer_reopens :
    ∃ s, Run.Reach seqStep (fun _ ev => ev.InRange fun _ => 0) {}
        (smallSeqStart ++ [.message ⟨1, 2, 50⟩ false (smallSeqEnv [2])] ++
          ((List.range 14).map fun i =>
            .message (smallSeqMsg (UInt32.ofNat (i + 4))) false (smallSeqEnv [])) ++
          [.seqResp (smallSeqMsg 3) [2] (some ⟨100, 0⟩) (some ⟨100, 0⟩) [none],
            .message (smallSeqMsg 17) false (smallSeqEnv [])]) s ∧
      ¬ s.accepted.Nodup := by
  obtain ⟨s, hs, hp⟩ := Run.reach_of_runWhile_any seqStep (fun _ ev => ev.InRange fun _ => 0) {}
    (smallSeqStart ++ [.message ⟨1, 2, 50⟩ false (smallSeqEnv [2])] ++
      ((List.range 14).map fun i =>
        .message (smallSeqMsg (UInt32.ofNat (i + 4))) false (smallSeqEnv [])) ++
      [.seqResp (smallSeqMsg 3) [2] (some ⟨100, 0⟩) (some ⟨100, 0⟩) [none],
        .message (smallSeqMsg 17) false (smallSeqEnv [])])
    (fun s => ¬ s.accepted.Nodup) (by decide +kernel)
  exact ⟨s, hs, of_decide_eq_true hp⟩

end Hostap
