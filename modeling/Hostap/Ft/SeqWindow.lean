import Hostap.Ft.SeqReplay
import Mathlib.Data.List.Perm.Subperm

/-!
# The window of sequence numbers

`wpa_ft_rrb_seq_chk()` compares a number with the base, `last[offsetidx]`, and lets a message pass that is
newer than the base and not among the retained numbers. So messages may overtake each other as long as the
base is the oldest number that is retained. `wpa_ft_rrb_seq_accept()` means to keep it so: with a full list the
new number takes the place of the base, and the index of the next base is the one of the oldest number of the
others. Its search starts at index 0, though, and the base, which is at index 0 since the last reset, is
nearest to itself: no other index is ever taken (`minIdx_zero`). The new number is the base then, and whatever
is older is dropped.

`ft_rrb_window` is about the runs in which a number that is recorded in a full list is older than the 15 that
stay (`KeepsOldest`): there the base is the oldest number, and the window is open. `SeqWindow` adds to the
state what was recorded since the last reset.
-/

namespace Hostap

open Octets List

/-! ## Numbers on a circle -/

/-- `x` is newer than `y`, as far as `wpa_ft_rrb_seq_chk()` looks. -/
def SeqNewer (x y : UInt32) : Prop := x ≠ y ∧ x - y ≤ 0x40000000

instance (x y : UInt32) : Decidable (SeqNewer x y) := inferInstanceAs (Decidable (_ ∧ _))

theorem sub_le_iff {x y : UInt32} : x - y ≤ 0x40000000 ↔ (x - y).toNat ≤ 0x40000000 := by
  rw [UInt32.le_iff_toNat_le]
  rfl

theorem SeqNewer.no_cycle {x y z : UInt32} (hxy : x - y ≤ 0x40000000) (hyz : y - z ≤ 0x40000000)
    (hzx : z - x ≤ 0x40000000) : x = y := by
  have hx := x.toNat_lt
  have hy := y.toNat_lt
  have hz := z.toNat_lt
  rw [sub_le_iff, UInt32.toNat_sub] at hxy hyz hzx
  apply UInt32.toNat_inj.mp
  -- the three differences add up to a multiple of the circle, and are too small for once around
  omega

theorem SeqNewer.not_old {x y : UInt32} (h : SeqNewer x y) : ¬ 0xC0000000 < x - y := by
  have hle := sub_le_iff.mp h.2
  rw [UInt32.lt_iff_toNat_lt]
  have hc : (0xC0000000 : UInt32).toNat = 0xC0000000 := rfl
  omega

/-! ## The window -/

/-- What a key holder keeps, with how many messages it had accepted when the numbers started the last time,
and the two numbers they started with. -/
structure SeqWindow where
  s : FtRemoteSeq := {}
  acceptedBefore : Nat := 0
  started : List UInt32 := []

/-- The numbers that were recorded since a reset, newest first. -/
def recordedSince (acceptedBefore : Nat) (started : List UInt32) (s : FtRemoteSeq) : List UInt32 :=
  (s.accepted.take (s.accepted.length - acceptedBefore)).map (·.2) ++ started

def SeqWindow.recorded (w : SeqWindow) : List UInt32 := recordedSince w.acceptedBefore w.started w.s

def BaseOldest (s : FtRemoteSeq) : Prop := ∀ x ∈ s.last, x - s.offset ≤ 0x40000000

/-- The message was not recorded, is near the numbers that were, and is larger than all but at most 15 of
them. -/
structure InWindow (w : SeqWindow) (m : FtRrbSeq) : Prop where
  dom : m.dom = w.s.dom
  fresh : m.seq ∉ w.recorded
  near : ∀ r ∈ w.recorded, SeqNewer m.seq r ∨ SeqNewer r m.seq
  larger : ∃ r ∈ w.recorded, SeqNewer m.seq r
  few : (w.recorded.filter fun r => SeqNewer r m.seq).length ≤ 15

theorem inWindow_iff {w : SeqWindow} {m : FtRrbSeq} : InWindow w m ↔
    m.dom = w.s.dom ∧ m.seq ∉ w.recorded ∧ (∀ r ∈ w.recorded, SeqNewer m.seq r ∨ SeqNewer r m.seq) ∧
      (∃ r ∈ w.recorded, SeqNewer m.seq r) ∧ (w.recorded.filter fun r => SeqNewer r m.seq).length ≤ 15 :=
  ⟨fun h => ⟨h.dom, h.fresh, h.near, h.larger, h.few⟩, fun ⟨hd, hf, hn, hl, hw⟩ => ⟨hd, hf, hn, hl, hw⟩⟩

-- the lists are gone through: numbers are a finite type too, and deciding over all of them never ends
instance (w : SeqWindow) (m : FtRrbSeq) : Decidable (InWindow w m) :=
  have : Decidable (∀ r ∈ w.recorded, SeqNewer m.seq r ∨ SeqNewer r m.seq) := List.decidableBAll _ _
  have : Decidable (∃ r ∈ w.recorded, SeqNewer m.seq r) := List.decidableBEx _ _
  decidable_of_iff' _ inWindow_iff

instance (s : FtRemoteSeq) : Decidable (BaseOldest s) := List.decidableBAll _ _

/-- Every message in the window with a valid time stamp is accepted. -/
def WindowOpen (w : SeqWindow) : Prop :=
  ∀ m noDefer now, InWindow w m → ¬ now.any (tsOutOfWindow w.s m) = true →
    wpaFtRrbSeqChk w.s m noDefer now = .ok

/-! ## Runs -/

/-- There is room for the number, or it is older than the retained numbers but the base. -/
def RecordsOldest (s : FtRemoteSeq) (m : FtRrbSeq) : Prop :=
  s.last.length < ftRemoteSeqBacklog ∨ ∀ x ∈ s.last.tail, m.seq - s.offset ≤ x - s.offset

instance (s : FtRemoteSeq) (m : FtRrbSeq) : Decidable (RecordsOldest s m) :=
  have : Decidable (∀ x ∈ s.last.tail, m.seq - s.offset ≤ x - s.offset) := List.decidableBAll _ _
  inferInstanceAs (Decidable (_ ∨ _))

/-- The same for a message that is received, if it is recorded. -/
def RxRecordsOldest (env : SeqEnv) (noDefer : Bool) (m : FtRrbSeq) (s : FtRemoteSeq) : Prop :=
  (noDefer = true ∨ env.wildcard = false) → wpaFtRrbSeqChk s m noDefer env.now = .ok → RecordsOldest s m

instance (env : SeqEnv) (noDefer : Bool) (m : FtRrbSeq) (s : FtRemoteSeq) :
    Decidable (RxRecordsOldest env noDefer m s) := inferInstanceAs (Decidable (_ → _ → _))

def treatedAgain : List (FtRemoteItem × Option SeqEnv) → FtRemoteSeq → FtRemoteSeq
  | [], s => s
  | (item, some env) :: l, s => treatedAgain l (rxMessage env true item.msg s)
  | (_, none) :: l, s => treatedAgain l s

def FlushRecordsOldest : List (FtRemoteItem × Option SeqEnv) → FtRemoteSeq → Prop
  | [], _ => True
  | (item, some env) :: l, s =>
    RxRecordsOldest env true item.msg s ∧ FlushRecordsOldest l (rxMessage env true item.msg s)
  | (_, none) :: l, s => FlushRecordsOldest l s

instance decidableFlushRecordsOldest : (l : List (FtRemoteItem × Option SeqEnv)) → (s : FtRemoteSeq) →
    Decidable (FlushRecordsOldest l s)
  | [], _ => .isTrue trivial
  | (item, some env) :: l, s =>
    have := decidableFlushRecordsOldest l (rxMessage env true item.msg s)
    inferInstanceAs (Decidable (_ ∧ _))
  | (_, none) :: l, s => decidableFlushRecordsOldest l s

/-- What an answer leaves behind before the messages that wait are treated again. -/
def answered (m : FtRrbSeq) (t : Reltime) (chkNow : Option Reltime) (s : FtRemoteSeq) : FtRemoteSeq :=
  if wpaFtRrbSeqChk s m true chkNow = .ok then wpaFtRrbSeqAccept s m else resetSeq m t s

/-- A number that is recorded in a full list is older than those that stay. -/
def KeepsOldest (w : SeqWindow) : SeqEvent → Prop
  | .message m noDefer env => RxRecordsOldest env noDefer m w.s
  | .seqResp m nonce now chkNow envs => ∀ t ∈ now, nonceFound nonce t w.s = true →
      (wpaFtRrbSeqChk w.s m true chkNow = .ok → RecordsOldest w.s m) ∧
        FlushRecordsOldest (w.s.queue.zip envs) (answered m t chkNow w.s)
  | .timeout _ => True

instance (w : SeqWindow) : (ev : SeqEvent) → Decidable (KeepsOldest w ev)
  | .message m noDefer env => inferInstanceAs (Decidable (RxRecordsOldest env noDefer m w.s))
  | .seqResp m nonce now chkNow envs =>
    inferInstanceAs (Decidable (∀ t ∈ now, nonceFound nonce t w.s = true →
      (wpaFtRrbSeqChk w.s m true chkNow = .ok → RecordsOldest w.s m) ∧
        FlushRecordsOldest (w.s.queue.zip envs) (answered m t chkNow w.s)))
  | .timeout _ => .isTrue trivial

def startsAgain (s : FtRemoteSeq) : SeqEvent → Option (FtRrbSeq × Reltime)
  | .seqResp m nonce (some t) chkNow _ =>
    if nonceFound nonce t s = true ∧ wpaFtRrbSeqChk s m true chkNow ≠ .ok then some (m, t) else none
  | _ => none

def seqWindowStep (w : SeqWindow) (ev : SeqEvent) : Except Empty SeqWindow :=
  (seqStep w.s ev).map fun s =>
    match startsAgain w.s ev with
    | some (m, t) =>
      { s := s, acceptedBefore := w.s.accepted.length, started := (resetSeq m t w.s).last.reverse }
    | none => { w with s := s }

/-! ## Steps -/

/-- The base is the oldest of at most 16 numbers that are retained, and less than 16 are all there were. -/
structure WindowInv (acceptedBefore : Nat) (started : List UInt32) (s : FtRemoteSeq) : Prop where
  offsetidx : s.offsetidx = 0
  queueLen : s.queue.length ≤ ftRrbMaxQueueLen
  before : acceptedBefore ≤ s.accepted.length
  len : s.last.length ≤ ftRemoteSeqBacklog
  nodup : s.last.Nodup
  oldest : BaseOldest s
  retained : ∀ x ∈ s.last, x ∈ recordedSince acceptedBefore started s
  all : s.last.length < ftRemoteSeqBacklog → ∀ r ∈ recordedSince acceptedBefore started s, r ∈ s.last

section Steps

variable {before : Nat} {started : List UInt32} {s : FtRemoteSeq} {m : FtRrbSeq} {noDefer : Bool}
  {now : Option Reltime}

theorem chk_ok_near (h : wpaFtRrbSeqChk s m noDefer now = .ok) : m.seq - s.offset ≤ 0x40000000 := by
  unfold wpaFtRrbSeqChk at h
  have hunknown : (if noDefer = true then SeqResult.drop else SeqResult.defer) ≠ .ok := by
    split <;> exact SeqResult.noConfusion
  dsimp only at h
  split at h
  · exact absurd h hunknown
  split at h
  · exact absurd h hunknown
  split at h
  · exact absurd h hunknown
  split at h
  · cases h
  split at h
  · assumption
  · exact absurd h hunknown

theorem chk_of_newer (hne : s.last ≠ []) (hdom : m.dom = s.dom) (hts : ¬ now.any (tsOutOfWindow s m) = true)
    (hnew : SeqNewer m.seq s.offset) (hfresh : m.seq ∉ s.last) : wpaFtRrbSeqChk s m noDefer now = .ok := by
  unfold wpaFtRrbSeqChk
  dsimp only
  rw [if_neg hne, if_neg (not_not.mpr hdom), if_neg hts, if_neg hnew.not_old, if_pos hnew.2, if_neg hfresh]

theorem recordedSince_cons (started : List UInt32) (hbefore : before ≤ s.accepted.length)
    (a : UInt32 × UInt32) (last : List UInt32) (offsetidx : Nat) :
    recordedSince before started { s with accepted := a :: s.accepted, last := last, offsetidx := offsetidx } =
      a.2 :: recordedSince before started s := by
  unfold recordedSince
  have hlen : (a :: s.accepted).length - before = (s.accepted.length - before) + 1 := by
    rw [length_cons]
    omega
  rw [hlen, take_succ_cons, map_cons, cons_append]

theorem offset_eq_head {b : UInt32} {rest : List UInt32} (hidx : s.offsetidx = 0) (hl : s.last = b :: rest) :
    s.offset = b := by
  unfold FtRemoteSeq.offset
  rw [hidx, hl, getD_cons_zero]

theorem WindowInv.append (h : WindowInv before started s) (hne : s.last ≠ []) (hnew : m.seq ∉ s.last)
    (hnear : m.seq - s.offset ≤ 0x40000000) (hroom : s.last.length < ftRemoteSeqBacklog) :
    WindowInv before started
      { s with accepted := (m.dom, m.seq) :: s.accepted, last := s.last ++ [m.seq] } := by
  have hrecorded := recordedSince_cons started h.before (m.dom, m.seq) (s.last ++ [m.seq]) s.offsetidx
  refine ⟨h.offsetidx, h.queueLen, Nat.le_succ_of_le h.before, ?_, ?_, ?_, ?_, ?_⟩
  · show (s.last ++ [m.seq]).length ≤ _
    rw [length_append, length_singleton]
    omega
  · exact nodup_append.mpr ⟨h.nodup, nodup_singleton _, fun x hx y hy => by
      rw [mem_singleton.mp hy]
      intro heq
      exact hnew (heq ▸ hx)⟩
  · intro x hx
    obtain ⟨b, rest, hl⟩ := exists_cons_of_ne_nil hne
    have hbase : FtRemoteSeq.offset
        { s with accepted := (m.dom, m.seq) :: s.accepted, last := s.last ++ [m.seq] } = s.offset := by
      rw [offset_eq_head h.offsetidx hl]
      have hlast : s.last ++ [m.seq] = b :: (rest ++ [m.seq]) := by rw [hl, cons_append]
      exact @offset_eq_head { s with last := s.last ++ [m.seq] } _ _ h.offsetidx hlast
    rw [hbase]
    rcases mem_append.mp hx with hx | hx
    · exact h.oldest x hx
    · rw [mem_singleton.mp hx]
      exact hnear
  · intro x hx
    show x ∈ recordedSince before started _
    rw [hrecorded]
    rcases mem_append.mp hx with hx | hx
    · exact mem_cons_of_mem _ (h.retained x hx)
    · rw [mem_singleton.mp hx]
      exact mem_cons_self
  · intro _ r hr
    have hr : r ∈ recordedSince before started
      { s with
        accepted := (m.dom, m.seq) :: s.accepted, last := s.last ++ [m.seq], offsetidx := s.offsetidx } := hr
    rw [hrecorded] at hr
    rcases mem_cons.mp hr with rfl | hr
    · exact mem_append_right _ (mem_singleton_self _)
    · exact mem_append_left _ (h.all hroom r hr)

theorem WindowInv.replaceBase {b : UInt32} {rest : List UInt32} (h : WindowInv before started s)
    (hl : s.last = b :: rest) (hnew : m.seq ∉ s.last) (hfull : ¬ s.last.length < ftRemoteSeqBacklog)
    (holder : ∀ x ∈ rest, m.seq - s.offset ≤ x - s.offset) :
    WindowInv before started
      { s with accepted := (m.dom, m.seq) :: s.accepted, last := m.seq :: rest, offsetidx := 0 } := by
  have hrecorded := recordedSince_cons started h.before (m.dom, m.seq) (m.seq :: rest) 0
  have hlen := h.len
  have hnodup := h.nodup
  rw [hl] at hnew hlen hnodup hfull
  refine ⟨rfl, h.queueLen, Nat.le_succ_of_le h.before, hlen, ?_, ?_, ?_, ?_⟩
  · exact nodup_cons.mpr ⟨fun hin => hnew (mem_cons_of_mem _ hin), (nodup_cons.mp hnodup).2⟩
  · intro x hx
    show x - m.seq ≤ 0x40000000
    rcases mem_cons.mp hx with rfl | hx
    · rw [UInt32.sub_self]
      decide
    -- from the base, the new number comes before `x`, and `x` is near
    · have hbefore := holder x hx
      have hnear := h.oldest x (by rw [hl]; exact mem_cons_of_mem _ hx)
      have hb := s.offset.toNat_lt
      have hxl := x.toNat_lt
      have hml := m.seq.toNat_lt
      rw [sub_le_iff, UInt32.toNat_sub] at *
      rw [UInt32.le_iff_toNat_le, UInt32.toNat_sub, UInt32.toNat_sub] at hbefore
      omega
  · intro x hx
    rw [hrecorded]
    rcases mem_cons.mp hx with rfl | hx
    · exact mem_cons_self
    · exact mem_cons_of_mem _ (h.retained x (by rw [hl]; exact mem_cons_of_mem _ hx))
  · intro hlt
    exact absurd hlt hfull

theorem WindowInv.accept (h : WindowInv before started s) (hok : wpaFtRrbSeqChk s m noDefer now = .ok)
    (holdest : RecordsOldest s m) : WindowInv before started (wpaFtRrbSeqAccept s m) := by
  obtain ⟨hne, -, -, hnew⟩ := chk_ok hok
  unfold wpaFtRrbSeqAccept
  dsimp only
  by_cases hroom : s.last.length < ftRemoteSeqBacklog
  · rw [if_pos hroom]
    exact h.append hne hnew (chk_ok_near hok) hroom
  · rw [if_neg hroom]
    obtain ⟨b, rest, hl⟩ := exists_cons_of_ne_nil hne
    have hset : s.last.set s.offsetidx m.seq = m.seq :: rest := by
      rw [h.offsetidx, hl, set_cons_zero]
    have hmin : minIdx s.last s.offsetidx = 0 := by rw [h.offsetidx, minIdx_zero]
    rw [hset, hmin]
    apply h.replaceBase hl hnew hroom
    intro x hx
    exact holdest.resolve_left hroom x (by rw [hl]; exact hx)

theorem WindowInv.seqReq (h : WindowInv before started s) (m : FtRrbSeq) (req : Option (Bytes × Reltime)) :
    WindowInv before started (wpaFtRrbSeqReq s m req) := by
  unfold wpaFtRrbSeqReq
  split
  · exact h
  rename_i hroom
  split
  · exact h
  refine ⟨h.offsetidx, ?_, h.before, h.len, h.nodup, h.oldest, h.retained, h.all⟩
  show (_ :: s.queue).length ≤ _
  rw [length_cons]
  omega

theorem WindowInv.message {env : SeqEnv} (h : WindowInv before started s)
    (holdest : RxRecordsOldest env noDefer m s) : WindowInv before started (rxMessage env noDefer m s) := by
  unfold rxMessage
  dsimp only
  by_cases hwild : (!noDefer && env.wildcard) = true
  · rw [if_pos hwild]
    exact h.seqReq m env.req
  rw [if_neg hwild]
  have hchecked : noDefer = true ∨ env.wildcard = false := by
    cases noDefer
    · right
      simpa using hwild
    · exact .inl rfl
  split
  · exact h
  · exact h.seqReq m env.req
  · rename_i hok
    exact h.accept hok (holdest hchecked hok)

theorem WindowInv.reset (h : WindowInv before started s) (m : FtRrbSeq) (t : Reltime) :
    WindowInv s.accepted.length (resetSeq m t s).last.reverse (resetSeq m t s) := by
  have hq : s.queue.length ≤ 100 := h.queueLen
  have hm := m.seq.toNat_lt
  have hqn : (UInt32.ofNat s.queue.length).toNat = s.queue.length := by
    rw [UInt32.toNat_ofNat']
    omega
  have h16 : (UInt32.ofNat ftRemoteSeqBacklog).toNat = 16 := rfl
  have hgap : (m.seq - (m.seq - UInt32.ofNat ftRemoteSeqBacklog - UInt32.ofNat s.queue.length)).toNat =
      16 + s.queue.length := by
    simp only [UInt32.toNat_sub, hqn, h16]
    omega
  have hrecorded : recordedSince s.accepted.length (resetSeq m t s).last.reverse (resetSeq m t s) =
      (resetSeq m t s).last.reverse := by
    show (s.accepted.take (s.accepted.length - s.accepted.length)).map (·.2) ++ _ = _
    rw [Nat.sub_self, take_zero, map_nil, nil_append]
  have htwo : (resetSeq m t s).last.length ≤ ftRemoteSeqBacklog := by
    show 2 ≤ 16
    omega
  refine ⟨rfl, h.queueLen, Nat.le_refl _, htwo, ?_, ?_, ?_, ?_⟩
  · refine nodup_cons.mpr ⟨fun hin => ?_, nodup_singleton _⟩
    have heq := mem_singleton.mp hin
    rw [heq, UInt32.sub_self] at hgap
    have hzero : (0 : UInt32).toNat = 0 := rfl
    omega
  · intro x hx
    show x - (m.seq - UInt32.ofNat ftRemoteSeqBacklog - UInt32.ofNat s.queue.length) ≤ 0x40000000
    rcases mem_cons.mp hx with rfl | hx
    · rw [UInt32.sub_self]
      decide
    · rw [mem_singleton.mp hx, sub_le_iff, hgap]
      omega
  · intro x hx
    rw [hrecorded]
    exact mem_reverse.mpr hx
  · intro _ r hr
    rw [hrecorded] at hr
    exact mem_reverse.mp hr

theorem treatedAgain_eq (envs : List (Option SeqEnv)) (s : FtRemoteSeq) :
    wpaFtRrbSeqFlush envs s = { treatedAgain (s.queue.zip envs) s with queue := [] } := by
  unfold wpaFtRrbSeqFlush
  refine congrArg (fun s : FtRemoteSeq => { s with queue := [] }) ?_
  induction s.queue.zip envs generalizing s with
  | nil => rfl
  | cons x l ih =>
    obtain ⟨item, env⟩ := x
    cases env with
    | none => exact ih s
    | some env => exact ih (rxMessage env true item.msg s)

theorem WindowInv.treatedAgain {l : List (FtRemoteItem × Option SeqEnv)} (h : WindowInv before started s)
    (hc : FlushRecordsOldest l s) : WindowInv before started (treatedAgain l s) := by
  induction l generalizing s with
  | nil => exact h
  | cons x l ih =>
    obtain ⟨item, env⟩ := x
    cases env with
    | none => exact ih h hc
    | some env => exact ih (h.message hc.1) hc.2

theorem WindowInv.flush {envs : List (Option SeqEnv)} (h : WindowInv before started s)
    (hc : FlushRecordsOldest (s.queue.zip envs) s) : WindowInv before started (wpaFtRrbSeqFlush envs s) := by
  have hinv := h.treatedAgain hc
  rw [treatedAgain_eq]
  exact ⟨hinv.offsetidx, Nat.zero_le _, hinv.before, hinv.len, hinv.nodup, hinv.oldest, hinv.retained, hinv.all⟩

end Steps

theorem WindowInv.seqResp {before : Nat} {started : List UInt32} {s : FtRemoteSeq} {m : FtRrbSeq}
    {t : Reltime} {chkNow : Option Reltime} {envs : List (Option SeqEnv)} (h : WindowInv before started s)
    (hc : (wpaFtRrbSeqChk s m true chkNow = .ok → RecordsOldest s m) ∧
      FlushRecordsOldest (s.queue.zip envs) (answered m t chkNow s)) :
    if wpaFtRrbSeqChk s m true chkNow = .ok then
      WindowInv before started (wpaFtRrbSeqFlush envs (answered m t chkNow s))
    else
      WindowInv s.accepted.length (resetSeq m t s).last.reverse
        (wpaFtRrbSeqFlush envs (answered m t chkNow s)) := by
  have hqueue : (answered m t chkNow s).queue = s.queue := by
    unfold answered wpaFtRrbSeqAccept
    dsimp only
    split
    · split
      · rfl
      · rfl
    · rfl
  by_cases hok : wpaFtRrbSeqChk s m true chkNow = .ok
  · rw [if_pos hok]
    refine WindowInv.flush ?_ (by rw [hqueue]; exact hc.2)
    unfold answered
    rw [if_pos hok]
    exact h.accept hok (hc.1 hok)
  · rw [if_neg hok]
    refine WindowInv.flush ?_ (by rw [hqueue]; exact hc.2)
    unfold answered
    rw [if_neg hok]
    exact h.reset m t

def SeqWindow.Inv (w : SeqWindow) : Prop := WindowInv w.acceptedBefore w.started w.s

theorem SeqWindow.Inv.step {w w' : SeqWindow} {ev : SeqEvent} (h : w.Inv) (hc : KeepsOldest w ev)
    (hs : seqWindowStep w ev = .ok w') : w'.Inv := by
  cases ev with
  | message m noDefer env =>
    cases hs
    exact WindowInv.message h hc
  | timeout i =>
    cases hs
    refine ⟨h.offsetidx, ?_, h.before, h.len, h.nodup, h.oldest, h.retained, h.all⟩
    exact Nat.le_trans (length_eraseIdx_le w.s.queue i) h.queueLen
  | seqResp m nonce now chkNow envs =>
    cases now with
    | none =>
      cases hs
      exact h
    | some t =>
      by_cases hfound : nonceFound nonce t w.s = true
      · have hresp := WindowInv.seqResp h (hc t rfl hfound)
        have hstep : seqStep w.s (.seqResp m nonce (some t) chkNow envs) =
            .ok (wpaFtRrbSeqFlush envs (answered m t chkNow w.s)) := by
          show Except.ok (if nonceFound nonce t w.s = true then _ else _) = _
          rw [if_pos hfound]
          rfl
        unfold seqWindowStep at hs
        rw [hstep] at hs
        by_cases hok : wpaFtRrbSeqChk w.s m true chkNow = .ok
        · rw [if_pos hok] at hresp
          have hsame : startsAgain w.s (.seqResp m nonce (some t) chkNow envs) = none :=
            if_neg fun hboth => hboth.2 hok
          rw [hsame] at hs
          cases hs
          exact hresp
        · rw [if_neg hok] at hresp
          have hagain : startsAgain w.s (.seqResp m nonce (some t) chkNow envs) = some (m, t) :=
            if_pos ⟨hfound, hok⟩
          rw [hagain] at hs
          cases hs
          exact hresp
      · have hstep : seqStep w.s (.seqResp m nonce (some t) chkNow envs) = .ok w.s := by
          show Except.ok (if nonceFound nonce t w.s = true then _ else _) = _
          rw [if_neg hfound]
        have hsame : startsAgain w.s (.seqResp m nonce (some t) chkNow envs) = none :=
          if_neg fun hboth => hfound hboth.1
        unfold seqWindowStep at hs
        rw [hstep, hsame] at hs
        cases hs
        exact h

/-- **The window is open** where the base is the oldest number. -/
theorem SeqWindow.Inv.windowOpen {w : SeqWindow} (h : w.Inv) : WindowOpen w := by
  intro m noDefer now hm hts
  obtain ⟨r, hr, hlarger⟩ := hm.larger
  have hfresh : m.seq ∉ w.s.last := fun hin => hm.fresh (h.retained _ hin)
  have hne : w.s.last ≠ [] := by
    intro hempty
    have hin := h.all (by rw [hempty]; decide) r hr
    rw [hempty] at hin
    cases hin
  obtain ⟨b, rest, hl⟩ := exists_cons_of_ne_nil hne
  have hoffset : w.s.offset = b := offset_eq_head h.offsetidx hl
  have hbase : w.s.offset ∈ w.s.last := by
    rw [hoffset, hl]
    exact mem_cons_self
  rcases hm.near _ (h.retained _ hbase) with hnew | hold
  · exact chk_of_newer hne hm.dom hts hnew hfresh
  -- older than the base, the message is older than every number that is retained
  exfalso
  have hnone : ∀ x ∈ w.s.last, ¬ SeqNewer m.seq x := by
    intro x hx hnew
    exact hnew.1 (SeqNewer.no_cycle hnew.2 (h.oldest x hx) hold.2)
  by_cases hroom : w.s.last.length < ftRemoteSeqBacklog
  · exact hnone r (h.all hroom r hr) hlarger
  · have hsub : w.s.last ⊆ w.recorded.filter fun r => SeqNewer r m.seq := by
      intro x hx
      apply mem_filter.mpr
      refine ⟨h.retained x hx, decide_eq_true ?_⟩
      exact (hm.near x (h.retained x hx)).resolve_left (hnone x hx)
    have hle := (subperm_of_subset h.nodup hsub).length_le
    have hfew := hm.few
    have hbacklog : ftRemoteSeqBacklog = 16 := rfl
    omega

/-- In every run in which a number recorded in a full list is older than those that stay, the base is the
oldest number that is retained and the window is open. -/
theorem ft_rrb_window (evs : List SeqEvent) (w : SeqWindow)
    (h : Run.Reach seqWindowStep KeepsOldest {} evs w) : BaseOldest w.s ∧ WindowOpen w := by
  have hinv : w.Inv := by
    refine h.invariant ?_ fun w ev w' hinv hc hs => hinv.step hc hs
    have hnone : ∀ x ∈ ({} : SeqWindow).s.last, x ∈ recordedSince 0 [] ({} : SeqWindow).s := by
      intro x hx
      cases hx
    exact ⟨rfl, Nat.zero_le _, Nat.le_refl _, Nat.zero_le _, .nil, (fun x hx => by cases hx), hnone,
      fun _ r hr => by cases hr⟩
  exact ⟨hinv.oldest, hinv.windowOpen⟩

def smallOvertaken (n : Nat) : List SeqEvent :=
  smallSeqStart ++ ((List.range n).filter (· ≠ 8)).map fun i =>
    .message (smallSeqMsg (UInt32.ofNat (i + 2))) false (smallSeqEnv [])

theorem ft_rrb_window_small :
    ∃ w, Run.Reach seqWindowStep KeepsOldest {} (smallOvertaken 12) w ∧ w.s.last.length = 14 ∧
      BaseOldest w.s ∧ WindowOpen w := by
  obtain ⟨w, hw, hp⟩ := Run.reach_of_runWhile_any seqWindowStep KeepsOldest {} (smallOvertaken 12)
    (fun w => w.s.last.length = 14) (by decide +kernel)
  exact ⟨w, hw, of_decide_eq_true hp, ft_rrb_window _ w hw⟩

/-- The numbers up to 17 have come, and 10 is late. The list was full when 16 was recorded, and 17 is the base:
10 is dropped, with no more than seven of the recorded numbers larger. -/
theorem ft_rrb_window_closes :
    ∃ w, Run.Reach seqWindowStep Run.always {} (smallOvertaken 16) w ∧ ¬ BaseOldest w.s ∧ ¬ WindowOpen w := by
  obtain ⟨w, hw, hp⟩ := Run.reach_of_runWhile_any seqWindowStep Run.always {} (smallOvertaken 16)
    (fun w => ¬ BaseOldest w.s ∧ InWindow w (smallSeqMsg 10) ∧
      ¬ (some ⟨100, 0⟩ : Option Reltime).any (tsOutOfWindow w.s (smallSeqMsg 10)) = true ∧
      wpaFtRrbSeqChk w.s (smallSeqMsg 10) false (some ⟨100, 0⟩) ≠ .ok) (by decide +kernel)
  obtain ⟨hbase, hin, hts, hdropped⟩ := of_decide_eq_true hp
  exact ⟨w, hw, hbase, fun hopen => hdropped (hopen _ _ _ hin hts)⟩

end Hostap
