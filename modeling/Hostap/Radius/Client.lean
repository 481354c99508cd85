import Hostap.Lib.Cursor
import Hostap.Lib.Octets
import Hostap.Lib.Run
import Mathlib.Data.List.Nodup

/-!
# Pending messages of the RADIUS client

`src/radius/radius_client.c` keeps the requests that were sent and not answered in the list `msgs`,
newest first, with their number in `num_msgs`. `radius_client_timer()` goes through the list and sends
what is due again. It does so with two pointers, `entry` and `prev`, and goes on from them after a
retransmission; whether the retransmission has taken something out of the list, so that the loop has
to start again, it sees from `num_msgs`.

The loop is embedded iteration by iteration: `RadiusClient.pass` holds its local variables, and
`radiusClientTimerStep` is one iteration. Entries are told apart by the address they were allocated at
(`ptr`, never used twice here), so that a pointer to an entry that is gone can be seen, and
`RadiusFault.usesFreed` is the end of a run that follows one. The handlers that
`radius_client_receive()` calls come after the request is out of the list; what they send is the next
event here. Times and the results of system calls come with the events.

`radius_client_get_id()` takes pending messages with the identifier it hands out off the list and
leaves `num_msgs` as it is. That is the end of the count, and of what the timer relies on; `FreshId`
leaves out the steps that do so.
-/

namespace Hostap

open Octets List

/-! ## State -/

/-- `RadiusType`. -/
inductive RadiusType
  | auth
  | acct
  | acctInterim
  deriving DecidableEq

/-- `struct radius_msg_list`, with the identifier of the message and whether it has an
`Acct-Delay-Time` of four octets. -/
structure RadiusMsgList where
  ptr : Nat
  addr : Bytes
  identifier : UInt8
  acctDelayTime : Bool
  msgType : RadiusType
  firstTry : Int
  nextTry : Int
  attempts : Nat
  nextWait : Nat
  deriving DecidableEq

/-- `struct hostapd_radius_servers`: the shared secrets of the servers. -/
structure RadiusServers where
  authServers : List (Option Bytes)
  acctServers : List (Option Bytes)

/-- The local variables of `radius_client_timer()`. -/
structure TimerPass where
  now : Int
  entry : Option Nat
  prev : Option Nat := none
  authFailover : Bool := false
  acctFailover : Bool := false
  deriving DecidableEq

/-- `struct radius_client_data`. A socket is there or not, and the servers in use are indices.
`issued` is the last identifier handed out to a caller that has not sent its message yet. -/
structure RadiusClient where
  msgs : List RadiusMsgList := []
  numMsgs : Nat := 0
  nextRadiusIdentifier : UInt8 := 0
  authSock : Bool := false
  acctSock : Bool := false
  authServer : Nat := 0
  acctServer : Nat := 0
  nextPtr : Nat := 0
  issued : Option UInt8 := none
  pass : Option TimerPass := none

/-- What `radius_client_send()` and an iteration of the timer get from the system: whether sockets can
be opened, whether a failover connects, whether `send()` works, whether its error is one after which
sockets are opened again, whether that works, and whether an entry can be added to the list. -/
structure RadiusEnv where
  initOk : Bool := true
  failoverOk : Bool := true
  acctFailoverOk : Bool := true
  sendOk : Bool := true
  reconnect : Bool := false
  reconnectOk : Bool := true
  alloc : Bool := true

/-- `RADIUS_CLIENT_FIRST_WAIT`. -/
def radiusClientFirstWait : Nat := 3

/-- `RADIUS_CLIENT_MAX_WAIT`. -/
def radiusClientMaxWait : Nat := 120

/-- `RADIUS_CLIENT_MAX_RETRIES`. -/
def radiusClientMaxRetries : Nat := 10

/-- `RADIUS_CLIENT_MAX_ENTRIES`. -/
def radiusClientMaxEntries : Nat := 30

/-- `RADIUS_CLIENT_NUM_FAILOVER`. -/
def radiusClientNumFailover : Nat := 4

/-! ## Access -/

def RadiusClient.find (s : RadiusClient) (ptr : Nat) : Option RadiusMsgList :=
  s.msgs.find? fun m => m.ptr = ptr

def RadiusClient.update (s : RadiusClient) (ptr : Nat) (f : RadiusMsgList → RadiusMsgList) :
    RadiusClient :=
  { s with msgs := s.msgs.map fun m => if m.ptr = ptr then f m else m }

def RadiusClient.sock (s : RadiusClient) (auth : Bool) : Bool := if auth then s.authSock else s.acctSock

def RadiusClient.setSock (s : RadiusClient) (auth ok : Bool) : RadiusClient :=
  if auth then { s with authSock := ok } else { s with acctSock := ok }

def RadiusClient.server (s : RadiusClient) (auth : Bool) : Nat :=
  if auth then s.authServer else s.acctServer

def RadiusClient.setServer (s : RadiusClient) (auth : Bool) (i : Nat) : RadiusClient :=
  if auth then { s with authServer := i } else { s with acctServer := i }

def RadiusServers.servers (conf : RadiusServers) (auth : Bool) : List (Option Bytes) :=
  if auth then conf.authServers else conf.acctServers

/-! ## Removal of messages -/

/-- A loop that takes out the messages that pass a test and counts down for each. -/
def RadiusClient.remove (s : RadiusClient) (p : RadiusMsgList → Bool) : RadiusClient :=
  { s with
    msgs := s.msgs.filter fun m => !p m
    numMsgs := s.numMsgs - s.msgs.countP p }

/-- `radius_client_flush()`. -/
def radiusClientFlush (onlyAuth : Bool) (s : RadiusClient) : RadiusClient :=
  s.remove fun m => !onlyAuth || m.msgType = .auth

/-- `radius_client_flush_auth()`. -/
def radiusClientFlushAuth (addr : Bytes) (s : RadiusClient) : RadiusClient :=
  s.remove fun m => m.msgType = .auth && m.addr = addr

/-- `radius_client_get_id()`. -/
def radiusClientGetId (s : RadiusClient) : UInt8 × RadiusClient :=
  (s.nextRadiusIdentifier,
    { s with
      nextRadiusIdentifier := s.nextRadiusIdentifier + 1
      msgs := s.msgs.filter fun m => m.identifier ≠ s.nextRadiusIdentifier })

/-! ## Servers -/

/-- `radius_client_init_auth()` and `radius_client_init_acct()`. Without an old server,
`radius_change_server()` leaves the messages alone. -/
def radiusClientInit (auth ok : Bool) (s : RadiusClient) : RadiusClient := s.setSock auth ok

def RadiusMsgList.resetRetry (auth : Bool) (m : RadiusMsgList) : RadiusMsgList :=
  if (auth && m.msgType ≠ .auth) || (!auth && m.msgType ≠ .acct) then
    m
  else
    { m with
      nextTry := m.firstTry + radiusClientFirstWait
      attempts := 0
      nextWait := radiusClientFirstWait * 2 }

/-- `radius_change_server()`, from the server `oserv` to `nserv`. Of `radius_client_update_acct_msgs()`
there is nothing to be seen here: it writes authenticators. -/
def radiusChangeServer (conf : RadiusServers) (auth : Bool) (nserv oserv : Nat) (ok : Bool)
    (s : RadiusClient) : RadiusClient :=
  let secret (i : Nat) := ((conf.servers auth).getD i none).getD []
  let s := if auth ∧ (nserv = oserv ∨ secret nserv ≠ secret oserv) then radiusClientFlush true s else s
  let s := if nserv = oserv then s else { s with msgs := s.msgs.map (·.resetRetry auth) }
  if ok then s.setSock auth true else s

def radiusClientFailover (conf : RadiusServers) (auth ok : Bool) (s : RadiusClient) : RadiusClient :=
  let next := if s.server auth + 1 < (conf.servers auth).length then s.server auth + 1 else 0
  radiusChangeServer conf auth next (s.server auth) ok (s.setServer auth next)

/-- `radius_client_auth_failover()`. -/
def radiusClientAuthFailover (conf : RadiusServers) (ok : Bool) (s : RadiusClient) : RadiusClient :=
  radiusClientFailover conf true ok s

/-- `radius_client_acct_failover()`. -/
def radiusClientAcctFailover (conf : RadiusServers) (ok : Bool) (s : RadiusClient) : RadiusClient :=
  radiusClientFailover conf false ok s

/-- `radius_retry_primary_timer()` for one kind of messages. If the first server cannot be connected
to, the old one is taken again. -/
def radiusRetryPrimary (conf : RadiusServers) (auth ok ok' : Bool) (s : RadiusClient) : RadiusClient :=
  if s.sock auth ∧ conf.servers auth ≠ [] ∧ s.server auth ≠ 0 then
    let oserv := s.server auth
    let s := radiusChangeServer conf auth 0 oserv ok (s.setServer auth 0)
    if ok then s else radiusChangeServer conf auth oserv oserv ok' (s.setServer auth oserv)
  else
    s

/-! ## Sending -/

/-- Why a run stops. -/
inductive RadiusFault
  /-- A pointer to an entry that is gone is followed. -/
  | usesFreed
  /-- The timer is in the middle of its loop, or not in it. -/
  | notNow
  /-- A message is to be sent and no identifier was obtained for it, or an identifier was obtained and
  another message is sent first. -/
  | identifier
  deriving DecidableEq

/-- `radius_client_list_add()`. -/
def radiusClientListAdd (alloc : Bool) (now : Int) (msgType : RadiusType) (acctDelayTime : Bool)
    (addr : Bytes) (identifier : UInt8) (s : RadiusClient) : RadiusClient :=
  if alloc then
    let entry : RadiusMsgList :=
      { ptr := s.nextPtr, addr, identifier, acctDelayTime, msgType
        firstTry := now
        nextTry := now + radiusClientFirstWait
        attempts := 1
        nextWait := radiusClientFirstWait * 2 }
    let s := { s with msgs := entry :: s.msgs, nextPtr := s.nextPtr + 1 }
    if radiusClientMaxEntries ≤ s.numMsgs then
      { s with msgs := if 1 < s.msgs.length then s.msgs.dropLast else s.msgs }
    else
      { s with numMsgs := s.numMsgs + 1 }
  else
    s

/-- `radius_client_handle_send_error()`: true if it returns a positive number. -/
def radiusClientHandleSendError (env : RadiusEnv) (auth : Bool) (s : RadiusClient) :
    Bool × RadiusClient :=
  if env.reconnect then (auth, radiusClientInit auth env.reconnectOk s) else (false, s)

/-- `radius_client_send()`. -/
def radiusClientSend (conf : RadiusServers) (env : RadiusEnv) (now : Int) (msgType : RadiusType)
    (acctDelayTime : Bool) (addr : Bytes) (identifier : UInt8) (s : RadiusClient) : RadiusClient :=
  let auth : Bool := msgType = .auth
  let s := if conf.servers auth ≠ [] ∧ ¬ s.sock auth then radiusClientInit auth env.initOk s else s
  if conf.servers auth = [] ∨ ¬ s.sock auth ∨ (conf.servers auth).getD (s.server auth) none = none then
    s
  else
    let s := if env.sendOk then s else (radiusClientHandleSendError env auth s).2
    radiusClientListAdd env.alloc now msgType acctDelayTime addr identifier s

/-- `radius_client_receive()` for a message with an identifier: the request is taken off the list. -/
def radiusClientReceive (auth : Bool) (identifier : UInt8) (s : RadiusClient) : RadiusClient :=
  let isReq (m : RadiusMsgList) : Bool := decide (m.msgType = .auth) = auth && m.identifier = identifier
  if s.msgs.any isReq then
    { s with msgs := s.msgs.eraseP isReq, numMsgs := s.numMsgs - 1 }
  else
    s

/-! ## Retransmission -/

/-- The start of `radius_client_retransmit()`: a socket is looked for, and the number of messages is
compared. -/
def retransmitSock (conf : RadiusServers) (env : RadiusEnv) (auth : Bool) (s : RadiusClient) :
    Bool × RadiusClient :=
  let s := if s.sock auth then s else radiusClientInit auth env.initOk s
  if ¬ s.sock auth ∧ 1 < (conf.servers auth).length then
    let s' := radiusClientFailover conf auth env.failoverOk s
    (s'.numMsgs ≠ s.numMsgs, s')
  else
    (false, s)

/-- The message gets a new identifier, since the contents change. -/
def retransmitNewId (ptr : Nat) (s : RadiusClient) : RadiusClient :=
  let r := radiusClientGetId s
  r.2.update ptr fun m => { m with identifier := r.1 }

/-- The end of `radius_client_retransmit()`. -/
def retransmitSend (env : RadiusEnv) (now : Int) (auth : Bool) (ptr : Nat) (s : RadiusClient) :
    Except RadiusFault (Bool × RadiusClient) :=
  match s.find ptr with
  | none => .error .usesFreed
  | some entry =>
    let s := s.update ptr fun m => { m with attempts := m.attempts + 1 }
    let r := if env.sendOk then (false, s) else radiusClientHandleSendError env auth s
    if r.1 then
      .ok (false, r.2)
    else
      .ok (radiusClientMaxRetries ≤ entry.attempts + 1,
        r.2.update ptr fun m =>
          { m with
            nextTry := now + m.nextWait
            nextWait := min (m.nextWait * 2) radiusClientMaxWait })

/-- `radius_client_retransmit()`: true if the entry is to be removed. -/
def radiusClientRetransmit (conf : RadiusServers) (env : RadiusEnv) (now : Int)
    (entry : RadiusMsgList) (s : RadiusClient) : Except RadiusFault (Bool × RadiusClient) :=
  let auth : Bool := entry.msgType = .auth
  let r := retransmitSock conf env auth s
  if r.1 then
    .ok (false, r.2)
  else if entry.msgType = .acctInterim then
    .ok (true, r.2)
  else if ¬ r.2.sock auth then
    .ok (true, r.2)
  else if entry.msgType = .acct ∧ entry.acctDelayTime then
    retransmitSend env now auth entry.ptr (retransmitNewId entry.ptr r.2)
  else
    retransmitSend env now auth entry.ptr r.2

def TimerPass.noteFailover (pass : TimerPass) (entry : RadiusMsgList) (s : RadiusClient) : TimerPass :=
  let auth : Bool := entry.msgType = .auth
  if radiusClientNumFailover < entry.attempts ∨ (¬ s.sock auth ∧ 0 < entry.attempts) then
    if auth then { pass with authFailover := true } else { pass with acctFailover := true }
  else
    pass

def radiusClientTimerEnd (conf : RadiusServers) (env : RadiusEnv) (pass : TimerPass) (s : RadiusClient) :
    RadiusClient :=
  let s := if pass.authFailover then radiusClientAuthFailover conf env.failoverOk s else s
  let s := if pass.acctFailover then radiusClientAcctFailover conf env.acctFailoverOk s else s
  { s with pass := none }

def timerGoOn (pass : TimerPass) (numMsgs ptr : Nat) : Bool × RadiusClient →
    Except RadiusFault RadiusClient
  | (true, s) =>
    match Cursor.unlink RadiusMsgList.ptr pass.prev ptr s.msgs with
    | none => .error .usesFreed
    | some msgs =>
      .ok { s with
        msgs := msgs
        numMsgs := s.numMsgs - 1
        pass := some { pass with entry := Cursor.next RadiusMsgList.ptr ptr s.msgs } }
  | (false, s) =>
    if s.numMsgs ≠ numMsgs then
      .ok { s with pass := some { pass with entry := s.msgs.head?.map (·.ptr), prev := none } }
    else
      match s.find ptr with
      | none => .error .usesFreed
      | some entry =>
        .ok { s with
          pass := some { pass.noteFailover entry s with
            entry := Cursor.next RadiusMsgList.ptr ptr s.msgs
            prev := some ptr } }

/-- One iteration of `radius_client_timer()`. -/
def radiusClientTimerStep (conf : RadiusServers) (env : RadiusEnv) (pass : TimerPass)
    (s : RadiusClient) : Except RadiusFault RadiusClient :=
  match pass.entry with
  | none => .ok (radiusClientTimerEnd conf env pass s)
  | some ptr =>
    match s.find ptr with
    | none => .error .usesFreed
    | some entry =>
      if entry.nextTry ≤ pass.now then
        match radiusClientRetransmit conf env pass.now entry s with
        | .error e => .error e
        | .ok r => timerGoOn pass s.numMsgs ptr r
      else
        timerGoOn pass s.numMsgs ptr (false, s)

/-- `radius_client_timer()` up to its loop. -/
def radiusClientTimer (now : Int) (s : RadiusClient) : RadiusClient :=
  match s.msgs with
  | [] => s
  | entry :: _ => { s with pass := some { now := now, entry := some entry.ptr } }

/-! ## Runs -/

/-- What happens to the client. -/
inductive RadiusEvent
  | getId
  | send (msgType : RadiusType) (acctDelayTime : Bool) (addr : Bytes) (now : Int) (env : RadiusEnv)
  | receive (auth : Bool) (identifier : UInt8)
  | flush (onlyAuth : Bool)
  | flushAuth (addr : Bytes)
  | retryPrimary (authOk authOk' acctOk acctOk' : Bool)
  | timer (now : Int)
  | timerStep (env : RadiusEnv)

/-- A step. Nothing else happens while the timer is in its loop, and an identifier that was obtained
is used for the next message that is sent. -/
def radiusStep (conf : RadiusServers) (s : RadiusClient) (ev : RadiusEvent) :
    Except RadiusFault RadiusClient :=
  match s.pass, ev with
  | some pass, .timerStep env => radiusClientTimerStep conf env pass s
  | some _, _ => .error .notNow
  | none, .timerStep _ => .error .notNow
  | none, .getId =>
    let r := radiusClientGetId s
    .ok { r.2 with issued := some r.1 }
  | none, .send msgType acctDelayTime addr now env =>
    match s.issued with
    | none => .error .identifier
    | some id =>
      .ok { radiusClientSend conf env now msgType acctDelayTime addr id s with issued := none }
  | none, .receive auth identifier => .ok (radiusClientReceive auth identifier s)
  | none, .flush onlyAuth => .ok (radiusClientFlush onlyAuth s)
  | none, .flushAuth addr => .ok (radiusClientFlushAuth addr s)
  | none, .retryPrimary authOk authOk' acctOk acctOk' =>
    .ok (radiusRetryPrimary conf false acctOk acctOk' (radiusRetryPrimary conf true authOk authOk' s))
  | none, .timer now => if s.issued = none then .ok (radiusClientTimer now s) else .error .identifier

/-! ## What the operations do to the list -/

def RadiusMsgList.key (m : RadiusMsgList) : Nat × UInt8 := (m.ptr, m.identifier)

/-- The count is right, identifiers and pointers are distinct, and an identifier that was obtained is
free. -/
structure ListInv (s : RadiusClient) : Prop where
  count : s.numMsgs = s.msgs.length
  limit : s.numMsgs ≤ radiusClientMaxEntries
  ids : (s.msgs.map (·.identifier)).Nodup
  issued : ∀ id, s.issued = some id → ∀ m ∈ s.msgs, m.identifier ≠ id
  ptrs : (s.msgs.map (·.ptr)).Nodup
  bound : ∀ m ∈ s.msgs, m.ptr < s.nextPtr

/-- Messages may have been taken out, each of them counted. -/
structure Thins (s s' : RadiusClient) : Prop where
  sub : List.Sublist (s'.msgs.map (·.key)) (s.msgs.map (·.key))
  count : s'.numMsgs + s.msgs.length = s.numMsgs + s'.msgs.length
  issued : s'.issued = s.issued
  nextPtr : s'.nextPtr = s.nextPtr
  pass : s'.pass = s.pass
  nextId : s'.nextRadiusIdentifier = s.nextRadiusIdentifier

section Ops

variable {conf : RadiusServers} {env : RadiusEnv} {s s' s₁ : RadiusClient} {auth ok : Bool} {ptr : Nat}
  {p : RadiusMsgList → Bool}

theorem map_ptr (l : List RadiusMsgList) : l.map (·.ptr) = (l.map (·.key)).map (·.1) := by
  rw [map_map]
  rfl

theorem map_identifier (l : List RadiusMsgList) :
    l.map (·.identifier) = (l.map (·.key)).map (·.2) := by
  rw [map_map]
  rfl

theorem Thins.refl (s : RadiusClient) : Thins s s := ⟨List.Sublist.refl _, rfl, rfl, rfl, rfl, rfl⟩

theorem Thins.trans (h : Thins s s₁) (h' : Thins s₁ s') : Thins s s' := by
  have hc := h.count
  have hc' := h'.count
  exact ⟨h'.sub.trans h.sub, by omega, h'.issued.trans h.issued, h'.nextPtr.trans h.nextPtr,
    h'.pass.trans h.pass, h'.nextId.trans h.nextId⟩

theorem ListInv.thins (h : ListInv s) (ht : Thins s s') : ListInv s' := by
  have hcount := h.count
  have hcount' := ht.count
  have hlen : s'.msgs.length ≤ s.msgs.length := by simpa using ht.sub.length_le
  have hlimit := h.limit
  have hmem : ∀ m ∈ s'.msgs, ∃ m' ∈ s.msgs, m'.key = m.key := fun m hm =>
    mem_map.1 (ht.sub.subset (mem_map_of_mem hm))
  refine ⟨by omega, by omega, ?_, ?_, ?_, ?_⟩
  · have hids := h.ids
    rw [map_identifier] at hids ⊢
    exact hids.sublist (ht.sub.map _)
  · intro id hid m hm heq
    obtain ⟨m', hm', hkey⟩ := hmem m hm
    have hid' : m'.identifier = m.identifier := congrArg Prod.snd hkey
    exact h.issued id (by rw [← ht.issued]; exact hid) m' hm' (hid'.trans heq)
  · have hptrs := h.ptrs
    rw [map_ptr] at hptrs ⊢
    exact hptrs.sublist (ht.sub.map _)
  · intro m hm
    obtain ⟨m', hm', hkey⟩ := hmem m hm
    have hptr : m'.ptr = m.ptr := congrArg Prod.fst hkey
    rw [← hptr, ht.nextPtr]
    exact h.bound m' hm'

theorem Thins.keys_of_count (ht : Thins s s') (hnum : s'.numMsgs = s.numMsgs) :
    s'.msgs.map (·.key) = s.msgs.map (·.key) := by
  have hcount := ht.count
  exact ht.sub.eq_of_length (by simp only [length_map]; omega)

theorem ListInv.thins_remove (h : ListInv s) (p : RadiusMsgList → Bool) : Thins s (s.remove p) := by
  refine ⟨filter_sublist.map _, ?_, rfl, rfl, rfl, rfl⟩
  have hcount := h.count
  have hlen := length_eq_countP_add_countP p (l := s.msgs)
  have hfilter : (s.msgs.filter fun m => !p m).length = s.msgs.countP fun m => !p m :=
    (countP_eq_length_filter).symm
  have hneg : (s.msgs.countP fun m => !p m) = s.msgs.countP fun m => decide ¬ p m = true := by
    apply countP_congr
    intro m _
    simp
  show s.numMsgs - s.msgs.countP p + s.msgs.length =
    s.numMsgs + (s.msgs.filter fun m => !p m).length
  omega

theorem thins_map {f : RadiusMsgList → RadiusMsgList} (hf : ∀ m, (f m).key = m.key) :
    Thins s { s with msgs := s.msgs.map f } := by
  refine ⟨?_, by simp, rfl, rfl, rfl, rfl⟩
  have hkey : ((s.msgs.map f).map (·.key)) = s.msgs.map (·.key) := by
    rw [map_map]
    exact map_congr_left fun m _ => hf m
  rw [hkey]

theorem thins_update {f : RadiusMsgList → RadiusMsgList} (hf : ∀ m, (f m).key = m.key) :
    Thins s (s.update ptr f) := by
  apply thins_map
  intro m
  split
  · exact hf m
  · rfl

theorem thins_setSock : Thins s (s.setSock auth ok) := by
  unfold RadiusClient.setSock
  split
  · exact ⟨List.Sublist.refl _, rfl, rfl, rfl, rfl, rfl⟩
  · exact ⟨List.Sublist.refl _, rfl, rfl, rfl, rfl, rfl⟩

theorem thins_setServer (s : RadiusClient) (auth : Bool) (i : Nat) : Thins s (s.setServer auth i) := by
  unfold RadiusClient.setServer
  split
  · exact ⟨List.Sublist.refl _, rfl, rfl, rfl, rfl, rfl⟩
  · exact ⟨List.Sublist.refl _, rfl, rfl, rfl, rfl, rfl⟩

theorem RadiusMsgList.resetRetry_key (m : RadiusMsgList) : (m.resetRetry auth).key = m.key := by
  unfold RadiusMsgList.resetRetry
  split <;> rfl

theorem ListInv.thins_changeServer (h : ListInv s) (nserv oserv : Nat) :
    Thins s (radiusChangeServer conf auth nserv oserv ok s) := by
  -- the messages are flushed, their retry counters are reset, the socket is taken
  have h₁ : ∀ (c : Prop) [Decidable c], Thins s (if c then radiusClientFlush true s else s) := by
    intro c _
    split
    · exact h.thins_remove _
    · exact .refl s
  have h₂ : ∀ s₁ : RadiusClient, Thins s₁ (if nserv = oserv then s₁ else
      { s₁ with msgs := s₁.msgs.map (·.resetRetry auth) }) := by
    intro s₁
    split
    · exact .refl s₁
    · exact thins_map fun m => m.resetRetry_key
  unfold radiusChangeServer
  simp only
  split
  · exact ((h₁ _).trans (h₂ _)).trans thins_setSock
  · exact (h₁ _).trans (h₂ _)

theorem ListInv.thins_failover (h : ListInv s) : Thins s (radiusClientFailover conf auth ok s) := by
  unfold radiusClientFailover
  have h₁ : ∀ i, Thins s (s.setServer auth i) := fun i => thins_setServer s auth i
  exact (h₁ _).trans ((h.thins (h₁ _)).thins_changeServer _ _)

theorem ListInv.thins_retryPrimary (h : ListInv s) (ok' : Bool) :
    Thins s (radiusRetryPrimary conf auth ok ok' s) := by
  unfold radiusRetryPrimary
  split
  · simp only
    have h₁ : Thins s (s.setServer auth 0) := thins_setServer s auth 0
    have h₂ : Thins s (radiusChangeServer conf auth 0 (s.server auth) ok (s.setServer auth 0)) :=
      h₁.trans ((h.thins h₁).thins_changeServer _ _)
    split
    · exact h₂
    · have h₃ := h₂.trans (thins_setServer _ auth (s.server auth))
      exact h₃.trans ((h.thins h₃).thins_changeServer _ _)
  · exact .refl s

theorem ListInv.thins_receive (h : ListInv s) (identifier : UInt8) :
    Thins s (radiusClientReceive auth identifier s) := by
  unfold radiusClientReceive
  simp only
  split
  · rename_i hany
    obtain ⟨m, hm, hreq⟩ := any_eq_true.1 hany
    have hpos : 0 < s.msgs.length := length_pos_of_mem hm
    have hcount := h.count
    refine ⟨eraseP_sublist.map _, ?_, rfl, rfl, rfl, rfl⟩
    show s.numMsgs - 1 + s.msgs.length = s.numMsgs + (s.msgs.eraseP _).length
    rw [length_eraseP_of_mem hm hreq]
    omega
  · exact .refl s

theorem ListInv.add (h : ListInv s) {id : UInt8} (hid : ∀ m ∈ s.msgs, m.identifier ≠ id) (now : Int)
    (msgType : RadiusType) (acctDelayTime : Bool) (addr : Bytes) :
    ListInv { radiusClientListAdd ok now msgType acctDelayTime addr id s with issued := none } := by
  unfold radiusClientListAdd
  split
  · simp only
    generalize hentry : RadiusMsgList.mk s.nextPtr addr id acctDelayTime msgType now _ _ _ = entry
    have hptr : entry.ptr = s.nextPtr := by rw [← hentry]
    have hident : entry.identifier = id := by rw [← hentry]
    have hids : ((entry :: s.msgs).map (·.identifier)).Nodup := by
      rw [map_cons, nodup_cons, hident]
      refine ⟨fun hmem => ?_, h.ids⟩
      obtain ⟨m, hm, heq⟩ := mem_map.1 hmem
      exact hid m hm heq
    have hptrs : ((entry :: s.msgs).map (·.ptr)).Nodup := by
      rw [map_cons, nodup_cons, hptr]
      refine ⟨fun hmem => ?_, h.ptrs⟩
      obtain ⟨m, hm, heq⟩ := mem_map.1 hmem
      have := h.bound m hm
      omega
    have hbound : ∀ m ∈ entry :: s.msgs, m.ptr < s.nextPtr + 1 := by
      intro m hm
      rcases mem_cons.1 hm with rfl | hm
      · omega
      · have := h.bound m hm
        omega
    have hcount := h.count
    have hlimit := h.limit
    split
    · rename_i hfull
      -- the list is full: the last of its messages goes
      have hlen : 1 < (entry :: s.msgs).length := by
        simp only [length_cons]
        unfold radiusClientMaxEntries at hfull
        omega
      rw [if_pos hlen]
      have hsub : List.Sublist (entry :: s.msgs).dropLast (entry :: s.msgs) := dropLast_sublist _
      refine ⟨?_, hlimit, hids.sublist (hsub.map _), (fun _ hnone => nomatch hnone),
        hptrs.sublist (hsub.map _), fun m hm => hbound m (hsub.subset hm)⟩
      simp only [length_dropLast, length_cons]
      omega
    · rename_i hroom
      refine ⟨?_, ?_, hids, (fun _ hnone => nomatch hnone), hptrs, hbound⟩
      · simp only [length_cons]
        omega
      · show s.numMsgs + 1 ≤ radiusClientMaxEntries
        omega
  · exact ⟨h.count, h.limit, h.ids, (fun _ hnone => nomatch hnone), h.ptrs, h.bound⟩

theorem thins_handleSendError (env : RadiusEnv) (auth : Bool) (s : RadiusClient) :
    Thins s (radiusClientHandleSendError env auth s).2 := by
  unfold radiusClientHandleSendError
  split
  · exact thins_setSock
  · exact .refl s

theorem ListInv.send (h : ListInv s) {id : UInt8} (hid : s.issued = some id) (now : Int)
    (msgType : RadiusType) (acctDelayTime : Bool) (addr : Bytes) :
    ListInv { radiusClientSend conf env now msgType acctDelayTime addr id s with issued := none } := by
  have hdone : ∀ s₁, Thins s s₁ → ListInv { s₁ with issued := none } := fun s₁ ht =>
    ⟨(h.thins ht).count, (h.thins ht).limit, (h.thins ht).ids, (fun _ hnone => nomatch hnone),
      (h.thins ht).ptrs, (h.thins ht).bound⟩
  have hadd : ∀ s₁, Thins s s₁ → ListInv
      { radiusClientListAdd env.alloc now msgType acctDelayTime addr id s₁ with issued := none } :=
    fun s₁ ht => (h.thins ht).add ((h.thins ht).issued id (ht.issued.trans hid)) now msgType
      acctDelayTime addr
  have hinit : ∀ (c : Prop) [Decidable c],
      Thins s (if c then radiusClientInit (decide (msgType = .auth)) env.initOk s else s) := by
    intro c _
    split
    · exact thins_setSock
    · exact .refl s
  have hrest : ∀ (c : Prop) [Decidable c] (s₁ : RadiusClient), Thins s s₁ → ListInv
      { (if c then s₁ else radiusClientListAdd env.alloc now msgType acctDelayTime addr id
          (if env.sendOk then s₁ else
            (radiusClientHandleSendError env (decide (msgType = .auth)) s₁).2)) with issued := none } := by
    intro c _ s₁ ht
    split
    · exact hdone s₁ ht
    · split
      · exact hadd s₁ ht
      · exact hadd _ (ht.trans (thins_handleSendError _ _ _))
  exact hrest _ _ (hinit _)

theorem getId_of_free (hfree : ∀ m ∈ s.msgs, m.identifier ≠ s.nextRadiusIdentifier) :
    radiusClientGetId s = (s.nextRadiusIdentifier,
      { s with nextRadiusIdentifier := s.nextRadiusIdentifier + 1 }) := by
  unfold radiusClientGetId
  rw [filter_eq_self.2 fun m hm => decide_eq_true (hfree m hm)]

theorem pass_send (conf : RadiusServers) (env : RadiusEnv) (now : Int) (msgType : RadiusType)
    (acctDelayTime : Bool) (addr : Bytes) (id : UInt8) (s : RadiusClient) :
    (radiusClientSend conf env now msgType acctDelayTime addr id s).pass = s.pass := by
  have hsock : ∀ (s₁ : RadiusClient) auth ok, (s₁.setSock auth ok).pass = s₁.pass :=
    fun s₁ auth ok => thins_setSock.pass
  have hadd : ∀ s₁, (radiusClientListAdd env.alloc now msgType acctDelayTime addr id s₁).pass =
      s₁.pass := by
    intro s₁
    unfold radiusClientListAdd
    split
    · simp only
      split <;> rfl
    · rfl
  unfold radiusClientSend
  simp only [radiusClientInit]
  split <;> split <;> simp only [hadd, hsock, apply_ite RadiusClient.pass,
    (thins_handleSendError _ _ _).pass, ite_self]

end Ops

/-! ## Retransmissions -/

/-- A retransmission leaves the list in order. If the count is the same so are the pointers in the
list, and the count is the same if the message is to be removed. -/
structure Retransmitted (s : RadiusClient) (r : Bool × RadiusClient) : Prop where
  inv : ListInv r.2
  pass : r.2.pass = s.pass
  issued : r.2.issued = s.issued
  ptrs : r.2.numMsgs = s.numMsgs → r.2.msgs.map (·.ptr) = s.msgs.map (·.ptr)
  removes : r.1 = true → r.2.numMsgs = s.numMsgs

section Retransmit

variable {conf : RadiusServers} {env : RadiusEnv} {s s' s₁ : RadiusClient} {auth : Bool} {ptr : Nat}
  {now : Int} {entry : RadiusMsgList}

theorem ListInv.retransmitted (h : ListInv s) (ht : Thins s s') {b : Bool}
    (hb : b = true → s'.numMsgs = s.numMsgs) : Retransmitted s (b, s') := by
  refine ⟨h.thins ht, ht.pass, ht.issued, fun hnum => ?_, hb⟩
  rw [map_ptr, map_ptr, ht.keys_of_count hnum]

theorem ListInv.thins_retransmitSock (h : ListInv s) (conf : RadiusServers) (env : RadiusEnv)
    (auth : Bool) :
    Thins s (retransmitSock conf env auth s).2 ∧
      ((retransmitSock conf env auth s).1 = false →
        (retransmitSock conf env auth s).2.numMsgs = s.numMsgs) := by
  have h₁ : Thins s (if s.sock auth then s else radiusClientInit auth env.initOk s) ∧
      (if s.sock auth then s else radiusClientInit auth env.initOk s).numMsgs = s.numMsgs := by
    split
    · exact ⟨.refl s, rfl⟩
    · refine ⟨thins_setSock, ?_⟩
      unfold radiusClientInit RadiusClient.setSock
      split <;> rfl
  unfold retransmitSock
  generalize (if s.sock auth then s else radiusClientInit auth env.initOk s) = s₁ at h₁
  simp only
  split
  · refine ⟨h₁.1.trans (h.thins h₁.1).thins_failover, fun hsame => ?_⟩
    have := of_decide_eq_false hsame
    rw [not_not.1 this]
    exact h₁.2
  · exact ⟨h₁.1, fun _ => h₁.2⟩

theorem find_mem (h : s.find ptr = some entry) : entry ∈ s.msgs ∧ entry.ptr = ptr :=
  ⟨mem_of_find?_eq_some h, by simpa using find?_some h⟩

theorem find_of_ptrs (hptrs : s'.msgs.map (·.ptr) = s.msgs.map (·.ptr)) (h : s.find ptr = some entry) :
    ∃ entry', s'.find ptr = some entry' := by
  obtain ⟨hmem, rfl⟩ := find_mem h
  have : entry.ptr ∈ s'.msgs.map (·.ptr) := by
    rw [hptrs]
    exact mem_map_of_mem hmem
  obtain ⟨m, hm, hptr⟩ := mem_map.1 this
  have hsome : (s'.find entry.ptr).isSome := find?_isSome.2 ⟨m, hm, decide_eq_true hptr⟩
  exact Option.isSome_iff_exists.1 hsome

theorem ListInv.newId (h : ListInv s) (ptr : Nat) (hissued : s.issued = none)
    (hfree : ∀ m ∈ s.msgs, m.identifier ≠ s.nextRadiusIdentifier) :
    Retransmitted s (false, retransmitNewId ptr s) ∧
      (retransmitNewId ptr s).numMsgs = s.numMsgs := by
  unfold retransmitNewId
  rw [getId_of_free hfree]
  have hptrs : ((s.msgs.map fun m => if m.ptr = ptr then
      { m with identifier := s.nextRadiusIdentifier } else m).map (·.ptr)) = s.msgs.map (·.ptr) := by
    rw [map_map]
    refine map_congr_left fun m _ => ?_
    simp only [Function.comp]
    split <;> rfl
  refine ⟨⟨⟨?_, h.limit, ?_, ?_, ?_, ?_⟩, rfl, rfl, fun _ => hptrs, nofun⟩, rfl⟩
  · show s.numMsgs = (s.msgs.map _).length
    rw [length_map]
    exact h.count
  · -- one identifier is replaced by a free one, and only one since the pointers are distinct
    show ((s.msgs.map _).map _).Nodup
    rw [map_map]
    have hne : s.msgs.Pairwise fun a b => a.ptr ≠ b.ptr := pairwise_map.1 h.ptrs
    have hne' : s.msgs.Pairwise fun a b => a.identifier ≠ b.identifier := pairwise_map.1 h.ids
    refine pairwise_map.2 ((hne.and hne').imp_of_mem ?_)
    intro a b ha hb ⟨hptr, hid⟩
    simp only [Function.comp]
    split
    · rename_i ha'
      rw [if_neg fun hb' => hptr (ha'.trans hb'.symm)]
      exact fun heq => hfree b hb heq.symm
    · split
      · exact hfree a ha
      · exact hid
  · intro id hid
    have : s.issued = some id := hid
    rw [hissued] at this
    cases this
  · show ((s.msgs.map _).map _).Nodup
    rw [hptrs]
    exact h.ptrs
  · intro m hm
    have hmem : m.ptr ∈ s.msgs.map (·.ptr) := by
      rw [← hptrs]
      exact mem_map_of_mem hm
    obtain ⟨m', hm', hptr⟩ := mem_map.1 hmem
    rw [← hptr]
    exact h.bound m' hm'

theorem thins_retransmitSend (hfind : s.find ptr = some entry) (env : RadiusEnv)
    (now : Int) (auth : Bool) :
    ∃ r, retransmitSend env now auth ptr s = .ok r ∧ Thins s r.2 ∧ r.2.numMsgs = s.numMsgs := by
  unfold retransmitSend
  rw [hfind]
  simp only
  generalize hs₁ : s.update ptr (fun m => { m with attempts := m.attempts + 1 }) = s₁
  have h₁ : Thins s s₁ ∧ s₁.numMsgs = s.numMsgs := by
    rw [← hs₁]
    exact ⟨thins_update fun _ => rfl, rfl⟩
  generalize hr : (if env.sendOk then (false, s₁) else radiusClientHandleSendError env auth s₁) = r
  have h₂ : Thins s₁ r.2 ∧ r.2.numMsgs = s₁.numMsgs := by
    rw [← hr]
    split
    · exact ⟨.refl s₁, rfl⟩
    · refine ⟨thins_handleSendError _ _ _, ?_⟩
      unfold radiusClientHandleSendError radiusClientInit RadiusClient.setSock
      split
      · split <;> rfl
      · rfl
  split
  · exact ⟨_, rfl, h₁.1.trans h₂.1, h₂.2.trans h₁.2⟩
  · exact ⟨_, rfl, (h₁.1.trans h₂.1).trans (thins_update fun _ => rfl), h₂.2.trans h₁.2⟩

theorem ListInv.retransmit (h : ListInv s) (now : Int) (hissued : s.issued = none)
    (hfind : s.find ptr = some entry) (hfree : entry.msgType = .acct → entry.acctDelayTime = true →
      (retransmitSock conf env false s).2.sock false = true →
      ∀ m ∈ s.msgs, m.identifier ≠ s.nextRadiusIdentifier) :
    ∃ r, radiusClientRetransmit conf env now entry s = .ok r ∧ Retransmitted s r := by
  obtain ⟨_, rfl⟩ := find_mem hfind
  unfold radiusClientRetransmit
  simp only
  obtain ⟨ht, hnum⟩ := h.thins_retransmitSock conf env (decide (entry.msgType = .auth))
  generalize hr : retransmitSock conf env (decide (entry.msgType = .auth)) s = r at ht hnum
  split
  · exact ⟨_, rfl, h.retransmitted ht nofun⟩
  · rename_i hsame
    have hnum' := hnum (by simpa using hsame)
    split
    · exact ⟨_, rfl, h.retransmitted ht fun _ => hnum'⟩
    · split
      · exact ⟨_, rfl, h.retransmitted ht fun _ => hnum'⟩
      · rename_i hsock
        have hkeys := ht.keys_of_count hnum'
        have hptrs : r.2.msgs.map (·.ptr) = s.msgs.map (·.ptr) := by rw [map_ptr, map_ptr, hkeys]
        split
        · rename_i hacct
          have hauth : decide (entry.msgType = .auth) = false := by rw [hacct.1]; rfl
          rw [hauth] at hr hsock
          have hfree' : ∀ m ∈ r.2.msgs, m.identifier ≠ r.2.nextRadiusIdentifier := by
            intro m hm heq
            have hmem : m.key ∈ s.msgs.map (·.key) := by
              rw [← hkeys]
              exact mem_map_of_mem hm
            obtain ⟨m', hm', hkey⟩ := mem_map.1 hmem
            have hid : m'.identifier = m.identifier := congrArg Prod.snd hkey
            refine hfree hacct.1 hacct.2 (by rw [hr]; simpa using hsock) m' hm' ?_
            rw [hid, heq, ht.nextId]
          obtain ⟨hnew, hnewNum⟩ := (h.thins ht).newId entry.ptr (ht.issued.trans hissued)
            hfree'
          have hptrs' := (hnew.ptrs hnewNum).trans hptrs
          obtain ⟨entry', hfind'⟩ := find_of_ptrs hptrs' hfind
          obtain ⟨r', hr', ht', hnum₁⟩ := thins_retransmitSend hfind' env now
            (decide (entry.msgType = .auth))
          refine ⟨r', hr', hnew.inv.thins ht', ?_, ?_, fun _ => ?_, fun _ => ?_⟩
          · exact (ht'.pass.trans hnew.pass).trans ht.pass
          · exact (ht'.issued.trans hnew.issued).trans ht.issued
          · rw [map_ptr, ht'.keys_of_count hnum₁, ← map_ptr]
            exact hptrs'
          · exact (hnum₁.trans hnewNum).trans hnum'
        · obtain ⟨entry', hfind'⟩ := find_of_ptrs hptrs hfind
          obtain ⟨r', hr', ht', hnum₁⟩ := thins_retransmitSend hfind' env now
            (decide (entry.msgType = .auth))
          exact ⟨r', hr', h.retransmitted (ht.trans ht') fun _ => hnum₁.trans hnum'⟩

end Retransmit

/-! ## Steps -/

/-- No pending message has the identifier that is handed out next. -/
def IdFree (s : RadiusClient) : Prop := ∀ m ∈ s.msgs, m.identifier ≠ s.nextRadiusIdentifier

instance (s : RadiusClient) : Decidable (IdFree s) := by
  unfold IdFree
  infer_instance

/-- The timer is at an accounting message that is due, has an `Acct-Delay-Time` and a socket to be
sent on. -/
def timerTakesId (conf : RadiusServers) (env : RadiusEnv) (s : RadiusClient) : Bool :=
  s.pass.any fun pass => pass.entry.any fun ptr => (s.find ptr).any fun entry =>
    entry.nextTry ≤ pass.now && entry.msgType = .acct && entry.acctDelayTime &&
      (retransmitSock conf env false s).2.acctSock

/-- The steps that hand out no identifier of a pending message. -/
def FreshId (conf : RadiusServers) (s : RadiusClient) : RadiusEvent → Prop
  | .getId => IdFree s
  | .timerStep env => timerTakesId conf env s = true → IdFree s
  | _ => True

instance (conf : RadiusServers) (s : RadiusClient) (ev : RadiusEvent) :
    Decidable (FreshId conf s ev) := by
  unfold FreshId
  split <;> infer_instance

/-- The list is in order, and so are the pointers of the timer. -/
structure ClientInv (s : RadiusClient) : Prop extends ListInv s where
  cursor : ∀ pass, s.pass = some pass → Cursor.At (·.ptr) s.msgs pass.prev pass.entry
  unissued : s.pass ≠ none → s.issued = none

section Steps

variable {conf : RadiusServers} {env : RadiusEnv} {s s' : RadiusClient} {pass : TimerPass} {ptr : Nat}
  {r : Bool × RadiusClient} {entry : RadiusMsgList}

theorem ClientInv.goOn (h : ClientInv s) (hpass : s.pass = some pass) (hentry : pass.entry = some ptr)
    (hr : Retransmitted s r) : ∃ s', timerGoOn pass s.numMsgs ptr r = .ok s' ∧ ClientInv s' := by
  have hat := h.cursor pass hpass
  rw [hentry] at hat
  have hissued : r.2.issued = none := hr.issued.trans (h.unissued (by rw [hpass]; simp))
  have hat' : r.2.numMsgs = s.numMsgs → Cursor.At (·.ptr) r.2.msgs pass.prev (some ptr) :=
    fun hnum => hat.congr (hr.ptrs hnum)
  obtain ⟨b, s₁⟩ := r
  cases b with
  | true =>
    -- the pointers are those of before, so that the entry can be taken out
    have hat₁ := hat' (hr.removes rfl)
    obtain ⟨l₁, x, l₂, hl, hx, hunlink, hnext⟩ := hat₁.unlink hr.inv.ptrs
    have hthins : Thins s₁ { s₁ with msgs := l₁ ++ l₂, numMsgs := s₁.numMsgs - 1 } := by
      have hl' : s₁.msgs = l₁ ++ x :: l₂ := hl
      have hcount : s₁.numMsgs = s₁.msgs.length := hr.inv.count
      refine ⟨?_, ?_, rfl, rfl, rfl, rfl⟩
      · rw [hl']
        exact (List.Sublist.append_left (sublist_cons_self x l₂) l₁).map _
      · simp only [hl', length_append, length_cons] at hcount ⊢
        omega
    have hinv := hr.inv.thins hthins
    unfold timerGoOn
    simp only [hunlink]
    refine ⟨_, rfl, ⟨hinv.count, hinv.limit, hinv.ids, hinv.issued, hinv.ptrs, hinv.bound⟩, ?_,
      fun _ => hissued⟩
    intro pass' hpass'
    cases hpass'
    exact hnext
  | false =>
    unfold timerGoOn
    have hinv := hr.inv
    simp only
    split
    · -- messages were taken out: back to the head of the list
      refine ⟨_, rfl, ⟨hinv.count, hinv.limit, hinv.ids, hinv.issued, hinv.ptrs, hinv.bound⟩, ?_,
        fun _ => hissued⟩
      intro pass' hpass'
      cases hpass'
      exact Cursor.At.start _
    · rename_i hnum
      have hat₁ := hat' (not_not.1 hnum)
      obtain ⟨m, hm, hptr⟩ := hat₁.mem
      have hfound : (s₁.find ptr).isSome := find?_isSome.2 ⟨m, hm, decide_eq_true hptr⟩
      obtain ⟨entry, hfind⟩ := Option.isSome_iff_exists.1 hfound
      rw [hfind]
      refine ⟨_, rfl, ⟨hinv.count, hinv.limit, hinv.ids, hinv.issued, hinv.ptrs, hinv.bound⟩, ?_,
        fun _ => hissued⟩
      intro pass' hpass'
      cases hpass'
      exact hat₁.next hinv.ptrs

theorem ListInv.timerEnd (h : ListInv s) : ClientInv (radiusClientTimerEnd conf env pass s) := by
  have h₁ : ∀ s₁ : RadiusClient, ListInv s₁ → ListInv
      (if pass.authFailover then radiusClientAuthFailover conf env.failoverOk s₁ else s₁) := by
    intro s₁ hs₁
    split
    · exact hs₁.thins hs₁.thins_failover
    · exact hs₁
  have h₂ : ∀ s₁ : RadiusClient, ListInv s₁ → ListInv
      (if pass.acctFailover then radiusClientAcctFailover conf env.acctFailoverOk s₁ else s₁) := by
    intro s₁ hs₁
    split
    · exact hs₁.thins hs₁.thins_failover
    · exact hs₁
  have hinv := h₂ _ (h₁ s h)
  exact ⟨⟨hinv.count, hinv.limit, hinv.ids, hinv.issued, hinv.ptrs, hinv.bound⟩,
    (fun _ hnone => nomatch hnone), fun hne => absurd rfl hne⟩

theorem ClientInv.timerStep (h : ClientInv s) (hpass : s.pass = some pass)
    (hfresh : timerTakesId conf env s = true → IdFree s) :
    ∃ s', radiusClientTimerStep conf env pass s = .ok s' ∧ ClientInv s' := by
  unfold radiusClientTimerStep
  split
  · exact ⟨_, rfl, h.toListInv.timerEnd⟩
  · rename_i ptr hentry
    have hat := h.cursor pass hpass
    rw [hentry] at hat
    obtain ⟨m, hm, hptr⟩ := hat.mem
    have hfound : (s.find ptr).isSome := find?_isSome.2 ⟨m, hm, decide_eq_true hptr⟩
    obtain ⟨entry, hfind⟩ := Option.isSome_iff_exists.1 hfound
    rw [hfind]
    simp only
    split
    · rename_i hdue
      have hfree : entry.msgType = .acct → entry.acctDelayTime = true →
          (retransmitSock conf env false s).2.sock false = true → IdFree s := by
        intro hacct hdelay hsock
        apply hfresh
        simp only [timerTakesId, hpass, hentry, hfind, Option.any_some, hdue, hacct, hdelay]
        simpa [RadiusClient.sock] using hsock
      obtain ⟨r, hr, hret⟩ := h.toListInv.retransmit pass.now (h.unissued (by rw [hpass]; simp))
        hfind hfree
      rw [hr]
      exact h.goOn hpass hentry hret
    · exact h.goOn hpass hentry (h.toListInv.retransmitted (.refl s) nofun)

theorem ListInv.clientInv (h : ListInv s) (hpass : s.pass = none) : ClientInv s :=
  ⟨h, (fun _ hsome => by rw [hpass] at hsome; cases hsome), fun hne => absurd hpass hne⟩

theorem ClientInv.getId (h : ClientInv s) (hpass : s.pass = none) (hfree : IdFree s) :
    ClientInv { (radiusClientGetId s).2 with issued := some (radiusClientGetId s).1 } := by
  rw [getId_of_free hfree]
  refine ListInv.clientInv ⟨h.count, h.limit, h.ids, ?_, h.ptrs, h.bound⟩ hpass
  intro id hid
  cases hid
  exact hfree

theorem ClientInv.timer (h : ClientInv s) (hissued : s.issued = none) (now : Int) :
    ClientInv (radiusClientTimer now s) := by
  unfold radiusClientTimer
  split
  · exact h
  · rename_i entry l hl
    refine ⟨⟨h.count, h.limit, h.ids, h.issued, h.ptrs, h.bound⟩, ?_, fun _ => hissued⟩
    intro pass hpass'
    cases hpass'
    exact ⟨[], s.msgs, rfl, rfl, by rw [hl]; rfl⟩

theorem ClientInv.step {ev : RadiusEvent} (h : ClientInv s) (hc : FreshId conf s ev)
    (hs : radiusStep conf s ev = .ok s') : ClientInv s' := by
  have hthins : ∀ s₁, s.pass = none → Thins s s₁ → ClientInv s₁ := fun s₁ hpass ht =>
    (h.toListInv.thins ht).clientInv (ht.pass.trans hpass)
  unfold radiusStep at hs
  split at hs
  · rename_i pass env hpass
    obtain ⟨s₁, hs₁, hinv⟩ := h.timerStep hpass hc
    rw [hs₁] at hs
    cases hs
    exact hinv
  · cases hs
  · cases hs
  · rename_i hpass
    cases hs
    exact h.getId hpass hc
  · rename_i msgType acctDelayTime addr now env hpass
    split at hs
    · cases hs
    · rename_i id hid
      cases hs
      refine (h.toListInv.send hid now msgType acctDelayTime addr).clientInv ?_
      exact (pass_send _ _ _ _ _ _ _ _).trans hpass
  · rename_i auth identifier hpass
    cases hs
    exact hthins _ hpass (h.toListInv.thins_receive identifier)
  · rename_i onlyAuth hpass
    cases hs
    exact hthins _ hpass (h.toListInv.thins_remove _)
  · rename_i addr hpass
    cases hs
    exact hthins _ hpass (h.toListInv.thins_remove _)
  · rename_i authOk authOk' acctOk acctOk' hpass
    cases hs
    have h₁ : Thins s (radiusRetryPrimary conf true authOk authOk' s) :=
      h.toListInv.thins_retryPrimary authOk'
    exact hthins _ hpass (h₁.trans ((h.toListInv.thins h₁).thins_retryPrimary acctOk'))
  · rename_i now hpass
    split at hs
    · rename_i hissued
      cases hs
      exact h.timer hissued now
    · cases hs

end Steps

theorem clientInv_of_reach {conf : RadiusServers} {authSock acctSock : Bool} {evs : List RadiusEvent}
    {s : RadiusClient} (h : Run.Reach (radiusStep conf) (FreshId conf)
      { authSock := authSock, acctSock := acctSock } evs s) : ClientInv s := by
  refine h.invariant ?_ fun s ev s' hinv hc hs => hinv.step hc hs
  exact ListInv.clientInv ⟨rfl, Nat.zero_le _, .nil, (fun _ hnone => nomatch hnone), .nil,
    (fun _ hm => nomatch hm)⟩ rfl

/-- In every run in which no identifier of a pending message is handed out, the messages are counted
and at most 30, their identifiers are distinct, and the timer goes on from entries of the list only,
so that no step follows a pointer to an entry that is gone. -/
theorem radius_pending_list_consistent (conf : RadiusServers) (authSock acctSock : Bool)
    (evs : List RadiusEvent) (s : RadiusClient)
    (h : Run.Reach (radiusStep conf) (FreshId conf)
      { authSock := authSock, acctSock := acctSock } evs s) :
    s.numMsgs = s.msgs.length ∧ s.numMsgs ≤ 30 ∧
    s.msgs.Pairwise (fun a b => a.identifier ≠ b.identifier) ∧
    (∀ pass, s.pass = some pass → ∀ ptr, pass.entry = some ptr ∨ pass.prev = some ptr →
      ∃ m ∈ s.msgs, m.ptr = ptr) ∧
    (∀ ev, FreshId conf s ev → radiusStep conf s ev ≠ .error .usesFreed) := by
  have hinv := clientInv_of_reach h
  refine ⟨hinv.count, hinv.limit, pairwise_map.1 hinv.ids, ?_, ?_⟩
  · intro pass hpass ptr hptr
    have hat := hinv.cursor pass hpass
    rcases hptr with hptr | hptr
    · rw [hptr] at hat
      exact hat.mem
    · rw [hptr] at hat
      exact hat.prev_mem
  · intro ev hfresh hfault
    unfold radiusStep at hfault
    split at hfault
    · rename_i pass env hpass
      obtain ⟨s₁, hs₁, _⟩ := hinv.timerStep hpass hfresh
      rw [hs₁] at hfault
      cases hfault
    all_goals first | cases hfault | (split at hfault <;> cases hfault)

def smallRadiusServers : RadiusServers where
  authServers := [some [1]]
  acctServers := [some [2]]

theorem radius_pending_list_consistent_small :
    ∃ s, Run.Reach (radiusStep smallRadiusServers) (FreshId smallRadiusServers)
        { authSock := true, acctSock := true }
        [.getId, .send .acct true [] 0 {}, .getId, .send .auth false [] 0 {}, .timer 10,
          .timerStep {}, .timerStep {}] s ∧
      s.pass ≠ none ∧ s.msgs.length = 2 ∧ s.numMsgs = 2 := by
  obtain ⟨s, hs, hp⟩ := Run.reach_of_runWhile_any (radiusStep smallRadiusServers)
    (FreshId smallRadiusServers) { authSock := true, acctSock := true }
    [.getId, .send .acct true [] 0 {}, .getId, .send .auth false [] 0 {}, .timer 10,
      .timerStep {}, .timerStep {}]
    (fun s => s.pass ≠ none && s.msgs.length = 2) (by decide +kernel)
  simp only [Bool.and_eq_true, decide_eq_true_eq] at hp
  obtain ⟨hcount, _⟩ := radius_pending_list_consistent smallRadiusServers true true _ s hs
  exact ⟨s, hs, hp.1, hp.2, hcount.trans hp.2⟩

/-- An accounting message stays without an answer while 255 requests after it are answered. -/
def wrapAroundRun : List RadiusEvent :=
  [.getId, .send .acct true [] 0 {}] ++ (List.range 255).flatMap fun i =>
    [.getId, .send .auth false [] 0 {}, .receive true (UInt8.ofNat (i + 1))]

/-- The next identifier is that of the accounting message. If it is handed out for a new message, the
accounting message is gone and still counted. If the accounting message itself is due before, its
retransmission frees it, and the timer goes on with it. -/
theorem reused_id_breaks_pending_list :
    (∃ s, Run.Reach (radiusStep smallRadiusServers) Run.always { authSock := true, acctSock := true }
        (wrapAroundRun ++ [.getId]) s ∧ s.numMsgs = 1 ∧ s.msgs = []) ∧
    (∃ s, Run.Reach (radiusStep smallRadiusServers) Run.always { authSock := true, acctSock := true }
        (wrapAroundRun ++ [.timer 10]) s ∧
      radiusStep smallRadiusServers s (.timerStep {}) = .error .usesFreed) := by
  constructor
  · obtain ⟨s, hs, hp⟩ := Run.reach_of_runWhile_any (radiusStep smallRadiusServers) Run.always
      { authSock := true, acctSock := true } (wrapAroundRun ++ [.getId])
      (fun s => s.numMsgs = 1 && s.msgs = []) (by decide +kernel)
    simp only [Bool.and_eq_true, decide_eq_true_eq] at hp
    exact ⟨s, hs, hp⟩
  · obtain ⟨s, hs, hp⟩ := Run.reach_of_runWhile_any (radiusStep smallRadiusServers) Run.always
      { authSock := true, acctSock := true } (wrapAroundRun ++ [.timer 10])
      (fun s => match radiusStep smallRadiusServers s (.timerStep {}) with
        | .error .usesFreed => true
        | _ => false) (by decide +kernel)
    refine ⟨s, hs, ?_⟩
    split at hp
    · rename_i hfault
      exact hfault
    · cases hp

end Hostap
