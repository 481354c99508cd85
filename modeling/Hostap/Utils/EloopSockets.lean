import Hostap.Lib.Buffer
import Hostap.Lib.Run
import Mathlib.Tactic.SplitIfs

/-!
# The socket tables of the event loop

`eloop_register_sock()` and `eloop_unregister_sock()` of `utils/eloop.c`, built for epoll. There is a table of
sockets for each type of event, and one more, `fd_table`, in which the socket of a descriptor is found. An
access that is not below `max_fd` stops with `OutOfBounds`.

What the system answers is an argument of each call: which allocations succeed, and whether `epoll_ctl()` does.
-/

namespace Hostap

namespace Eloop

open Buffer

/-- `eloop_event_type`. -/
inductive EventType where
  | read
  | write
  | exception
  deriving DecidableEq, Repr

/-- `struct eloop_sock`, with the addresses as numbers. Zeroed it is the entry of no socket. -/
structure EloopSock where
  sock : Nat := 0
  eloopData : Nat := 0
  userData : Nat := 0
  handler : Nat := 0
  deriving DecidableEq, Repr

/-- `struct eloop_sock_table`. -/
structure SockTable where
  table : List EloopSock := []
  changed : Bool := false
  deriving DecidableEq, Repr

def SockTable.count (t : SockTable) : Nat := t.table.length

/-- `struct eloop_data`, as far as sockets go. The entries of `fd_table` that were never stored are `none`. -/
structure EloopData where
  maxSock : Nat := 0
  count : Nat := 0
  maxFd : Nat := 0
  fdTable : List (Option EloopSock) := []
  epollMaxEventNum : Nat := 0
  readers : SockTable := {}
  writers : SockTable := {}
  exceptions : SockTable := {}
  deriving DecidableEq, Repr

/-- What the system answers to a call. -/
structure System where
  fdTable : Bool := true
  epollEvents : Bool := true
  table : Bool := true
  epollCtl : Bool := true
  deriving DecidableEq, Repr

/-- `eloop_get_sock_table()` -/
def eloopGetSockTable (e : EloopData) : EventType → SockTable
  | .read => e.readers
  | .write => e.writers
  | .exception => e.exceptions

def EloopData.setTable (e : EloopData) (type : EventType) (t : SockTable) : EloopData :=
  match type with
  | .read => { e with readers := t }
  | .write => { e with writers := t }
  | .exception => { e with exceptions := t }

/-- Whether `os_realloc_array()` succeeds. A number of members that does not fit into an `int` is negative
there, and too large as a `size_t`. -/
def osReallocArray (ok : Bool) (nmemb : Nat) : Bool := ok && decide (nmemb < 2 ^ 31)

def nextMaxFd (e : EloopData) : Nat := if e.maxFd = 0 then 16 else e.maxFd * 2

def nextEventNum (e : EloopData) : Nat := if e.epollMaxEventNum = 0 then 8 else e.epollMaxEventNum * 2

def newMaxSock (e : EloopData) (sock : Nat) : Nat := if sock > e.maxSock then sock else e.maxSock

def growFdTable (sys : System) (sock : Nat) (e : EloopData) : Option EloopData :=
  if newMaxSock e sock ≥ e.maxFd then
    if osReallocArray sys.fdTable (nextMaxFd e) then
      some { e with
             maxFd := nextMaxFd e
             fdTable := e.fdTable ++ List.replicate (nextMaxFd e - e.maxFd) none }
    else none
  else some e

def growEvents (sys : System) (e : EloopData) : Option EloopData :=
  if e.count + 1 > e.epollMaxEventNum then
    if osReallocArray sys.epollEvents (nextEventNum e) then some { e with epollMaxEventNum := nextEventNum e }
    else none
  else some e

/-- `eloop.fd_table[sock] = entry` -/
def storeFd (entry : EloopSock) (sock : Nat) (e : EloopData) : Except OutOfBounds EloopData :=
  if sock < e.fdTable.length then .ok { e with fdTable := e.fdTable.set sock (some entry) }
  else .error ⟨sock, 1⟩

def addEntry (type : EventType) (entry : EloopSock) (maxSock : Nat) (e : EloopData) : EloopData :=
  let e' := e.setTable type { table := (eloopGetSockTable e type).table ++ [entry], changed := true }
  { e' with maxSock := maxSock, count := e.count + 1 }

/-- The first entry of the socket is taken out of the table. -/
def removeEntry (type : EventType) (sock : Nat) (e : EloopData) : EloopData :=
  let table := (eloopGetSockTable e type).table.eraseP fun s => s.sock == sock
  { e.setTable type { table := table, changed := true } with count := e.count - 1 }

/-- `eloop_sock_table_add_sock()`: the table and the counts are changed before the kernel is asked. -/
def eloopSockTableAddSock (sys : System) (type : EventType) (entry : EloopSock) (e : EloopData) :
    Except OutOfBounds (Int × EloopData) :=
  let maxSock := newMaxSock e entry.sock
  match growFdTable sys entry.sock e with
  | none => .ok (-1, e)
  | some e =>
    match growEvents sys e with
    | none => .ok (-1, e)
    | some e =>
      if osReallocArray sys.table ((eloopGetSockTable e type).count + 1) then
        let e := addEntry type entry maxSock e
        if sys.epollCtl then (storeFd entry entry.sock e).map fun e => (0, e)
        else .ok (-1, e)
      else .ok (-1, e)

/-- `eloop_sock_table_remove_sock()` -/
def eloopSockTableRemoveSock (sys : System) (type : EventType) (sock : Nat) (e : EloopData) :
    Except OutOfBounds EloopData :=
  if (eloopGetSockTable e type).table.any fun s => s.sock == sock then
    let e := removeEntry type sock e
    if sys.epollCtl then storeFd {} sock e else .ok e
  else .ok e

/-- A call, with what the system answers to it. -/
inductive Call where
  | register (sys : System) (type : EventType) (entry : EloopSock)
  | unregister (sys : System) (type : EventType) (sock : Nat)
  deriving DecidableEq, Repr

/-- The value that a call returns, if any, and what it leaves. -/
def Call.run (e : EloopData) : Call → Except OutOfBounds (Option Int × EloopData)
  | .register sys type entry => (eloopSockTableAddSock sys type entry e).map fun r => (some r.1, r.2)
  | .unregister sys type sock => (eloopSockTableRemoveSock sys type sock e).map fun e => (none, e)

def step (e : EloopData) (c : Call) : Except OutOfBounds EloopData := (c.run e).map Prod.snd

/-! ## What is wanted -/

/-- The counts and the sizes agree, and every socket that is registered has an entry in `fd_table`, where
`eloop_sock_table_dispatch()` looks for it. -/
structure Sound (e : EloopData) : Prop where
  count : e.count = e.readers.count + e.writers.count + e.exceptions.count
  size : e.fdTable.length = e.maxFd
  below : ∀ type, ∀ s ∈ (eloopGetSockTable e type).table, s.sock < e.maxFd

/-- The tables and the counts are as they were. -/
structure SameTables (e e' : EloopData) : Prop where
  tables : ∀ type, eloopGetSockTable e' type = eloopGetSockTable e type
  count : e'.count = e.count

/-- The call stays below `max_fd`, leaves what is sound, and changes no table where it returns -1. -/
def Behaves (e : EloopData) (c : Call) : Prop :=
  ∃ ret e', c.run e = .ok (ret, e') ∧ Sound e' ∧ (ret = some (-1) → SameTables e e')

/-- The number of entries of `fd_table` that a registration finds. -/
def capacity (e : EloopData) (sock : Nat) : Nat := if newMaxSock e sock ≥ e.maxFd then nextMaxFd e else e.maxFd

def HasMemory (sys : System) (type : EventType) (sock : Nat) (e : EloopData) : Prop :=
  (newMaxSock e sock ≥ e.maxFd → osReallocArray sys.fdTable (nextMaxFd e) = true) ∧
    (e.count + 1 > e.epollMaxEventNum → osReallocArray sys.epollEvents (nextEventNum e) = true) ∧
      osReallocArray sys.table ((eloopGetSockTable e type).count + 1) = true

/-- A registration for which there is memory is of a descriptor for which `fd_table` is large enough after it
was doubled once, and the kernel accepts it. -/
def Accepted (e : EloopData) : Call → Prop
  | .register sys type entry =>
    HasMemory sys type entry.sock e → entry.sock < capacity e entry.sock ∧ sys.epollCtl = true
  | .unregister _ _ _ => True

/-! ## The tables -/

variable {e e' : EloopData} {sys : System} {type : EventType} {entry : EloopSock} {sock : Nat}

theorem eloopGetSockTable_addEntry (type type' : EventType) (entry : EloopSock) (maxSock : Nat)
    (e : EloopData) :
    (eloopGetSockTable (addEntry type entry maxSock e) type').table =
      if type' = type then (eloopGetSockTable e type').table ++ [entry]
      else (eloopGetSockTable e type').table := by
  cases type <;> cases type' <;> rfl

theorem eloopGetSockTable_removeEntry (type type' : EventType) (sock : Nat) (e : EloopData) :
    (eloopGetSockTable (removeEntry type sock e) type').table =
      if type' = type then (eloopGetSockTable e type').table.eraseP fun s => s.sock == sock
      else (eloopGetSockTable e type').table := by
  cases type <;> cases type' <;> rfl

@[simp] theorem setTable_fdTable (e : EloopData) (type : EventType) (t : SockTable) :
    (e.setTable type t).fdTable = e.fdTable := by cases type <;> rfl

@[simp] theorem setTable_maxFd (e : EloopData) (type : EventType) (t : SockTable) :
    (e.setTable type t).maxFd = e.maxFd := by cases type <;> rfl

theorem sum_setTable (e : EloopData) (type : EventType) (t : SockTable) :
    (e.setTable type t).readers.count + (e.setTable type t).writers.count +
        (e.setTable type t).exceptions.count + (eloopGetSockTable e type).count =
      e.readers.count + e.writers.count + e.exceptions.count + t.count := by
  cases type
  · show t.count + e.writers.count + e.exceptions.count + e.readers.count = _
    omega
  · show e.readers.count + t.count + e.exceptions.count + e.writers.count = _
    omega
  · show e.readers.count + e.writers.count + t.count + e.exceptions.count = _
    omega

theorem Sound.start : Sound {} := by
  constructor
  · rfl
  · rfl
  · intro type s hs
    cases type <;> cases hs

theorem Sound.addEntry (h : Sound e) (maxSock : Nat) (hsock : entry.sock < e.maxFd) :
    Sound (addEntry type entry maxSock e) := by
  have hsum := sum_setTable e type { table := (eloopGetSockTable e type).table ++ [entry], changed := true }
  constructor
  · show e.count + 1 = _
    rw [h.count]
    simp only [SockTable.count, List.length_append, List.length_singleton] at hsum
    simp only [Eloop.addEntry, SockTable.count]
    omega
  · simpa [Eloop.addEntry] using h.size
  · intro type' s hs
    rw [eloopGetSockTable_addEntry] at hs
    have hmax : (Eloop.addEntry type entry maxSock e).maxFd = e.maxFd := setTable_maxFd _ _ _
    rw [hmax]
    split_ifs at hs with htype
    · rcases List.mem_append.1 hs with hold | hnew
      · exact h.below type' s hold
      · rw [List.mem_singleton.1 hnew]
        exact hsock
    · exact h.below type' s hs

theorem Sound.removeEntry (h : Sound e)
    (hin : (eloopGetSockTable e type).table.any (fun s => s.sock == sock) = true) :
    Sound (removeEntry type sock e) ∧ sock < e.maxFd := by
  obtain ⟨s₀, hmem, hs₀⟩ := List.any_eq_true.1 hin
  have hlen := List.length_eraseP_of_mem (p := fun s : EloopSock => s.sock == sock) hmem hs₀
  have hpos := List.length_pos_of_mem hmem
  have hsum := sum_setTable e type
    { table := (eloopGetSockTable e type).table.eraseP fun s => s.sock == sock, changed := true }
  refine ⟨⟨?_, ?_, ?_⟩, ?_⟩
  · show e.count - 1 = _
    rw [h.count]
    simp only [SockTable.count] at hsum hlen
    simp only [Eloop.removeEntry, SockTable.count]
    omega
  · simpa [Eloop.removeEntry] using h.size
  · intro type' s hs
    rw [eloopGetSockTable_removeEntry] at hs
    have hmax : (Eloop.removeEntry type sock e).maxFd = e.maxFd := setTable_maxFd _ _ _
    rw [hmax]
    split_ifs at hs with htype
    · exact h.below type' s (List.mem_of_mem_eraseP hs)
    · exact h.below type' s hs
  · rw [← beq_iff_eq.1 hs₀]
    exact h.below type s₀ hmem

/-! ## The memory -/

/-- What is allocated before the tables are changed leaves them as they are. -/
structure Grown (e e' : EloopData) : Prop where
  same : SameTables e e'
  readers : e'.readers = e.readers
  writers : e'.writers = e.writers
  exceptions : e'.exceptions = e.exceptions
  size : e'.fdTable.length = e'.maxFd
  more : e.maxFd ≤ e'.maxFd

theorem Grown.of_tables (hcount : e'.count = e.count) (hreaders : e'.readers = e.readers)
    (hwriters : e'.writers = e.writers) (hexceptions : e'.exceptions = e.exceptions)
    (hsize : e'.fdTable.length = e'.maxFd) (hmore : e.maxFd ≤ e'.maxFd) : Grown e e' := by
  refine ⟨⟨?_, hcount⟩, hreaders, hwriters, hexceptions, hsize, hmore⟩
  intro type
  cases type
  · exact hreaders
  · exact hwriters
  · exact hexceptions

theorem Grown.sound (hg : Grown e e') (h : Sound e) : Sound e' := by
  refine ⟨?_, hg.size, ?_⟩
  · rw [hg.same.count, hg.readers, hg.writers, hg.exceptions]
    exact h.count
  · intro type s hs
    rw [hg.same.tables type] at hs
    exact lt_of_lt_of_le (h.below type s hs) hg.more

theorem le_nextMaxFd (e : EloopData) : e.maxFd ≤ nextMaxFd e := by
  unfold nextMaxFd
  split_ifs <;> omega

theorem growFdTable_cases (h : Sound e) :
    (growFdTable sys sock e = none ∧ newMaxSock e sock ≥ e.maxFd ∧
      osReallocArray sys.fdTable (nextMaxFd e) = false) ∨
    ∃ e', growFdTable sys sock e = some e' ∧ Grown e e' ∧ e'.maxFd = capacity e sock ∧
      e'.epollMaxEventNum = e.epollMaxEventNum ∧
      (newMaxSock e sock ≥ e.maxFd → osReallocArray sys.fdTable (nextMaxFd e) = true) := by
  have hle := le_nextMaxFd e
  unfold growFdTable capacity
  by_cases hgrow : newMaxSock e sock ≥ e.maxFd
  · rw [if_pos hgrow, if_pos hgrow]
    by_cases hok : osReallocArray sys.fdTable (nextMaxFd e) = true
    · rw [if_pos hok]
      refine .inr ⟨_, rfl, .of_tables rfl rfl rfl rfl ?_ hle, rfl, rfl, fun _ => hok⟩
      show (e.fdTable ++ _).length = _
      rw [List.length_append, List.length_replicate, h.size]
      exact Nat.add_sub_cancel' hle
    · rw [if_neg hok]
      exact .inl ⟨rfl, hgrow, Bool.not_eq_true _ ▸ hok⟩
  · rw [if_neg hgrow, if_neg hgrow]
    refine .inr ⟨e, rfl, .of_tables rfl rfl rfl rfl h.size (Nat.le_refl _), rfl, rfl, ?_⟩
    exact fun hle => absurd hle hgrow

theorem growEvents_cases (h : Sound e) :
    (growEvents sys e = none ∧ e.count + 1 > e.epollMaxEventNum ∧
      osReallocArray sys.epollEvents (nextEventNum e) = false) ∨
    ∃ e', growEvents sys e = some e' ∧ Grown e e' ∧ e'.maxFd = e.maxFd ∧
      (e.count + 1 > e.epollMaxEventNum → osReallocArray sys.epollEvents (nextEventNum e) = true) := by
  unfold growEvents
  by_cases hgrow : e.count + 1 > e.epollMaxEventNum
  · rw [if_pos hgrow]
    by_cases hok : osReallocArray sys.epollEvents (nextEventNum e) = true
    · rw [if_pos hok]
      exact .inr ⟨_, rfl, .of_tables rfl rfl rfl rfl h.size (Nat.le_refl _), rfl, fun _ => hok⟩
    · rw [if_neg hok]
      exact .inl ⟨rfl, hgrow, Bool.not_eq_true _ ▸ hok⟩
  · rw [if_neg hgrow]
    exact .inr ⟨e, rfl, .of_tables rfl rfl rfl rfl h.size (Nat.le_refl _), rfl, fun hgt => absurd hgt hgrow⟩

theorem Grown.trans {e'' : EloopData} (h : Grown e e') (h' : Grown e' e'') : Grown e e'' :=
  .of_tables (h'.same.count.trans h.same.count) (h'.readers.trans h.readers) (h'.writers.trans h.writers)
    (h'.exceptions.trans h.exceptions) h'.size (le_trans h.more h'.more)

theorem eloopSockTableAddSock_cases (h : Sound e) (sys : System) (type : EventType) (entry : EloopSock) :
    (¬ HasMemory sys type entry.sock e ∧
      ∃ e', eloopSockTableAddSock sys type entry e = .ok (-1, e') ∧ Grown e e') ∨
    (HasMemory sys type entry.sock e ∧ ∃ e', Grown e e' ∧ e'.maxFd = capacity e entry.sock ∧
      eloopSockTableAddSock sys type entry e =
        let e := addEntry type entry (newMaxSock e entry.sock) e'
        if sys.epollCtl then (storeFd entry entry.sock e).map fun e => (0, e) else .ok (-1, e)) := by
  unfold eloopSockTableAddSock HasMemory
  rcases growFdTable_cases h with ⟨hnone, hgrow, hno⟩ | ⟨e₁, hsome, hg, hcap, hev, hyes⟩
  · refine .inl ⟨fun hmem => ?_, e, by rw [hnone], .of_tables rfl rfl rfl rfl h.size (Nat.le_refl _)⟩
    rw [hmem.1 hgrow] at hno
    cases hno
  have hnum : nextEventNum e₁ = nextEventNum e := by
    unfold nextEventNum
    rw [hev]
  rcases growEvents_cases (hg.sound h) with ⟨hnone, hgrow, hno⟩ | ⟨e₂, hsome₂, hg₂, hmax, hyes₂⟩
  · refine .inl ⟨fun hmem => ?_, e₁, by rw [hsome]; dsimp only; rw [hnone], hg⟩
    rw [hg.same.count, hev] at hgrow
    rw [hnum, hmem.2.1 hgrow] at hno
    cases hno
  rw [hg.same.count, hev, hnum] at hyes₂
  have hg₁ : Grown e e₂ := hg.trans hg₂
  have hcount : (eloopGetSockTable e₂ type).count = (eloopGetSockTable e type).count := by
    rw [hg₁.same.tables type]
  rw [hsome]
  dsimp only
  rw [hsome₂]
  dsimp only
  rw [hcount]
  by_cases hok : osReallocArray sys.table ((eloopGetSockTable e type).count + 1) = true
  · rw [if_pos hok]
    exact .inr ⟨⟨hyes, hyes₂, hok⟩, e₂, hg₁, hmax.trans hcap, rfl⟩
  · rw [if_neg hok]
    exact .inl ⟨fun hmem => hok hmem.2.2, e₂, rfl, hg₁⟩

/-! ## The calls -/

theorem storeFd_ok (h : sock < e.fdTable.length) :
    storeFd entry sock e = .ok { e with fdTable := e.fdTable.set sock (some entry) } := if_pos h

theorem storeFd_error (h : ¬ sock < e.fdTable.length) : storeFd entry sock e = .error ⟨sock, 1⟩ := if_neg h

theorem Sound.stored (h : Sound e) : Sound { e with fdTable := e.fdTable.set sock (some entry) } := by
  refine ⟨h.count, ?_, ?_⟩
  · show (e.fdTable.set sock (some entry)).length = e.maxFd
    rw [List.length_set]
    exact h.size
  · intro type s hs
    apply h.below type s
    cases type <;> exact hs

theorem run_register : (Call.register sys type entry).run e =
    (eloopSockTableAddSock sys type entry e).map fun r => (some r.1, r.2) := rfl

theorem run_unregister : (Call.unregister sys type sock).run e =
    (eloopSockTableRemoveSock sys type sock e).map fun e => (none, e) := rfl

theorem behaves_register_iff (h : Sound e) :
    Behaves e (.register sys type entry) ↔ Accepted e (.register sys type entry) := by
  rw [Behaves, run_register]
  rcases eloopSockTableAddSock_cases h sys type entry with ⟨hno, e', hrun, hg⟩ | ⟨hmem, e', hg, hcap, hrun⟩
  · rw [hrun]
    exact ⟨fun _ hmem => absurd hmem hno, fun _ => ⟨_, _, rfl, hg.sound h, fun _ => hg.same⟩⟩
  rw [hrun]
  have hsize : (addEntry type entry (newMaxSock e entry.sock) e').fdTable.length = capacity e entry.sock := by
    rw [← hcap, ← hg.size]
    cases type <;> rfl
  by_cases hctl : sys.epollCtl = true
  · by_cases hsock : entry.sock < capacity e entry.sock
    · -- the entry is stored
      refine ⟨fun _ _ => ⟨hsock, hctl⟩, fun _ => ?_⟩
      have hadd := @Sound.addEntry _ type _ (hg.sound h) (newMaxSock e entry.sock) (hcap ▸ hsock)
      dsimp only
      rw [if_pos hctl, storeFd_ok (hsize ▸ hsock)]
      refine ⟨some 0, _, rfl, hadd.stored, fun hret => ?_⟩
      cases hret
    · -- the store leaves the table
      refine ⟨fun hb => ?_, fun ha => absurd (ha hmem).1 hsock⟩
      obtain ⟨ret, e'', hok, -⟩ := hb
      dsimp only at hok
      rw [if_pos hctl, storeFd_error (hsize ▸ hsock)] at hok
      cases hok
  · -- the kernel refuses, and there is one entry more
    refine ⟨fun hb => ?_, fun ha => absurd (ha hmem).2 hctl⟩
    obtain ⟨ret, e'', hok, -, hsame⟩ := hb
    dsimp only at hok
    rw [if_neg hctl] at hok
    cases hok
    have hcount : e'.count + 1 = e.count := (hsame rfl).count
    rw [hg.same.count] at hcount
    omega

theorem behaves_unregister (h : Sound e) : Behaves e (.unregister sys type sock) := by
  rw [Behaves, run_unregister, eloopSockTableRemoveSock]
  by_cases hin : (eloopGetSockTable e type).table.any (fun s => s.sock == sock) = true
  · obtain ⟨hremoved, hsock⟩ := h.removeEntry hin
    rw [if_pos hin]
    by_cases hctl : sys.epollCtl = true
    · have hsize : (removeEntry type sock e).fdTable.length = e.maxFd := by
        rw [← h.size]
        cases type <;> rfl
      dsimp only
      rw [if_pos hctl, storeFd_ok (hsize ▸ hsock)]
      exact ⟨none, _, rfl, hremoved.stored, fun hret => nomatch hret⟩
    · dsimp only
      rw [if_neg hctl]
      exact ⟨none, _, rfl, hremoved, fun hret => nomatch hret⟩
  · rw [if_neg hin]
    exact ⟨none, e, rfl, h, fun hret => nomatch hret⟩

theorem behaves_iff (h : Sound e) (c : Call) : Behaves e c ↔ Accepted e c := by
  cases c with
  | register sys type entry => exact behaves_register_iff h
  | unregister sys type sock => exact ⟨fun _ => trivial, fun _ => behaves_unregister h⟩

/-- A run behaves just when every registration in it is accepted. -/
theorem eloop_sock_run_iff (calls : List Call) :
    Run.Every step Behaves {} calls ↔ Run.Every step Accepted {} calls := by
  apply Run.every_congr (I := Sound) (fun e c h => behaves_iff h c)
  · intro e c e' h hc hstep
    obtain ⟨ret, e'', hrun, hsound, -⟩ := (behaves_iff h c).2 hc
    unfold step at hstep
    rw [hrun] at hstep
    cases hstep
    exact hsound
  · exact Sound.start

/-- The first registration of descriptor 40 doubles nothing to 16 and stores behind it, and descriptor 3 that is
registered for writing when it is registered for reading is refused with its entry in the table. -/
theorem eloop_register_sock_overflow_and_refused :
    ¬ Run.Every step Behaves {} [.register {} .read { sock := 40, handler := 1 }] ∧
    ¬ Run.Every step Behaves {} [.register {} .read { sock := 3, handler := 1 },
        .register { epollCtl := false } .write { sock := 3, handler := 1 }] := by
  constructor
  · rw [eloop_sock_run_iff]
    intro h
    have hroom : 40 < capacity {} 40 := (h.1 ⟨fun _ => rfl, fun _ => rfl, rfl⟩).1
    exact absurd hroom (by decide)
  · rw [eloop_sock_run_iff]
    intro h
    have hctl := ((h.2 _ rfl).1 ⟨fun _ => rfl, fun _ => rfl, rfl⟩).2
    cases hctl

end Eloop

end Hostap
