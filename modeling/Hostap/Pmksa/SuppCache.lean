import Hostap.Lib.Chained
import Hostap.Lib.Octets
import Hostap.Lib.Run
import Hostap.Lib.SortedList
import Hostap.Rsn.SmallLib
import Mathlib.Data.List.Pairwise

/-!
# PMKSA cache of the supplicant

The cache of `src/rsn_supp/pmksa_cache.c`: one list in order of expiration with at most one entry
for an authenticator. Only the front of the list is looked at when entries expire, so the order is
what expiry rests on. Every operation keeps it but one: `pmksa_cache_clone_entry()` adds an entry
with a full lifetime and sets its expiration to that of the entry it was cloned from afterwards,
where it stands. `ClonesInOrder` says when the entry stands in the right place all the same.

Entries are known by their addresses. Unlinking an entry takes the one with its address out of the
list, and freeing it counts it down and tells the state machine, which gives up its current entry if
it is this one (`wpa_sm_pmksa_free_cb()`).
-/

namespace Hostap

open Octets List

/-! ## Entries and the cache -/

/-- What an entry of the cache holds, `reauth_time` apart, which only sets a timer. A NULL
`network_ctx` is `none`. -/
structure PmksaData where
  pmkid : Bytes
  pmk : Bytes
  expiration : Int
  akmp : Akm
  aa : Bytes
  filsCacheId : Option Bytes := none
  networkCtx : Option Nat := none
  opportunistic : Bool := false
  deriving DecidableEq

/-- `struct rsn_pmksa_cache_entry` of the supplicant, with its address. -/
structure PmksaEntry extends PmksaData where
  addr : Nat
  deriving DecidableEq

/-- `pmksa_cache_max_entries` of the supplicant. -/
def pmksaMaxEntries : Int := 32

/-- `struct rsn_pmksa_cache`, with the current entry and the PMK of the state machine. -/
structure PmksaCache where
  pmksa : List PmksaEntry := []
  pmksaCount : Int := 0
  nextAddr : Nat := 0
  curPmksa : Option Nat := none
  smPmk : Bytes := []

/-- What a call gets from outside: the time, the lifetime configured and the addresses. -/
structure PmksaEnv where
  now : Int
  pmkLifetime : Nat
  ownAddr : Bytes
  alloc : Bool := true

/-! ## Freeing -/

/-- `enum pmksa_free_reason`. -/
inductive PmksaFreeReason
  | free
  | replace
  | expire
  deriving DecidableEq, Repr

/-- `wpa_sm_pmksa_free_cb()`, without the deauthentication. -/
def wpaSmPmksaFreeCb (entry : PmksaEntry) (reason : PmksaFreeReason) (c : PmksaCache) : PmksaCache :=
  let current := c.curPmksa = some entry.addr
  let expired := reason = .expire ∧ c.smPmk = entry.pmk
  { c with
    curPmksa := if current ∨ expired then none else c.curPmksa
    smPmk := if (current ∧ reason ≠ .replace) ∨ expired then [] else c.smPmk }

/-- `pmksa_cache_free_entry()`, for an entry that was unlinked. -/
def pmksaFreeEntry (entry : PmksaEntry) (reason : PmksaFreeReason) (c : PmksaCache) : PmksaCache :=
  wpaSmPmksaFreeCb entry reason { c with pmksaCount := c.pmksaCount - 1 }

def pmksaUnlink (entry : PmksaEntry) (c : PmksaCache) : PmksaCache :=
  { c with pmksa := c.pmksa.eraseP fun pos => pos.addr = entry.addr }

def pmksaRemove (entry : PmksaEntry) (reason : PmksaFreeReason) (c : PmksaCache) : PmksaCache :=
  pmksaFreeEntry entry reason (pmksaUnlink entry c)

/-- The loop of `pmksa_cache_expire()`; `l` is the list at the start. -/
def expireLoop (now : Int) : List PmksaEntry → PmksaCache → PmksaCache
  | [], c => c
  | entry :: l, c =>
    if entry.expiration ≤ now then expireLoop now l (pmksaRemove entry .expire c) else c

/-- `pmksa_cache_expire()` of the supplicant. -/
def pmksaExpire (now : Int) (c : PmksaCache) : PmksaCache := expireLoop now c.pmksa c

/-- The test of `pmksa_cache_flush()`. -/
def flushes (networkCtx : Option Nat) (pmk : Option Bytes) (entry : PmksaEntry) : Bool :=
  (entry.networkCtx = networkCtx || networkCtx.isNone) && pmk.all fun pmk => pmk = entry.pmk

/-- `pmksa_cache_flush()`. -/
def pmksaCacheFlush (networkCtx : Option Nat) (pmk : Option Bytes) (c : PmksaCache) : PmksaCache :=
  c.pmksa.foldl (fun c entry =>
    if flushes networkCtx pmk entry then pmksaRemove entry .free c else c) c

/-! ## Adding -/

/-- The old entry of an authenticator is replaced, and with it those that are based on its PMK if it
was used with the current AP. -/
def dropOld (entry pos : PmksaEntry) (c : PmksaCache) : PmksaCache :=
  let c := pmksaUnlink pos c
  let c := if pos.opportunistic then c else pmksaCacheFlush entry.networkCtx (some pos.pmk) c
  pmksaFreeEntry pos .replace c

/-- The oldest entry is removed to make room for a new one, but never the current one. -/
def makeRoomSupp (c : PmksaCache) : PmksaCache :=
  if c.pmksaCount ≥ pmksaMaxEntries then
    match c.pmksa with
    | [] => c
    | pos :: l =>
      if c.curPmksa = some pos.addr then
        match l with
        | [] => c
        | pos :: _ => pmksaRemove pos .free c
      else
        pmksaRemove pos .free c
  else
    c

def linkSupp (entry : PmksaEntry) (c : PmksaCache) : PmksaCache :=
  { c with
    pmksa := SortedList.insert (·.expiration) entry c.pmksa
    pmksaCount := c.pmksaCount + 1 }

/-- `pmksa_cache_add_entry()`: the address of the entry it returns, and the cache. -/
def pmksaCacheAddEntry (entry : PmksaEntry) (c : PmksaCache) : Nat × PmksaCache :=
  match c.pmksa.find? fun pos => entry.aa = pos.aa with
  | some pos =>
    if pos.pmk = entry.pmk ∧ pos.pmkid = entry.pmkid then
      (pos.addr, c)
    else
      (entry.addr, linkSupp entry (makeRoomSupp (dropOld entry pos c)))
  | none => (entry.addr, linkSupp entry (makeRoomSupp c))

/-- The octets of a PMKID: a hash of the title and the two addresses. -/
def pmkidInput (aa spa : Bytes) : Bytes := [80, 77, 75, 32, 78, 97, 109, 101] ++ aa ++ spa

/-- `rsn_pmkid()`. -/
def rsnPmkid (lib : RsnLib) (pmk aa spa : Bytes) (akmp : Akm) : Bytes :=
  (if wpaKeyMgmtSha384 akmp then lib.hmacSha384 pmk (pmkidInput aa spa)
    else if wpaKeyMgmtSha256 akmp then lib.hmacSha256 pmk (pmkidInput aa spa)
    else lib.hmacSha1 pmk (pmkidInput aa spa)).take 16

/-- The PMKID of a new entry: the one given, or one that is derived (`rsn_pmkid()`,
`rsn_pmkid_suite_b()`, `rsn_pmkid_suite_b_192()`). -/
def newPmkid (lib : RsnLib) (pmk : Bytes) (pmkid kck : Option Bytes) (aa spa : Bytes) (akmp : Akm) :
    Bytes :=
  match pmkid with
  | some pmkid => pmkid
  | none =>
    if akmp = .ieee8021xSuiteB192 then
      (lib.hmacSha384 (kck.getD []) (pmkidInput aa spa)).take 16
    else if wpaKeyMgmtSuiteB akmp then
      (lib.hmacSha256 (kck.getD []) (pmkidInput aa spa)).take 16
    else
      rsnPmkid lib pmk aa spa akmp

/-- The arguments of `pmksa_cache_add()`. -/
structure PmksaAddArgs where
  pmk : Bytes
  pmkid : Option Bytes := none
  kck : Option Bytes := none
  aa : Bytes
  spa : Bytes
  networkCtx : Option Nat
  akmp : Akm
  cacheId : Option Bytes := none

/-- The entry `pmksa_cache_add()` makes, or that it makes none. -/
def newData (lib : RsnLib) (env : PmksaEnv) (x : PmksaAddArgs) : Option PmksaData :=
  if x.pmk.length > pmkLenMax ∨ (wpaKeyMgmtSuiteB x.akmp ∧ x.kck.isNone) ∨ ¬ env.alloc then
    none
  else
    some {
      pmkid := newPmkid lib x.pmk x.pmkid x.kck x.aa x.spa x.akmp
      pmk := x.pmk
      expiration := env.now + env.pmkLifetime
      akmp := x.akmp
      aa := x.aa
      filsCacheId := x.cacheId
      networkCtx := x.networkCtx }

/-- A new entry is allocated and given to `pmksa_cache_add_entry()`. -/
def addNew (d : PmksaData) (c : PmksaCache) : Nat × PmksaCache :=
  pmksaCacheAddEntry { d with addr := c.nextAddr } { c with nextAddr := c.nextAddr + 1 }

/-- `pmksa_cache_add()`. -/
def pmksaCacheAdd (lib : RsnLib) (env : PmksaEnv) (x : PmksaAddArgs) (c : PmksaCache) :
    Option Nat × PmksaCache :=
  match newData lib env x with
  | none => (none, c)
  | some d =>
    let (addr, c) := addNew d c
    (some addr, c)

/-! ## Opportunistic entries -/

def modifyEntry (f : PmksaEntry → PmksaEntry) (addr : Nat) (c : PmksaCache) : PmksaCache :=
  { c with pmksa := c.pmksa.map fun entry => if entry.addr = addr then f entry else entry }

/-- The arguments of `pmksa_cache_add()` for a clone of an entry. -/
def cloneArgs (env : PmksaEnv) (old : PmksaEntry) (aa : Bytes) : PmksaAddArgs where
  pmk := old.pmk
  aa := aa
  spa := env.ownAddr
  networkCtx := old.networkCtx
  akmp := old.akmp
  cacheId := old.filsCacheId

/-- `pmksa_cache_clone_entry()`. -/
def pmksaCacheCloneEntry (lib : RsnLib) (env : PmksaEnv) (old : PmksaEntry) (aa : Bytes)
    (c : PmksaCache) : Option Nat × PmksaCache :=
  match pmksaCacheAdd lib env (cloneArgs env old aa) c with
  | (none, c) => (none, c)
  | (some addr, c) =>
    (some addr, modifyEntry (fun entry =>
      { entry with expiration := old.expiration, opportunistic := true }) addr c)

/-- The entry `pmksa_cache_get_opportunistic()` clones. -/
def okcSource (networkCtx : Option Nat) (akmp : Option Akm) (c : PmksaCache) : Option PmksaEntry :=
  if networkCtx.isNone then
    none
  else
    c.pmksa.find? fun entry => entry.networkCtx = networkCtx && akmp.all fun a => entry.akmp = a

/-- `pmksa_cache_get_opportunistic()`. -/
def pmksaCacheGetOpportunistic (lib : RsnLib) (env : PmksaEnv) (networkCtx : Option Nat) (aa : Bytes)
    (akmp : Option Akm) (c : PmksaCache) : Option Nat × PmksaCache :=
  match okcSource networkCtx akmp c with
  | none => (none, c)
  | some old => pmksaCacheCloneEntry lib env old aa c

/-! ## The current entry -/

/-- `pmksa_cache_get()`; an AKMP of zero is `none`. -/
def pmksaCacheGet (aa pmkid : Option Bytes) (networkCtx : Option Nat) (akmp : Option Akm)
    (c : PmksaCache) : Option PmksaEntry :=
  c.pmksa.find? fun entry =>
    (aa.all fun aa => entry.aa = aa) && (pmkid.all fun pmkid => entry.pmkid = pmkid) &&
    (akmp.all fun akmp => akmp = entry.akmp) && (networkCtx.isNone || networkCtx = entry.networkCtx)

/-- `pmksa_cache_get_fils_cache_id()`. -/
def pmksaCacheGetFilsCacheId (networkCtx : Option Nat) (cacheId : Bytes) (c : PmksaCache) :
    Option PmksaEntry :=
  c.pmksa.find? fun entry => networkCtx = entry.networkCtx && entry.filsCacheId = some cacheId

/-- The arguments of `pmksa_cache_set_current()`. -/
structure SetCurrentArgs where
  pmkid : Option Bytes := none
  bssid : Option Bytes := none
  networkCtx : Option Nat := none
  tryOpportunistic : Bool := false
  filsCacheId : Option Bytes := none
  akmp : Option Akm := none

/-- The searches of `pmksa_cache_set_current()` by PMKID and by BSSID. -/
def findCurrent (x : SetCurrentArgs) (c : PmksaCache) : Option PmksaEntry :=
  (x.pmkid.bind fun pmkid => pmksaCacheGet none (some pmkid) x.networkCtx x.akmp c).or
    (x.bssid.bind fun bssid => pmksaCacheGet (some bssid) none x.networkCtx x.akmp c)

/-- `pmksa_cache_set_current()`. -/
def pmksaCacheSetCurrent (lib : RsnLib) (env : PmksaEnv) (x : SetCurrentArgs) (c : PmksaCache) :
    PmksaCache :=
  let c := { c with curPmksa := none }
  match findCurrent x c with
  | some entry => { c with curPmksa := some entry.addr }
  | none =>
    let r := match x.bssid with
      | some bssid =>
        if x.tryOpportunistic then
          pmksaCacheGetOpportunistic lib env x.networkCtx bssid x.akmp c
        else
          (none, c)
      | none => (none, c)
    let fils := x.filsCacheId.bind fun cacheId =>
      (pmksaCacheGetFilsCacheId x.networkCtx cacheId r.2).map (·.addr)
    { r.2 with curPmksa := r.1.or fils }

/-! ## Runs -/

/-- The calls of the cache, and what the state machine does with its current entry. -/
inductive PmksaEvent
  /-- `pmksa_cache_add_entry()` with a new entry. -/
  | addEntry (d : PmksaData)
  | add (env : PmksaEnv) (x : PmksaAddArgs)
  | getOpportunistic (env : PmksaEnv) (networkCtx : Option Nat) (aa : Bytes) (akmp : Option Akm)
  | flush (networkCtx : Option Nat) (pmk : Option Bytes)
  | expire (now : Int)
  | setCurrent (env : PmksaEnv) (x : SetCurrentArgs)
  /-- `pmksa_cache_clear_current()` and `pmksa_cache_reauth()`. -/
  | clearCurrent
  /-- `wpa_supplicant_key_neg_complete()`: the current entry was used. -/
  | currentUsed
  /-- `wpa_sm_set_pmk()`. -/
  | setPmk (pmk : Bytes)

def pmksaStep (lib : RsnLib) (c : PmksaCache) : PmksaEvent → Except Empty PmksaCache
  | .addEntry d => .ok (addNew d c).2
  | .add env x => .ok (pmksaCacheAdd lib env x c).2
  | .getOpportunistic env networkCtx aa akmp =>
    .ok (pmksaCacheGetOpportunistic lib env networkCtx aa akmp c).2
  | .flush networkCtx pmk => .ok (pmksaCacheFlush networkCtx pmk c)
  | .expire now => .ok (pmksaExpire now c)
  | .setCurrent env x => .ok (pmksaCacheSetCurrent lib env x c)
  | .clearCurrent => .ok { c with curPmksa := none }
  | .currentUsed =>
    match c.curPmksa with
    | some addr => .ok (modifyEntry (fun entry => { entry with opportunistic := false }) addr c)
    | none => .ok c
  | .setPmk pmk => .ok { c with smPmk := pmk }

/-! ## The list -/

/-- The list and what goes with it. The entries with the addresses in `out` are unlinked but not
freed yet: they are still counted, and one of them may still be the current entry. -/
structure Cached (out : List Nat) (c : PmksaCache) : Prop where
  sorted : SortedList.Sorted (·.expiration) c.pmksa
  count : c.pmksaCount = c.pmksa.length + out.length
  aas : c.pmksa.Pairwise fun a b => a.aa ≠ b.aa
  addrs : c.pmksa.Pairwise fun a b => a.addr ≠ b.addr
  fresh : ∀ e ∈ c.pmksa, e.addr < c.nextAddr
  current : ∀ a, c.curPmksa = some a → (∃ e ∈ c.pmksa, e.addr = a) ∨ a ∈ out

section Cached

variable {c : PmksaCache} {out : List Nat} {entry : PmksaEntry} {l : List PmksaEntry}
  {reason : PmksaFreeReason}

theorem Cached.eq_of_addr (h : Cached out c) {a b : PmksaEntry} (ha : a ∈ c.pmksa)
    (hb : b ∈ c.pmksa) (heq : a.addr = b.addr) : a = b := by
  have hsymm : Std.Symm fun a b : PmksaEntry => a.addr ≠ b.addr := ⟨fun _ _ h => h.symm⟩
  by_contra hne
  exact h.addrs.forall ha hb hne heq

theorem Cached.eq_of_aa (h : Cached out c) {a b : PmksaEntry} (ha : a ∈ c.pmksa)
    (hb : b ∈ c.pmksa) (heq : a.aa = b.aa) : a = b := by
  have hsymm : Std.Symm fun a b : PmksaEntry => a.aa ≠ b.aa := ⟨fun _ _ h => h.symm⟩
  by_contra hne
  exact h.aas.forall ha hb hne heq

theorem Cached.mem_unlink (h : Cached out c) (hmem : entry ∈ c.pmksa) {e : PmksaEntry} :
    e ∈ (pmksaUnlink entry c).pmksa ↔ e ∈ c.pmksa ∧ e ≠ entry := by
  have hperm := Chained.perm_cons_eraseP (p := fun pos => decide (pos.addr = entry.addr)) hmem
    (by simp) fun b hb heq => h.eq_of_addr hb hmem (by simpa using heq)
  have hnodup : c.pmksa.Nodup := h.addrs.imp fun hne heq => hne (by rw [heq])
  have hnew := (nodup_cons.1 (hperm.nodup_iff.1 hnodup)).1
  constructor
  · intro he
    refine ⟨eraseP_sublist.subset he, ?_⟩
    rintro rfl
    exact hnew he
  · rintro ⟨he, hne⟩
    rcases mem_cons.1 (hperm.mem_iff.1 he) with rfl | hin
    · exact absurd rfl hne
    · exact hin

theorem Cached.unlink (h : Cached out c) (hmem : entry ∈ c.pmksa) :
    Cached (entry.addr :: out) (pmksaUnlink entry c) where
  sorted := h.sorted.sublist eraseP_sublist
  count := by
    have hlen := length_eraseP_of_mem (p := fun pos => decide (pos.addr = entry.addr)) hmem
      (by simp)
    have hpos := length_pos_of_mem hmem
    have hcount := h.count
    simp only [pmksaUnlink, length_cons] at hlen ⊢
    omega
  aas := h.aas.sublist eraseP_sublist
  addrs := h.addrs.sublist eraseP_sublist
  fresh := fun e he => h.fresh e (eraseP_sublist.subset he)
  current := by
    intro a ha
    rcases h.current a ha with ⟨e, he, rfl⟩ | hout
    · by_cases heq : e = entry
      · exact .inr (by rw [heq]; exact mem_cons_self)
      · exact .inl ⟨e, (h.mem_unlink hmem).2 ⟨he, heq⟩, rfl⟩
    · exact .inr (mem_cons_of_mem _ hout)

theorem Cached.freeEntry (h : Cached (entry.addr :: out) c) :
    Cached out (pmksaFreeEntry entry reason c) where
  sorted := h.sorted
  count := by
    have hcount := h.count
    simp only [pmksaFreeEntry, wpaSmPmksaFreeCb, length_cons] at hcount ⊢
    omega
  aas := h.aas
  addrs := h.addrs
  fresh := h.fresh
  current := by
    intro a ha
    simp only [pmksaFreeEntry, wpaSmPmksaFreeCb] at ha
    split at ha
    · cases ha
    · rename_i hnot
      rcases h.current a ha with hin | hout
      · exact .inl hin
      · rcases mem_cons.1 hout with rfl | hout
        · exact absurd (.inl ha) hnot
        · exact .inr hout

theorem Cached.remove (h : Cached out c) (hmem : entry ∈ c.pmksa) (reason : PmksaFreeReason) :
    Cached out (pmksaRemove entry reason c) :=
  (h.unlink hmem).freeEntry

theorem Cached.expireLoop (h : Cached out c) (now : Int) (hl : c.pmksa = l) :
    Cached out (expireLoop now l c) ∧
      (Hostap.expireLoop now l c).pmksa = l.dropWhile fun e => e.expiration ≤ now := by
  induction l generalizing c with
  | nil => exact ⟨h, hl⟩
  | cons entry l ih =>
    unfold Hostap.expireLoop
    rw [dropWhile_cons]
    by_cases hexp : entry.expiration ≤ now
    · rw [if_pos hexp, if_pos (by simpa using hexp)]
      have hmem : entry ∈ c.pmksa := by rw [hl]; exact mem_cons_self
      refine ih (h.remove hmem .expire) ?_
      show c.pmksa.eraseP _ = l
      rw [hl, eraseP_cons_of_pos (by simp)]
    · rw [if_neg hexp, if_neg (by simpa using hexp)]
      exact ⟨h, hl⟩

theorem Cached.flushLoop {test : PmksaEntry → Bool} (h : Cached out c)
    (hmem : ∀ e ∈ l, e ∈ c.pmksa) (hl : l.Pairwise fun a b => a.addr ≠ b.addr) :
    Cached out (l.foldl (fun c e => if test e then pmksaRemove e .free c else c) c) ∧
      List.Sublist (l.foldl (fun c e => if test e then pmksaRemove e .free c else c) c).pmksa
        c.pmksa ∧
      (l.foldl (fun c e => if test e then pmksaRemove e .free c else c) c).nextAddr = c.nextAddr := by
  induction l generalizing c with
  | nil => exact ⟨h, List.Sublist.refl _, rfl⟩
  | cons entry l ih =>
    obtain ⟨hne, hl⟩ := pairwise_cons.1 hl
    have hentry := hmem entry mem_cons_self
    have hrest : ∀ e ∈ l, e ∈ c.pmksa := fun e he => hmem e (mem_cons_of_mem _ he)
    rw [foldl_cons]
    split
    · have hlater : ∀ e ∈ l, e ∈ (pmksaRemove entry .free c).pmksa := by
        intro e he
        refine (h.mem_unlink hentry).2 ⟨hrest e he, ?_⟩
        rintro rfl
        exact hne e he rfl
      obtain ⟨h₁, h₂, h₃⟩ := ih (h.remove hentry .free) hlater hl
      exact ⟨h₁, h₂.trans eraseP_sublist, h₃⟩
    · exact ih h hrest hl

theorem Cached.flush (h : Cached out c) (networkCtx : Option Nat) (pmk : Option Bytes) :
    Cached out (pmksaCacheFlush networkCtx pmk c) ∧
      List.Sublist (pmksaCacheFlush networkCtx pmk c).pmksa c.pmksa ∧
      (pmksaCacheFlush networkCtx pmk c).nextAddr = c.nextAddr :=
  h.flushLoop (fun _ he => he) h.addrs

theorem Cached.dropOld {pos : PmksaEntry} (h : Cached [] c) (hmem : pos ∈ c.pmksa)
    (entry : PmksaEntry) :
    Cached [] (dropOld entry pos c) ∧ List.Sublist (Hostap.dropOld entry pos c).pmksa c.pmksa ∧
      (∀ e ∈ (Hostap.dropOld entry pos c).pmksa, e.aa ≠ pos.aa) ∧
      (Hostap.dropOld entry pos c).nextAddr = c.nextAddr := by
  have hun := h.unlink hmem
  have hothers : ∀ e ∈ (pmksaUnlink pos c).pmksa, e.aa ≠ pos.aa := by
    intro e he haa
    obtain ⟨he, hne⟩ := (h.mem_unlink hmem).1 he
    exact hne (h.eq_of_aa he hmem haa)
  unfold Hostap.dropOld
  simp only
  split
  · exact ⟨hun.freeEntry, eraseP_sublist, hothers, rfl⟩
  · obtain ⟨hf, hsub, hnext⟩ := hun.flush entry.networkCtx (some pos.pmk)
    exact ⟨hf.freeEntry, hsub.trans eraseP_sublist, fun e he => hothers e (hsub.subset he), hnext⟩

theorem makeRoomSupp_cases (c : PmksaCache) :
    (makeRoomSupp c = c ∧ (c.pmksaCount < pmksaMaxEntries ∨ c.pmksa.length ≤ 1)) ∨
      ∃ pos ∈ c.pmksa, (c.pmksa.Pairwise (fun a b => a.addr ≠ b.addr) →
        c.curPmksa ≠ some pos.addr) ∧ makeRoomSupp c = pmksaRemove pos .free c := by
  unfold makeRoomSupp
  split
  · split
    · rename_i hl
      exact .inl ⟨rfl, .inr (by rw [hl]; exact Nat.zero_le 1)⟩
    · rename_i pos l hl
      split
      · rename_i hcur
        split
        · exact .inl ⟨rfl, .inr (by rw [hl]; exact Nat.le_refl 1)⟩
        · rename_i _ pos' l'
          -- the current entry is at the front, the one behind it goes
          refine .inr ⟨pos', by rw [hl]; simp, ?_, rfl⟩
          intro haddrs heq
          rw [hl] at haddrs
          rw [hcur] at heq
          exact (pairwise_cons.1 haddrs).1 pos' mem_cons_self (Option.some.inj heq)
      · rename_i hcur
        exact .inr ⟨pos, by rw [hl]; exact mem_cons_self, fun _ => hcur, rfl⟩
  · rename_i hlt
    exact .inl ⟨rfl, .inl (by omega)⟩

theorem Cached.makeRoom (h : Cached [] c) (hlimit : c.pmksaCount ≤ pmksaMaxEntries) :
    Cached [] (makeRoomSupp c) ∧ (makeRoomSupp c).pmksaCount < pmksaMaxEntries ∧
      (∀ e ∈ (makeRoomSupp c).pmksa, e ∈ c.pmksa) ∧ (makeRoomSupp c).nextAddr = c.nextAddr := by
  have hcount := h.count
  rcases makeRoomSupp_cases c with ⟨heq, hroom⟩ | ⟨pos, hmem, _, heq⟩
  · rw [heq]
    refine ⟨h, ?_, fun _ he => he, rfl⟩
    rcases hroom with hlt | hle
    · exact hlt
    · simp only [length_nil, pmksaMaxEntries] at hcount ⊢
      omega
  · rw [heq]
    refine ⟨h.remove hmem .free, ?_, fun e he => eraseP_sublist.subset he, rfl⟩
    simp only [pmksaRemove, pmksaFreeEntry, wpaSmPmksaFreeCb, pmksaUnlink]
    omega

theorem Cached.makeRoom_current (h : Cached [] c) {e : PmksaEntry} (he : e ∈ c.pmksa)
    (hcur : c.curPmksa = some e.addr) :
    e ∈ (makeRoomSupp c).pmksa ∧ (makeRoomSupp c).curPmksa = some e.addr := by
  rcases makeRoomSupp_cases c with ⟨heq, _⟩ | ⟨pos, hmem, hnot, heq⟩
  · rw [heq]
    exact ⟨he, hcur⟩
  · have hne := hnot h.addrs
    rw [heq]
    constructor
    · refine (h.mem_unlink hmem).2 ⟨he, ?_⟩
      rintro rfl
      exact hne hcur
    · simp only [pmksaRemove, pmksaFreeEntry, wpaSmPmksaFreeCb, pmksaUnlink, reduceCtorEq,
        false_and, or_false]
      rw [if_neg hne, hcur]

theorem Cached.link (h : Cached [] c) (entry : PmksaEntry)
    (hcount : c.pmksaCount < pmksaMaxEntries) (haa : ∀ e ∈ c.pmksa, e.aa ≠ entry.aa)
    (haddr : ∀ e ∈ c.pmksa, e.addr ≠ entry.addr) (hfresh : entry.addr < c.nextAddr) :
    Cached [] (linkSupp entry c) ∧ (linkSupp entry c).pmksaCount ≤ pmksaMaxEntries := by
  have hperm : (linkSupp entry c).pmksa.Perm (entry :: c.pmksa) := SortedList.perm_insert _ _
  refine ⟨⟨SortedList.sorted_insert h.sorted, ?_, ?_, ?_, ?_, ?_⟩, by
    simp only [linkSupp]
    omega⟩
  · have hc := h.count
    simp only [linkSupp, SortedList.length_insert, length_nil] at hc ⊢
    omega
  · refine (hperm.pairwise_iff fun h => h.symm).2 ?_
    exact pairwise_cons.2 ⟨fun e he => (haa e he).symm, h.aas⟩
  · refine (hperm.pairwise_iff fun h => h.symm).2 ?_
    exact pairwise_cons.2 ⟨fun e he => (haddr e he).symm, h.addrs⟩
  · intro e he
    rcases SortedList.mem_insert.1 he with rfl | he
    · exact hfresh
    · exact h.fresh e he
  · intro a ha
    rcases h.current a ha with ⟨e, he, rfl⟩ | hout
    · exact .inl ⟨e, SortedList.mem_insert.2 (.inr he), rfl⟩
    · cases hout

theorem Cached.addEntry (h : Cached [] c) (hlimit : c.pmksaCount ≤ pmksaMaxEntries)
    (entry : PmksaEntry) :
    (∃ pos, c.pmksa.find? (fun pos => entry.aa = pos.aa) = some pos ∧ pos.pmk = entry.pmk ∧
      pos.pmkid = entry.pmkid ∧ pmksaCacheAddEntry entry c = (pos.addr, c)) ∨
    (∃ c', Cached [] c' ∧ c'.pmksaCount < pmksaMaxEntries ∧ c'.nextAddr = c.nextAddr ∧
      (∀ e ∈ c'.pmksa, e ∈ c.pmksa ∧ e.aa ≠ entry.aa) ∧
      (∀ pos, c.pmksa.find? (fun pos => entry.aa = pos.aa) = some pos →
        ¬ (pos.pmk = entry.pmk ∧ pos.pmkid = entry.pmkid)) ∧
      pmksaCacheAddEntry entry c = (entry.addr, linkSupp entry c')) := by
  unfold pmksaCacheAddEntry
  split
  · rename_i pos hfind
    have hmem := mem_of_find?_eq_some hfind
    have haa : entry.aa = pos.aa := by simpa using find?_some hfind
    split
    · rename_i hsame
      exact .inl ⟨pos, hfind, hsame.1, hsame.2, rfl⟩
    · rename_i hdiff
      obtain ⟨hd, hsub, hothers, hnext⟩ := h.dropOld hmem entry
      have hle : (Hostap.dropOld entry pos c).pmksaCount ≤ pmksaMaxEntries := by
        have hlen := hsub.length_le
        have h₁ := h.count
        have h₂ := hd.count
        omega
      obtain ⟨hm, hroom, hin, hnext'⟩ := hd.makeRoom hle
      refine .inr ⟨makeRoomSupp (Hostap.dropOld entry pos c), hm, hroom, hnext'.trans hnext, ?_, ?_,
        rfl⟩
      · intro e he
        exact ⟨hsub.subset (hin e he), by rw [haa]; exact hothers e (hin e he)⟩
      · intro pos' hfind' hsame
        cases hfind.symm.trans hfind'
        exact hdiff hsame
  · rename_i hfind
    obtain ⟨hm, hroom, hsub, hnext⟩ := h.makeRoom hlimit
    refine .inr ⟨makeRoomSupp c, hm, hroom, hnext, ?_, ?_, rfl⟩
    · intro e he
      have hne := find?_eq_none.1 hfind e (hsub e he)
      exact ⟨hsub e he, fun haa => hne (by simp [haa])⟩
    · intro pos' hfind'
      rw [hfind] at hfind'
      cases hfind'

end Cached

/-! ## Steps -/

/-- The list is in order, and within its limit. -/
structure Ordered (c : PmksaCache) : Prop where
  cached : Cached [] c
  limit : c.pmksaCount ≤ pmksaMaxEntries

/-- The expiration of a clone is set where it was linked in order of another time: no entry may
stand on the wrong side of it. A new entry was linked by its full lifetime; an entry that was there
already stands where it stood. -/
def CloneInOrder (env : PmksaEnv) (c : PmksaCache) (old : PmksaEntry) (d : PmksaData) : Prop :=
  if c.pmksa.any fun pos => d.aa = pos.aa ∧ pos.pmk = d.pmk ∧ pos.pmkid = d.pmkid then
    (∀ e ∈ c.pmksa.takeWhile fun e => d.aa ≠ e.aa, e.expiration ≤ old.expiration) ∧
      ∀ e ∈ (c.pmksa.dropWhile fun e => d.aa ≠ e.aa).tail, old.expiration ≤ e.expiration
  else
    ∀ e ∈ c.pmksa, e.aa ≠ d.aa →
      (e.expiration ≤ env.now + env.pmkLifetime → e.expiration ≤ old.expiration) ∧
        (env.now + env.pmkLifetime < e.expiration → old.expiration ≤ e.expiration)

def OkcInOrder (lib : RsnLib) (env : PmksaEnv) (networkCtx : Option Nat) (aa : Bytes)
    (akmp : Option Akm) (c : PmksaCache) : Prop :=
  ∀ old ∈ okcSource networkCtx akmp c, ∀ d ∈ newData lib env (cloneArgs env old aa),
    CloneInOrder env c old d

def ClonesInOrder (lib : RsnLib) (c : PmksaCache) : PmksaEvent → Prop
  | .getOpportunistic env networkCtx aa akmp => OkcInOrder lib env networkCtx aa akmp c
  | .setCurrent env x => findCurrent x c = none → x.tryOpportunistic = true →
      ∀ bssid ∈ x.bssid, OkcInOrder lib env x.networkCtx bssid x.akmp c
  | _ => True

instance (env : PmksaEnv) (c : PmksaCache) (old : PmksaEntry) (d : PmksaData) :
    Decidable (CloneInOrder env c old d) := by
  unfold CloneInOrder
  infer_instance

instance (lib : RsnLib) (env : PmksaEnv) (networkCtx : Option Nat) (aa : Bytes) (akmp : Option Akm)
    (c : PmksaCache) : Decidable (OkcInOrder lib env networkCtx aa akmp c) := by
  unfold OkcInOrder
  infer_instance

instance (lib : RsnLib) (c : PmksaCache) (ev : PmksaEvent) : Decidable (ClonesInOrder lib c ev) := by
  unfold ClonesInOrder
  split <;> infer_instance

section Steps

variable {lib : RsnLib} {env : PmksaEnv} {c c' : PmksaCache} {d : PmksaData}

theorem Ordered.allocated (h : Ordered c) : Ordered { c with nextAddr := c.nextAddr + 1 } :=
  ⟨{ h.cached with fresh := fun e he => Nat.lt_succ_of_lt (h.cached.fresh e he) }, h.limit⟩

theorem Ordered.linkNew (h : Ordered c) (hc : Cached [] c') (hroom : c'.pmksaCount < pmksaMaxEntries)
    (hnext : c'.nextAddr = c.nextAddr + 1)
    (hin : ∀ e ∈ c'.pmksa, e ∈ c.pmksa ∧ e.aa ≠ d.aa) :
    Ordered (linkSupp { d with addr := c.nextAddr } c') := by
  obtain ⟨hl, hle⟩ := hc.link { d with addr := c.nextAddr } hroom
    (fun e he => (hin e he).2) (fun e he => Nat.ne_of_lt (h.cached.fresh e (hin e he).1))
    (by rw [hnext]; exact Nat.lt_succ_self _)
  exact ⟨hl, hle⟩

theorem Ordered.addNew (h : Ordered c) (d : PmksaData) : Ordered (addNew d c).2 := by
  rcases h.allocated.cached.addEntry h.allocated.limit { d with addr := c.nextAddr } with
    ⟨pos, _, _, _, heq⟩ | ⟨c', hc, hroom, hnext, hin, _, heq⟩
  · unfold Hostap.addNew
    rw [heq]
    exact h.allocated
  · unfold Hostap.addNew
    rw [heq]
    exact h.linkNew hc hroom hnext hin

theorem Ordered.modify (h : Ordered c) {f : PmksaEntry → PmksaEntry} {addr : Nat}
    (haa : ∀ e, (f e).aa = e.aa) (haddr : ∀ e, (f e).addr = e.addr)
    (hsorted : SortedList.Sorted (·.expiration) (modifyEntry f addr c).pmksa) :
    Ordered (modifyEntry f addr c) := by
  have haa' : ∀ e : PmksaEntry, (if e.addr = addr then f e else e).aa = e.aa := by
    intro e
    split
    · exact haa e
    · rfl
  have haddr' : ∀ e : PmksaEntry, (if e.addr = addr then f e else e).addr = e.addr := by
    intro e
    split
    · exact haddr e
    · rfl
  refine ⟨⟨hsorted, ?_, ?_, ?_, ?_, ?_⟩, h.limit⟩
  · have hcount := h.cached.count
    simpa [modifyEntry] using hcount
  · refine pairwise_map.2 (h.cached.aas.imp fun {a b} hne => ?_)
    rw [haa', haa']
    exact hne
  · refine pairwise_map.2 (h.cached.addrs.imp fun {a b} hne => ?_)
    rw [haddr', haddr']
    exact hne
  · intro e he
    obtain ⟨e', he', rfl⟩ := mem_map.1 he
    rw [haddr']
    exact h.cached.fresh e' he'
  · intro a ha
    rcases h.cached.current a ha with ⟨e, he, rfl⟩ | hout
    · exact .inl ⟨_, mem_map.2 ⟨e, he, rfl⟩, haddr' e⟩
    · cases hout

theorem modifyEntry_split {f : PmksaEntry → PmksaEntry} {l₁ l₂ : List PmksaEntry} {e : PmksaEntry}
    (hl : c.pmksa = l₁ ++ e :: l₂) (h : c.pmksa.Pairwise fun a b => a.addr ≠ b.addr) :
    (modifyEntry f e.addr c).pmksa = l₁ ++ f e :: l₂ := by
  rw [hl] at h
  obtain ⟨_, h₂, h₁₂⟩ := pairwise_append.1 h
  have hsame : ∀ l : List PmksaEntry, (∀ x ∈ l, x.addr ≠ e.addr) →
      l.map (fun x => if x.addr = e.addr then f x else x) = l := by
    intro l hne
    conv => rhs; rw [← map_id l]
    exact map_congr_left fun x hx => if_neg (hne x hx)
  unfold modifyEntry
  simp only [hl, map_append, map_cons, if_true]
  rw [hsame l₁ fun x hx => h₁₂ x hx e mem_cons_self,
    hsame l₂ fun x hx => ((pairwise_cons.1 h₂).1 x hx).symm]

theorem Ordered.reuse (h : Ordered c) {old pos : PmksaEntry}
    (hfind : c.pmksa.find? (fun pos => d.aa = pos.aa) = some pos) (hpmk : pos.pmk = d.pmk)
    (hpmkid : pos.pmkid = d.pmkid) (hc : CloneInOrder env c old d) :
    Ordered (modifyEntry (fun e => { e with expiration := old.expiration, opportunistic := true })
      pos.addr c) := by
  obtain ⟨haa, l₁, l₂, hl, hbefore⟩ := find?_eq_some_iff_append.1 hfind
  have haa' : d.aa = pos.aa := by simpa using haa
  have hmem : pos ∈ c.pmksa := mem_of_find?_eq_some hfind
  have hany : (c.pmksa.any fun pos => d.aa = pos.aa ∧ pos.pmk = d.pmk ∧ pos.pmkid = d.pmkid) =
      true :=
    any_eq_true.2 ⟨pos, hmem, by simp [haa', hpmk, hpmkid]⟩
  have htake : c.pmksa.takeWhile (fun e => d.aa ≠ e.aa) = l₁ := by
    rw [hl, takeWhile_append_of_pos fun a ha => by simpa using hbefore a ha,
      takeWhile_cons_of_neg (by simpa using haa'), append_nil]
  have hdrop : (c.pmksa.dropWhile fun e => d.aa ≠ e.aa).tail = l₂ := by
    rw [hl, dropWhile_append_of_pos fun a ha => by simpa using hbefore a ha,
      dropWhile_cons_of_neg (by simpa using haa'), tail_cons]
  unfold CloneInOrder at hc
  rw [if_pos hany, htake, hdrop] at hc
  refine h.modify (fun _ => rfl) (fun _ => rfl) ?_
  rw [modifyEntry_split hl h.cached.addrs]
  refine SortedList.sorted_replace ?_ hc.1 hc.2
  exact h.cached.sorted.sublist (by rw [hl]; exact (sublist_cons_self _ _).append_left _)

theorem Ordered.clone (h : Ordered c) {old : PmksaEntry} {aa : Bytes}
    (hin : ∀ d ∈ newData lib env (cloneArgs env old aa), CloneInOrder env c old d) :
    Ordered (pmksaCacheCloneEntry lib env old aa c).2 := by
  unfold pmksaCacheCloneEntry pmksaCacheAdd
  cases hd : newData lib env (cloneArgs env old aa) with
  | none => exact h
  | some d =>
    have hc := hin d hd
    have hexp : d.expiration = env.now + env.pmkLifetime := by
      unfold newData at hd
      split at hd
      · cases hd
      · cases hd
        rfl
    rcases h.allocated.cached.addEntry h.allocated.limit { d with addr := c.nextAddr } with
      ⟨pos, hfind, hpmk, hpmkid, heq⟩ | ⟨c', hc', hroom, hnext, hothers, hdiff, heq⟩
    · simp only [Hostap.addNew, heq]
      exact Ordered.reuse h.allocated hfind hpmk hpmkid hc
    · simp only [Hostap.addNew, heq]
      have hlinked := h.linkNew hc' hroom hnext hothers
      -- no entry of the authenticator is reused
      have hnone : (c.pmksa.any fun pos => d.aa = pos.aa ∧ pos.pmk = d.pmk ∧
          pos.pmkid = d.pmkid) ≠ true := by
        intro hany
        obtain ⟨pos, hmem, hpos⟩ := any_eq_true.1 hany
        obtain ⟨haa, hpmk, hpmkid⟩ := of_decide_eq_true hpos
        cases hfind : c.pmksa.find? fun pos => decide (d.aa = pos.aa) with
        | none => exact find?_eq_none.1 hfind pos hmem (by simpa using haa)
        | some pos' =>
          have hmem' := mem_of_find?_eq_some hfind
          have haa' : d.aa = pos'.aa := by simpa using find?_some hfind
          have hsame : pos' = pos := h.cached.eq_of_aa hmem' hmem (haa'.symm.trans haa)
          exact hdiff pos' hfind (by rw [hsame]; exact ⟨hpmk, hpmkid⟩)
      unfold CloneInOrder at hc
      rw [if_neg hnone] at hc
      refine hlinked.modify (fun _ => rfl) (fun _ => rfl) ?_
      obtain ⟨l₁, l₂, hins, hl, hbefore, hbehind⟩ :=
        SortedList.insert_split (a := ({ d with addr := c.nextAddr } : PmksaEntry)) hc'.sorted
      have hmodify := modifyEntry_split (c := linkSupp { d with addr := c.nextAddr } c')
        (f := fun e => { e with expiration := old.expiration, opportunistic := true }) hins
        hlinked.cached.addrs
      show SortedList.Sorted _ (modifyEntry _ c.nextAddr _).pmksa
      rw [hmodify]
      refine SortedList.sorted_replace (hl ▸ hc'.sorted) ?_ ?_
      · intro e he
        obtain ⟨hmem, haa⟩ := hothers e (by rw [hl]; exact mem_append_left _ he)
        have hle : e.expiration ≤ d.expiration := hbefore e he
        exact (hc e hmem haa).1 (by rw [← hexp]; exact hle)
      · intro e he
        obtain ⟨hmem, haa⟩ := hothers e (by rw [hl]; exact mem_append_right _ he)
        have hlt : d.expiration < e.expiration := hbehind e he
        exact (hc e hmem haa).2 (by rw [← hexp]; exact hlt)

theorem Ordered.getOpportunistic (h : Ordered c) {networkCtx : Option Nat} {aa : Bytes}
    {akmp : Option Akm} (hin : OkcInOrder lib env networkCtx aa akmp c) :
    Ordered (pmksaCacheGetOpportunistic lib env networkCtx aa akmp c).2 := by
  unfold pmksaCacheGetOpportunistic
  split
  · exact h
  · rename_i old hold
    exact h.clone (hin old hold)

theorem addNew_addr (d : PmksaData) (c : PmksaCache) :
    ∃ e ∈ (addNew d c).2.pmksa, e.addr = (addNew d c).1 := by
  unfold addNew pmksaCacheAddEntry
  split
  · rename_i pos hfind
    split
    · exact ⟨pos, mem_of_find?_eq_some hfind, rfl⟩
    · exact ⟨_, SortedList.mem_insert.2 (.inl rfl), rfl⟩
  · exact ⟨_, SortedList.mem_insert.2 (.inl rfl), rfl⟩

theorem getOpportunistic_addr {networkCtx : Option Nat} {aa : Bytes} {akmp : Option Akm} {a : Nat}
    (ha : (pmksaCacheGetOpportunistic lib env networkCtx aa akmp c).1 = some a) :
    ∃ e ∈ (pmksaCacheGetOpportunistic lib env networkCtx aa akmp c).2.pmksa, e.addr = a := by
  unfold pmksaCacheGetOpportunistic at ha ⊢
  cases hold : okcSource networkCtx akmp c with
  | none =>
    rw [hold] at ha
    cases ha
  | some old =>
    simp only [hold, pmksaCacheCloneEntry, pmksaCacheAdd] at ha ⊢
    cases hd : newData lib env (cloneArgs env old aa) with
    | none =>
      rw [hd] at ha
      cases ha
    | some d =>
      simp only [hd, Option.some.injEq] at ha ⊢
      obtain ⟨e, he, haddr⟩ := addNew_addr d c
      refine ⟨_, mem_map.2 ⟨e, he, rfl⟩, ?_⟩
      rw [← ha, ← haddr]
      split <;> rfl

theorem Ordered.select (h : Ordered c) {cur : Option Nat}
    (hcur : ∀ a, cur = some a → ∃ e ∈ c.pmksa, e.addr = a) : Ordered { c with curPmksa := cur } :=
  ⟨{ h.cached with current := fun a ha => .inl (hcur a ha) }, h.limit⟩

theorem findCurrent_mem {x : SetCurrentArgs} {e : PmksaEntry} (h : findCurrent x c = some e) :
    e ∈ c.pmksa := by
  unfold findCurrent at h
  rcases Option.or_eq_some_iff.1 h with h | ⟨_, h⟩
  · obtain ⟨_, _, hget⟩ := Option.bind_eq_some_iff.1 h
    exact mem_of_find?_eq_some hget
  · obtain ⟨_, _, hget⟩ := Option.bind_eq_some_iff.1 h
    exact mem_of_find?_eq_some hget

theorem Ordered.selectResult {r : Option Nat × PmksaCache} (h : Ordered r.2)
    (hr : ∀ a, r.1 = some a → ∃ e ∈ r.2.pmksa, e.addr = a) (x : SetCurrentArgs) :
    Ordered { r.2 with curPmksa := r.1.or (x.filsCacheId.bind fun cacheId =>
      (pmksaCacheGetFilsCacheId x.networkCtx cacheId r.2).map (·.addr)) } := by
  refine h.select fun a ha => ?_
  rcases Option.or_eq_some_iff.1 ha with ha | ⟨_, ha⟩
  · exact hr a ha
  · obtain ⟨_, _, ha⟩ := Option.bind_eq_some_iff.1 ha
    obtain ⟨e, he, rfl⟩ := Option.map_eq_some_iff.1 ha
    exact ⟨e, mem_of_find?_eq_some he, rfl⟩

theorem Ordered.setCurrent (h : Ordered c) {x : SetCurrentArgs}
    (hc : ClonesInOrder lib c (.setCurrent env x)) : Ordered (pmksaCacheSetCurrent lib env x c) := by
  have hnone : Ordered { c with curPmksa := none } := h.select fun a ha => by cases ha
  unfold pmksaCacheSetCurrent
  simp only
  split
  · rename_i e he
    have hmem : e ∈ c.pmksa := findCurrent_mem he
    exact h.select fun a ha => by cases ha; exact ⟨e, hmem, rfl⟩
  · rename_i hfind
    split
    · rename_i bssid hbssid
      split
      · rename_i htry
        have hokc : OkcInOrder lib env x.networkCtx bssid x.akmp { c with curPmksa := none } :=
          hc hfind htry bssid hbssid
        exact (hnone.getOpportunistic hokc).selectResult (fun a ha => getOpportunistic_addr ha) x
      · exact hnone.selectResult (r := (none, _)) (fun a ha => by cases ha) x
    · exact hnone.selectResult (r := (none, _)) (fun a ha => by cases ha) x

theorem Ordered.step (h : Ordered c) {ev : PmksaEvent} (hc : ClonesInOrder lib c ev)
    (hs : pmksaStep lib c ev = .ok c') : Ordered c' := by
  cases ev with
  | addEntry d => cases hs; exact h.addNew d
  | add env x =>
    cases hs
    unfold pmksaCacheAdd
    split
    · exact h
    · exact h.addNew _
  | getOpportunistic env networkCtx aa akmp => cases hs; exact h.getOpportunistic hc
  | flush networkCtx pmk =>
    cases hs
    obtain ⟨hf, hsub, _⟩ := h.cached.flush networkCtx pmk
    refine ⟨hf, ?_⟩
    have hlen := hsub.length_le
    have hlimit := h.limit
    have h₁ := h.cached.count
    have h₂ := hf.count
    omega
  | expire now =>
    cases hs
    obtain ⟨he, hl⟩ := h.cached.expireLoop now rfl
    refine ⟨he, ?_⟩
    have hlen : (pmksaExpire now c).pmksa.length ≤ c.pmksa.length := by
      unfold pmksaExpire
      rw [hl]
      exact (dropWhile_sublist _).length_le
    have hlimit := h.limit
    have h₁ := h.cached.count
    have h₂ : (pmksaExpire now c).pmksaCount = (pmksaExpire now c).pmksa.length + _ := he.count
    omega
  | setCurrent env x => cases hs; exact h.setCurrent hc
  | clearCurrent => cases hs; exact h.select fun a ha => by cases ha
  | currentUsed =>
    simp only [pmksaStep] at hs
    split at hs
    · cases hs
      refine h.modify (fun _ => rfl) (fun _ => rfl) ?_
      refine pairwise_map.2 (h.cached.sorted.imp fun {a b} hle => ?_)
      have hexp : ∀ (e : PmksaEntry) (addr : Nat), (if e.addr = addr then
          ({ e with opportunistic := false } : PmksaEntry) else e).expiration = e.expiration := by
        intro e addr
        split <;> rfl
      show PmksaData.expiration _ ≤ PmksaData.expiration _
      rw [hexp, hexp]
      exact hle
    · cases hs
      exact h
  | setPmk pmk => cases hs; exact ⟨{ h.cached with }, h.limit⟩

end Steps

theorem ordered_of_reach {lib : RsnLib} {evs : List PmksaEvent} {c : PmksaCache}
    (h : Run.Reach (pmksaStep lib) (ClonesInOrder lib) {} evs c) : Ordered c := by
  refine h.invariant ?_ fun c ev c' hinv hc hs => hinv.step hc hs
  exact ⟨⟨List.Pairwise.nil, rfl, List.Pairwise.nil, List.Pairwise.nil, by simp, by simp⟩, by decide⟩

/-- After every sequence of calls whose clones are put in order there is at most one entry for an
authenticator, the count is the length of the list and within the limit, and the list is in order of
expiration. A call that adds an entry replaces the one of the authenticator and then makes room; the
entry that is the current one at that time stays. Right after entries have expired none is left that
should have. -/
theorem pmksa_supp_cache_ordered (lib : RsnLib) (evs : List PmksaEvent) (c : PmksaCache)
    (h : Run.Reach (pmksaStep lib) (ClonesInOrder lib) {} evs c) :
    c.pmksa.Pairwise (fun a b => a.aa ≠ b.aa) ∧
    c.pmksaCount = c.pmksa.length ∧ c.pmksaCount ≤ pmksaMaxEntries ∧
    SortedList.Sorted (·.expiration) c.pmksa ∧
    (∀ entry c', c' = c ∨ (∃ pos ∈ c.pmksa, c' = dropOld entry pos c) →
      ∀ e ∈ c'.pmksa, c'.curPmksa = some e.addr →
        e ∈ (makeRoomSupp c').pmksa ∧ (makeRoomSupp c').curPmksa = some e.addr) ∧
    (∀ now c', pmksaStep lib c (.expire now) = .ok c' → ∀ e ∈ c'.pmksa, now < e.expiration) := by
  have ho := ordered_of_reach h
  refine ⟨ho.cached.aas, ?_, ho.limit, ho.cached.sorted, ?_, ?_⟩
  · have hcount := ho.cached.count
    simpa using hcount
  · rintro entry c' (rfl | ⟨pos, hmem, rfl⟩) e he hcur
    · exact ho.cached.makeRoom_current he hcur
    · exact (ho.cached.dropOld hmem entry).1.makeRoom_current he hcur
  · intro now c' hs e he
    cases hs
    have hl := (ho.cached.expireLoop now rfl).2
    unfold pmksaExpire at he
    rw [hl] at he
    exact SortedList.lt_of_mem_dropWhile ho.cached.sorted he

/-! ## A clone out of order -/

def smallPmksa (aa : UInt8) (expiration : Int) (networkCtx : Nat) : PmksaData where
  pmkid := [aa]
  pmk := [7]
  expiration := expiration
  akmp := .ieee8021x
  aa := [aa]
  networkCtx := some networkCtx

def smallPmksaEnv : PmksaEnv := { now := 0, pmkLifetime := 300, ownAddr := [9] }

def cloneRun (first second : Nat) : List PmksaEvent :=
  [.addEntry (smallPmksa 1 100 first), .addEntry (smallPmksa 2 200 second),
    .getOpportunistic smallPmksaEnv (some 0) [3] none]

theorem pmksa_supp_cache_ordered_small :
    ∃ c, Run.Reach (pmksaStep smallRsnLib) (ClonesInOrder smallRsnLib) {} (cloneRun 1 0) c ∧
      c.pmksaCount = 3 ∧ SortedList.Sorted (·.expiration) c.pmksa := by
  obtain ⟨c, hc, hthree⟩ := Run.reach_of_runWhile_any (pmksaStep smallRsnLib)
    (ClonesInOrder smallRsnLib) {} (cloneRun 1 0) (fun c => c.pmksaCount == 3) (by decide +kernel)
  exact ⟨c, hc, by simpa using hthree, (pmksa_supp_cache_ordered smallRsnLib _ c hc).2.2.2.1⟩

/-- The entry that expires first is cloned, behind one that expires later: when the first has
expired, its clone stays. -/
theorem clone_outlives_expiration :
    ∃ c c', Run.Reach (pmksaStep smallRsnLib) Run.always {} (cloneRun 0 0) c ∧
      pmksaStep smallRsnLib c (.expire 150) = .ok c' ∧ ∃ e ∈ c'.pmksa, e.expiration ≤ 150 := by
  obtain ⟨c, hc, hold⟩ := Run.reach_of_runWhile_any (pmksaStep smallRsnLib) Run.always {}
    (cloneRun 0 0) (fun c => (pmksaExpire 150 c).pmksa.any fun e => e.expiration ≤ 150)
    (by decide +kernel)
  obtain ⟨e, he, hexp⟩ := any_eq_true.1 hold
  exact ⟨c, _, hc, rfl, e, he, of_decide_eq_true hexp⟩

end Hostap
