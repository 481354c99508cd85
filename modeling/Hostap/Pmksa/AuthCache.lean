import Hostap.Lib.Chained
import Hostap.Lib.Octets
import Hostap.Lib.Run
import Hostap.Lib.SortedList
import Hostap.Rsn.Common
import Mathlib.Data.List.Pairwise

/-!
# PMKSA cache of the authenticator

The cache of `src/ap/pmksa_cache_auth.c`. Its entries are linked twice: in a list in order of
expiration, whose front is looked at when entries expire or room has to be made, and in the chain of
a hash of their PMKID, which is searched for a PMKID. A count is kept next to them.

An entry is known by its address. The list through `next` and the chains through `hnext` are lists
of entries, and unlinking compares addresses as the source compares pointers. The allocator gives
every entry an address of its own.

Entries come into the cache in two ways. `pmksa_cache_auth_add_entry()` replaces the first entry of
the station and makes room when there are too many; `pmksa_cache_add_okc()` does neither. The
invariant `Linked` holds whatever the order of the calls (`Linked.step`), the limit and the
replacement only where the second way has left room for them (`KeepsLimit`).
-/

namespace Hostap

open Octets List

/-! ## Entries and the cache -/

/-- What an entry of the cache holds; the fields that no function here reads are left out. -/
structure PmksaAuthData where
  pmkid : Bytes
  pmk : Bytes
  expiration : Int
  akmp : Akm
  spa : Bytes
  opportunistic : Bool := false
  identity : Option Bytes := none
  cui : Option Bytes := none
  acctMultiSessionId : Nat := 0
  deriving DecidableEq, Repr

/-- `struct rsn_pmksa_cache_entry`, with its address. -/
structure PmksaAuthEntry extends PmksaAuthData where
  addr : Nat
  deriving DecidableEq, Repr

/-- `PMKID_HASH_SIZE`. -/
abbrev pmkidHashSize : Nat := 128

/-- `PMKID_HASH()`. -/
def pmkidHash (pmkid : Bytes) : Fin pmkidHashSize := Fin.ofNat _ (pmkid.headD 0 &&& 0x7f).toNat

/-- `pmksa_cache_max_entries` of the authenticator. -/
def pmksaAuthMaxEntries : Int := 1024

/-- `struct rsn_pmksa_cache`; `nextAddr` is the address of the next entry that is allocated. -/
structure PmksaAuthCache where
  pmkid : Fin pmkidHashSize → List PmksaAuthEntry := fun _ => []
  pmksa : List PmksaAuthEntry := []
  pmksaCount : Int := 0
  nextAddr : Nat := 0

/-! ## Operations -/

/-- The loops that unlink an entry: the first element with its address is taken out. -/
def unlinkEntry (entry : PmksaAuthEntry) (l : List PmksaAuthEntry) : List PmksaAuthEntry :=
  l.eraseP fun pos => pos.addr = entry.addr

/-- `pmksa_cache_free_entry()`. -/
def pmksaCacheFreeEntry (entry : PmksaAuthEntry) (c : PmksaAuthCache) : PmksaAuthCache :=
  let hash := pmkidHash entry.pmkid
  { c with
    pmksaCount := c.pmksaCount - 1
    pmkid := Function.update c.pmkid hash (unlinkEntry entry (c.pmkid hash))
    pmksa := unlinkEntry entry c.pmksa }

/-- Frees the entry at the front as long as it passes the test; `l` is the list at the start. -/
def freeWhile (test : PmksaAuthEntry → Bool) : List PmksaAuthEntry → PmksaAuthCache → PmksaAuthCache
  | [], c => c
  | entry :: l, c => if test entry then freeWhile test l (pmksaCacheFreeEntry entry c) else c

/-- `pmksa_cache_auth_flush()`. -/
def pmksaCacheAuthFlush (c : PmksaAuthCache) : PmksaAuthCache := freeWhile (fun _ => true) c.pmksa c

/-- `pmksa_cache_expire()`. -/
def pmksaCacheExpire (now : Int) (c : PmksaAuthCache) : PmksaAuthCache :=
  freeWhile (fun entry => entry.expiration ≤ now) c.pmksa c

/-- `pmksa_cache_link_entry()`. -/
def pmksaCacheLinkEntry (entry : PmksaAuthEntry) (c : PmksaAuthCache) : PmksaAuthCache :=
  let hash := pmkidHash entry.pmkid
  { c with
    pmksa := SortedList.insert (·.expiration) entry c.pmksa
    pmkid := Function.update c.pmkid hash (entry :: c.pmkid hash)
    pmksaCount := c.pmksaCount + 1 }

/-- `pmksa_cache_auth_get()`. -/
def pmksaCacheAuthGet (spa pmkid : Option Bytes) (c : PmksaAuthCache) : Option PmksaAuthEntry :=
  match pmkid with
  | some pmkid => (c.pmkid (pmkidHash pmkid)).find? fun entry =>
      (spa.all fun spa => entry.spa = spa) && entry.pmkid = pmkid
  | none => c.pmksa.find? fun entry => spa.all fun spa => entry.spa = spa

def allocEntry (d : PmksaAuthData) (c : PmksaAuthCache) : PmksaAuthEntry × PmksaAuthCache :=
  ({ d with addr := c.nextAddr }, { c with nextAddr := c.nextAddr + 1 })

/-- The first part of `pmksa_cache_auth_add_entry()`: an old entry for the station is freed. -/
def replaceOld (spa : Bytes) (c : PmksaAuthCache) : PmksaAuthCache :=
  match pmksaCacheAuthGet (some spa) none c with
  | some pos => pmksaCacheFreeEntry pos c
  | none => c

/-- The second part of `pmksa_cache_auth_add_entry()`: room is made for the new entry. -/
def makeRoom (c : PmksaAuthCache) : PmksaAuthCache :=
  match c.pmksa with
  | oldest :: _ => if c.pmksaCount ≥ pmksaAuthMaxEntries then pmksaCacheFreeEntry oldest c else c
  | [] => c

/-- `pmksa_cache_auth_add_entry()` for an entry that is linked nowhere. -/
def pmksaCacheAuthAddEntry (entry : PmksaAuthEntry) (c : PmksaAuthCache) : PmksaAuthCache :=
  pmksaCacheLinkEntry entry (makeRoom (replaceOld entry.spa c))

/-- Which allocations of `pmksa_cache_add_okc()` succeed. -/
structure OkcAlloc where
  entry : Bool := true
  identity : Bool := true
  cui : Bool := true
  deriving DecidableEq, Repr

/-- The new entry of `pmksa_cache_add_okc()`; the multi-session id is left at zero. -/
def okcData (old : PmksaAuthData) (pmkid : Bytes) (alloc : OkcAlloc) : PmksaAuthData where
  pmkid := pmkid
  pmk := old.pmk
  expiration := old.expiration
  akmp := old.akmp
  spa := old.spa
  opportunistic := true
  identity := if alloc.identity then old.identity else none
  cui := if alloc.cui then old.cui else none

/-- `pmksa_cache_add_okc()`. The old entry may be one of another cache. -/
def pmksaCacheAddOkc (old : PmksaAuthData) (pmkid : Bytes) (alloc : OkcAlloc) (c : PmksaAuthCache) :
    PmksaAuthCache :=
  if alloc.entry then
    let (entry, c) := allocEntry (okcData old pmkid alloc) c
    pmksaCacheLinkEntry entry c
  else
    c

/-- `struct radius_das_attrs`, as far as the cache looks at it. -/
structure RadiusDasAttrs where
  staAddr : Option Bytes := none
  userName : Option Bytes := none
  acctSessionId : Option Bytes := none
  acctMultiSessionId : Option Bytes := none
  cui : Option Bytes := none
  deriving DecidableEq, Repr

/-- `"%016llX"`. -/
def hex16 (n : Nat) : Bytes :=
  (List.range 16).reverse.map fun i =>
    let d := n / 16 ^ i % 16
    UInt8.ofNat (if d < 10 then 48 + d else 55 + d)

/-- `das_attr_match()`: no attribute differs, and there is one. -/
def dasAttrMatch (entry : PmksaAuthData) (attr : RadiusDasAttrs) : Bool :=
  (attr.staAddr.all fun a => a = entry.spa) &&
  (attr.acctMultiSessionId.all fun id => id = hex16 entry.acctMultiSessionId) &&
  (attr.cui.all fun cui => entry.cui = some cui) &&
  (attr.userName.all fun name => entry.identity = some name) &&
  (attr.staAddr.isSome || attr.acctMultiSessionId.isSome || attr.cui.isSome ||
    attr.userName.isSome)

/-- `pmksa_cache_auth_radius_das_disconnect()`; the loop reads `next` before it frees an entry. -/
def pmksaCacheAuthRadiusDasDisconnect (attr : RadiusDasAttrs) (c : PmksaAuthCache) :
    PmksaAuthCache :=
  if attr.acctSessionId.isSome then
    c
  else
    c.pmksa.foldl (fun c entry =>
      if dasAttrMatch entry.toPmksaAuthData attr then pmksaCacheFreeEntry entry c else c) c

/-! ## Runs -/

/-- The calls of the cache. -/
inductive PmksaAuthEvent
  /-- `pmksa_cache_auth_add_entry()` with a new entry. -/
  | addEntry (d : PmksaAuthData)
  | addOkc (old : PmksaAuthData) (pmkid : Bytes) (alloc : OkcAlloc)
  /-- `pmksa_cache_free_entry()` with an entry a search has returned. -/
  | freeEntry (addr : Nat)
  | expire (now : Int)
  | flush
  | dasDisconnect (attr : RadiusDasAttrs)

/-- Why a run stops. -/
inductive PmksaAuthFault
  /-- The address is that of no entry. -/
  | dangling

def pmksaAuthStep (c : PmksaAuthCache) : PmksaAuthEvent → Except PmksaAuthFault PmksaAuthCache
  | .addEntry d =>
    let (entry, c) := allocEntry d c
    .ok (pmksaCacheAuthAddEntry entry c)
  | .addOkc old pmkid alloc => .ok (pmksaCacheAddOkc old pmkid alloc c)
  | .freeEntry addr =>
    match c.pmksa.find? fun entry => entry.addr = addr with
    | some entry => .ok (pmksaCacheFreeEntry entry c)
    | none => .error .dangling
  | .expire now => .ok (pmksaCacheExpire now c)
  | .flush => .ok (pmksaCacheAuthFlush c)
  | .dasDisconnect attr => .ok (pmksaCacheAuthRadiusDasDisconnect attr c)

/-! ## The two linked structures -/

def PmksaAuthEntry.hash (entry : PmksaAuthEntry) : Fin pmkidHashSize := pmkidHash entry.pmkid

/-- List, chains and count are views of the same entries. -/
structure Linked (c : PmksaAuthCache) : Prop where
  sorted : SortedList.Sorted (·.expiration) c.pmksa
  count : c.pmksaCount = c.pmksa.length
  distinct : c.pmksa.Pairwise fun a b => a.addr ≠ b.addr
  fresh : ∀ entry ∈ c.pmksa, entry.addr < c.nextAddr
  indexed : Chained.Indexes PmksaAuthEntry.hash c.pmkid c.pmksa

section Linked

variable {c : PmksaAuthCache} {entry : PmksaAuthEntry} {l : List PmksaAuthEntry}

theorem Linked.eq_of_addr (h : Linked c) {a b : PmksaAuthEntry} (ha : a ∈ c.pmksa)
    (hb : b ∈ c.pmksa) (heq : a.addr = b.addr) : a = b := by
  have hsymm : Std.Symm fun a b : PmksaAuthEntry => a.addr ≠ b.addr := ⟨fun _ _ h => h.symm⟩
  by_contra hne
  exact h.distinct.forall ha hb hne heq

theorem Linked.perm_unlink (h : Linked c) (hmem : entry ∈ c.pmksa) :
    c.pmksa.Perm (entry :: unlinkEntry entry c.pmksa) :=
  Chained.perm_cons_eraseP hmem (by simp) fun b hb heq =>
    h.eq_of_addr hb hmem (by simpa using heq)

theorem Linked.free (h : Linked c) (hmem : entry ∈ c.pmksa) :
    Linked (pmksaCacheFreeEntry entry c) where
  sorted := h.sorted.sublist eraseP_sublist
  count := by
    have hlen := (h.perm_unlink hmem).length_eq
    have hcount := h.count
    simp only [pmksaCacheFreeEntry, length_cons] at hlen ⊢
    omega
  distinct := h.distinct.sublist eraseP_sublist
  fresh := fun e he => h.fresh e (eraseP_sublist.subset he)
  indexed := by
    have hchain : entry ∈ c.pmkid entry.hash := h.indexed.mem_iff.2 ⟨hmem, rfl⟩
    refine h.indexed.unlink (h.perm_unlink hmem) ?_
    refine Chained.perm_cons_eraseP hchain (by simp) fun b hb heq => ?_
    exact h.eq_of_addr (h.indexed.mem_iff.1 hb).1 hmem (by simpa using heq)

theorem unlinkEntry_cons : unlinkEntry entry (entry :: l) = l := by
  unfold unlinkEntry
  rw [eraseP_cons_of_pos (by simp)]

theorem Linked.freeWhile {test : PmksaAuthEntry → Bool} (h : Linked c) (hl : c.pmksa = l) :
    Linked (freeWhile test l c) ∧ (Hostap.freeWhile test l c).pmksa = l.dropWhile test := by
  induction l generalizing c with
  | nil => exact ⟨h, hl⟩
  | cons entry l ih =>
    unfold Hostap.freeWhile
    rw [dropWhile_cons]
    split
    · have hmem : entry ∈ c.pmksa := by rw [hl]; exact mem_cons_self
      refine ih (h.free hmem) ?_
      show unlinkEntry entry c.pmksa = l
      rw [hl]
      exact unlinkEntry_cons
    · exact ⟨h, hl⟩

theorem Linked.das (h : Linked c) {attr : RadiusDasAttrs}
    (hmem : ∀ entry ∈ l, entry ∈ c.pmksa) (hl : l.Pairwise fun a b => a.addr ≠ b.addr) :
    Linked (l.foldl (fun c entry =>
      if dasAttrMatch entry.toPmksaAuthData attr then pmksaCacheFreeEntry entry c else c) c) := by
  induction l generalizing c with
  | nil => exact h
  | cons entry l ih =>
    obtain ⟨hne, hl⟩ := pairwise_cons.1 hl
    have hentry := hmem entry mem_cons_self
    have hrest : ∀ e ∈ l, e ∈ c.pmksa := fun e he => hmem e (mem_cons_of_mem _ he)
    rw [foldl_cons]
    split
    · refine ih (h.free hentry) ?_ hl
      -- the entries that come later are still linked
      intro e he
      rcases mem_cons.1 ((h.perm_unlink hentry).mem_iff.1 (hrest e he)) with rfl | hin
      · exact absurd rfl (hne e he)
      · exact hin
    · exact ih h hrest hl

theorem Linked.link (h : Linked c) (hnew : ∀ e ∈ c.pmksa, e.addr ≠ entry.addr)
    (hfresh : entry.addr < c.nextAddr) : Linked (pmksaCacheLinkEntry entry c) where
  sorted := SortedList.sorted_insert h.sorted
  count := by
    have hcount := h.count
    simp only [pmksaCacheLinkEntry, SortedList.length_insert]
    omega
  distinct := by
    refine ((SortedList.perm_insert entry c.pmksa).pairwise_iff fun h => h.symm).2 ?_
    exact pairwise_cons.2 ⟨fun e he => (hnew e he).symm, h.distinct⟩
  fresh := by
    intro e he
    rcases SortedList.mem_insert.1 he with rfl | he
    · exact hfresh
    · exact h.fresh e he
  indexed := h.indexed.push (SortedList.perm_insert entry c.pmksa)

theorem Linked.replaceOld (h : Linked c) (spa : Bytes) : Linked (replaceOld spa c) := by
  unfold Hostap.replaceOld
  split
  · rename_i pos hget
    exact h.free (mem_of_find?_eq_some hget)
  · exact h

theorem replaceOld_sublist (spa : Bytes) : List.Sublist (replaceOld spa c).pmksa c.pmksa := by
  unfold replaceOld
  split
  · exact eraseP_sublist
  · exact List.Sublist.refl _

theorem replaceOld_nextAddr (spa : Bytes) : (replaceOld spa c).nextAddr = c.nextAddr := by
  unfold replaceOld
  split <;> rfl

theorem Linked.replaceOld_spa (h : Linked c) {spa : Bytes}
    (hone : (c.pmksa.filter fun e => e.spa = spa).length ≤ 1) :
    ∀ e ∈ (Hostap.replaceOld spa c).pmksa, e.spa ≠ spa := by
  unfold Hostap.replaceOld
  split
  · rename_i pos hget
    have hmem := mem_of_find?_eq_some hget
    have hspa : pos.spa = spa := by simpa using find?_some hget
    have hperm := (h.perm_unlink hmem).filter fun e => decide (e.spa = spa)
    rw [filter_cons, if_pos (by simpa using hspa)] at hperm
    have hnil : (unlinkEntry pos c.pmksa).filter (fun e => decide (e.spa = spa)) = [] := by
      rw [← length_eq_zero_iff]
      have := hperm.length_eq
      rw [length_cons] at this
      omega
    intro e he hspa'
    have : e ∈ (unlinkEntry pos c.pmksa).filter fun e => decide (e.spa = spa) :=
      mem_filter.2 ⟨he, by simpa using hspa'⟩
    rw [hnil] at this
    cases this
  · rename_i hget
    intro e he
    simpa using find?_eq_none.1 hget e he

theorem Linked.makeRoom (h : Linked c) : Linked (makeRoom c) := by
  unfold Hostap.makeRoom
  split
  · rename_i oldest l hl
    split
    · exact h.free (by rw [hl]; exact mem_cons_self)
    · exact h
  · exact h

theorem makeRoom_sublist : List.Sublist (makeRoom c).pmksa c.pmksa := by
  unfold makeRoom
  split
  · split
    · exact eraseP_sublist
    · exact List.Sublist.refl _
  · exact List.Sublist.refl _

theorem makeRoom_nextAddr : (makeRoom c).nextAddr = c.nextAddr := by
  unfold makeRoom
  split
  · split <;> rfl
  · rfl

theorem Linked.makeRoom_count (h : Linked c) (hlimit : c.pmksaCount ≤ pmksaAuthMaxEntries) :
    (Hostap.makeRoom c).pmksaCount < pmksaAuthMaxEntries := by
  unfold Hostap.makeRoom
  split
  · split
    · simp only [pmksaCacheFreeEntry]
      omega
    · omega
  · rename_i hl
    rw [h.count, hl]
    decide

theorem Linked.addEntry (h : Linked c) (hnew : ∀ e ∈ c.pmksa, e.addr ≠ entry.addr)
    (hfresh : entry.addr < c.nextAddr) : Linked (pmksaCacheAuthAddEntry entry c) := by
  refine (h.replaceOld entry.spa).makeRoom.link ?_ ?_
  · intro e he
    exact hnew e ((replaceOld_sublist _).subset (makeRoom_sublist.subset he))
  · rw [makeRoom_nextAddr, replaceOld_nextAddr]
    exact hfresh

theorem Linked.alloc (h : Linked c) (d : PmksaAuthData) :
    Linked (allocEntry d c).2 ∧ (∀ e ∈ (allocEntry d c).2.pmksa, e.addr ≠ (allocEntry d c).1.addr) ∧
      (allocEntry d c).1.addr < (allocEntry d c).2.nextAddr := by
  refine ⟨{ h with fresh := fun e he => Nat.lt_succ_of_lt (h.fresh e he) }, ?_, Nat.lt_succ_self _⟩
  intro e he
  exact Nat.ne_of_lt (h.fresh e he)

theorem Linked.step {c' : PmksaAuthCache} {ev : PmksaAuthEvent} (h : Linked c)
    (hs : pmksaAuthStep c ev = .ok c') : Linked c' := by
  cases ev with
  | addEntry d =>
    cases hs
    obtain ⟨ha, hnew, hfresh⟩ := h.alloc d
    exact ha.addEntry hnew hfresh
  | addOkc old pmkid alloc =>
    cases hs
    unfold pmksaCacheAddOkc
    split
    · obtain ⟨ha, hnew, hfresh⟩ := h.alloc (okcData old pmkid alloc)
      exact ha.link hnew hfresh
    · exact h
  | freeEntry addr =>
    simp only [pmksaAuthStep] at hs
    split at hs
    · rename_i entry hfind
      cases hs
      exact h.free (mem_of_find?_eq_some hfind)
    · cases hs
  | expire now =>
    cases hs
    exact (h.freeWhile rfl).1
  | flush =>
    cases hs
    exact (h.freeWhile rfl).1
  | dasDisconnect attr =>
    cases hs
    unfold pmksaCacheAuthRadiusDasDisconnect
    split
    · exact h
    · exact h.das (fun _ he => he) h.distinct

theorem Linked.get_isSome (h : Linked c) (spa pmkid : Option Bytes) :
    (pmksaCacheAuthGet spa pmkid c).isSome ↔
      ∃ e ∈ c.pmksa, (∀ a, spa = some a → e.spa = a) ∧ ∀ i, pmkid = some i → e.pmkid = i := by
  have hspa : ∀ e : PmksaAuthEntry, (spa.all fun a => decide (e.spa = a)) = true ↔
      ∀ a, spa = some a → e.spa = a := by
    intro e
    cases spa <;> simp
  cases pmkid with
  | none =>
    simp only [pmksaCacheAuthGet, find?_isSome, hspa, reduceCtorEq, false_implies,
      implies_true, and_true]
  | some i =>
    simp only [pmksaCacheAuthGet, find?_isSome, Bool.and_eq_true, hspa, decide_eq_true_eq,
      Option.some.injEq, forall_eq']
    constructor
    · rintro ⟨e, he, hmatch⟩
      exact ⟨e, (h.indexed.mem_iff.1 he).1, hmatch⟩
    · rintro ⟨e, he, ha, hi⟩
      exact ⟨e, h.indexed.mem_iff.2 ⟨he, by rw [PmksaAuthEntry.hash, hi]⟩, ha, hi⟩

end Linked

/-! ## The limit, and one entry for a station -/

/-- The calls that keep the limit and leave one entry for the station of a new entry: an
opportunistic entry finds room, and a station has at most one entry when it gets a new one. -/
def KeepsLimit (c : PmksaAuthCache) : PmksaAuthEvent → Prop
  | .addEntry d => (c.pmksa.filter fun e => e.spa = d.spa).length ≤ 1
  | .addOkc _ _ _ => c.pmksaCount < pmksaAuthMaxEntries
  | _ => True

instance (c : PmksaAuthCache) (ev : PmksaAuthEvent) : Decidable (KeepsLimit c ev) := by
  cases ev <;> unfold KeepsLimit <;> infer_instance

section Limit

variable {c c' : PmksaAuthCache} {l : List PmksaAuthEntry}

theorem freeWhile_count_le {test : PmksaAuthEntry → Bool} :
    (freeWhile test l c).pmksaCount ≤ c.pmksaCount := by
  induction l generalizing c with
  | nil => exact Int.le_refl _
  | cons entry l ih =>
    unfold freeWhile
    split
    · refine Int.le_trans ih ?_
      simp only [pmksaCacheFreeEntry]
      omega
    · exact Int.le_refl _

theorem das_count_le {attr : RadiusDasAttrs} :
    (l.foldl (fun c entry =>
      if dasAttrMatch entry.toPmksaAuthData attr then pmksaCacheFreeEntry entry c else c)
      c).pmksaCount ≤ c.pmksaCount := by
  induction l generalizing c with
  | nil => exact Int.le_refl _
  | cons entry l ih =>
    rw [foldl_cons]
    refine Int.le_trans ih ?_
    split
    · simp only [pmksaCacheFreeEntry]
      omega
    · exact Int.le_refl _

theorem replaceOld_count_le (spa : Bytes) : (replaceOld spa c).pmksaCount ≤ c.pmksaCount := by
  unfold replaceOld
  split
  · simp only [pmksaCacheFreeEntry]
    omega
  · exact Int.le_refl _

theorem Linked.limit_step {ev : PmksaAuthEvent} (h : Linked c)
    (hlimit : c.pmksaCount ≤ pmksaAuthMaxEntries) (hc : KeepsLimit c ev)
    (hs : pmksaAuthStep c ev = .ok c') : c'.pmksaCount ≤ pmksaAuthMaxEntries := by
  cases ev with
  | addEntry d =>
    cases hs
    obtain ⟨ha, _, _⟩ := h.alloc d
    have hle := replaceOld_count_le (c := (allocEntry d c).2) d.spa
    have hroom := (ha.replaceOld d.spa).makeRoom_count (Int.le_trans hle hlimit)
    exact hroom
  | addOkc old pmkid alloc =>
    cases hs
    unfold pmksaCacheAddOkc
    split
    · exact hc
    · exact hlimit
  | freeEntry addr =>
    simp only [pmksaAuthStep] at hs
    split at hs
    · cases hs
      simp only [pmksaCacheFreeEntry]
      omega
    · cases hs
  | expire now =>
    cases hs
    exact Int.le_trans freeWhile_count_le hlimit
  | flush =>
    cases hs
    exact Int.le_trans freeWhile_count_le hlimit
  | dasDisconnect attr =>
    cases hs
    unfold pmksaCacheAuthRadiusDasDisconnect
    split
    · exact hlimit
    · exact Int.le_trans das_count_le hlimit

theorem Linked.addEntry_only (h : Linked c) {d : PmksaAuthData} (hc : KeepsLimit c (.addEntry d))
    (hs : pmksaAuthStep c (.addEntry d) = .ok c') :
    ∃ e ∈ c'.pmksa, e.toPmksaAuthData = d ∧ ∀ e' ∈ c'.pmksa, e'.spa = d.spa → e' = e := by
  cases hs
  obtain ⟨ha, _, _⟩ := h.alloc d
  refine ⟨(allocEntry d c).1, SortedList.mem_insert.2 (.inl rfl), rfl, ?_⟩
  intro e' he' hspa
  rcases SortedList.mem_insert.1 he' with rfl | hold
  · rfl
  · exact absurd hspa (ha.replaceOld_spa hc e' (makeRoom_sublist.subset hold))

end Limit

theorem linked_of_reach {C : PmksaAuthCache → PmksaAuthEvent → Prop} {evs : List PmksaAuthEvent}
    {c : PmksaAuthCache} (h : Run.Reach pmksaAuthStep C {} evs c) : Linked c := by
  refine h.invariant ?_ fun c ev c' hinv _ hs => hinv.step hs
  exact ⟨List.Pairwise.nil, rfl, List.Pairwise.nil, by simp, fun _ => .refl _⟩

/-- After every sequence of calls that keep the limit, list, chains and count of the cache agree: the
list is in order of expiration, the count is its length and not above the limit, an entry of the
list is in the chain of its PMKID, once, and in no other, and a search finds an entry exactly if the
list has one that matches. An entry that is added is then the only one of its station. -/
theorem pmksa_auth_cache_representation (evs : List PmksaAuthEvent) (c : PmksaAuthCache)
    (h : Run.Reach pmksaAuthStep KeepsLimit {} evs c) :
    SortedList.Sorted (·.expiration) c.pmksa ∧
    c.pmksaCount = c.pmksa.length ∧ c.pmksaCount ≤ pmksaAuthMaxEntries ∧
    (∀ hash e, e ∈ c.pmkid hash ↔ e ∈ c.pmksa ∧ pmkidHash e.pmkid = hash) ∧
    c.pmksa.Nodup ∧ (∀ hash, (c.pmkid hash).Nodup) ∧
    (∀ spa pmkid, (pmksaCacheAuthGet spa pmkid c).isSome ↔
      ∃ e ∈ c.pmksa, (∀ a, spa = some a → e.spa = a) ∧ ∀ i, pmkid = some i → e.pmkid = i) ∧
    (∀ d c', KeepsLimit c (.addEntry d) → pmksaAuthStep c (.addEntry d) = .ok c' →
      ∃ e ∈ c'.pmksa, e.toPmksaAuthData = d ∧ ∀ e' ∈ c'.pmksa, e'.spa = d.spa → e' = e) := by
  have hlinked := linked_of_reach h
  have hlimit : Linked c ∧ c.pmksaCount ≤ pmksaAuthMaxEntries := by
    refine h.invariant (I := fun c => Linked c ∧ c.pmksaCount ≤ pmksaAuthMaxEntries)
      ⟨linked_of_reach (C := KeepsLimit) .start, by decide⟩ ?_
    rintro c ev c' ⟨hl, hle⟩ hc hs
    exact ⟨hl.step hs, hl.limit_step hle hc hs⟩
  have hnodup : c.pmksa.Nodup :=
    hlinked.distinct.imp fun hne heq => hne (by rw [heq])
  refine ⟨hlinked.sorted, hlinked.count, hlimit.2, fun hash e => hlinked.indexed.mem_iff, hnodup, ?_,
    hlinked.get_isSome, fun d c' hc hs => hlinked.addEntry_only hc hs⟩
  intro hash
  exact (hlinked.indexed hash).nodup_iff.2 (hnodup.filter _)

/-- A station with a PMK, and its opportunistic entry for another AP. -/
def okcRun : List PmksaAuthEvent :=
  let d : PmksaAuthData :=
    { pmkid := [1], pmk := [7], expiration := 100, akmp := .ieee8021x, spa := [2, 0, 0, 0, 0, 1] }
  [.addEntry d, .addOkc d [2] {}]

theorem pmksa_auth_cache_representation_okc :
    ∃ c, Run.Reach pmksaAuthStep KeepsLimit {} okcRun c ∧ c.pmksaCount = 2 ∧
      c.pmksaCount = c.pmksa.length := by
  obtain ⟨c, hc, htwo⟩ := Run.reach_of_runWhile_any pmksaAuthStep KeepsLimit {} okcRun
    (fun c => c.pmksaCount == 2) (by decide +kernel)
  exact ⟨c, hc, by simpa using htwo, (pmksa_auth_cache_representation okcRun c hc).2.1⟩

/-- A new entry for the station replaces one of the two, and the other stays. -/
theorem okc_entry_not_replaced :
    ∃ c c' d, Run.Reach pmksaAuthStep Run.always {} okcRun c ∧
      pmksaAuthStep c (.addEntry d) = .ok c' ∧
      ∃ e ∈ c'.pmksa, e.spa = d.spa ∧ e.toPmksaAuthData ≠ d := by
  let d : PmksaAuthData :=
    { pmkid := [3], pmk := [8], expiration := 200, akmp := .ieee8021x, spa := [2, 0, 0, 0, 0, 1] }
  obtain ⟨c, hc, hold⟩ := Run.reach_of_runWhile_any pmksaAuthStep Run.always {} okcRun
    (fun c => (pmksaCacheAuthAddEntry (allocEntry d c).1 (allocEntry d c).2).pmksa.any fun e =>
      e.spa = d.spa && e.toPmksaAuthData ≠ d) (by decide +kernel)
  obtain ⟨e, he, hmatch⟩ := any_eq_true.1 hold
  rw [Bool.and_eq_true, decide_eq_true_eq, decide_eq_true_eq] at hmatch
  exact ⟨c, _, d, hc, rfl, e, he, hmatch⟩

/-! ## Expiry -/

theorem dropWhile_expired {l : List PmksaAuthEntry} (h : SortedList.Sorted (·.expiration) l) (now : Int) :
    l.dropWhile (fun e => e.expiration ≤ now) = l.filter fun e => now < e.expiration := by
  induction l with
  | nil => rfl
  | cons e l ih =>
    obtain ⟨hnext, hl⟩ := pairwise_cons.mp h
    rw [dropWhile_cons, filter_cons]
    by_cases hexp : e.expiration ≤ now
    · rw [if_pos (by simpa using hexp), if_neg (by simpa using hexp), ih hl]
    · rw [if_neg (by simpa using hexp), if_pos (by simpa using hexp)]
      refine congrArg (e :: ·) (filter_eq_self.mpr fun e' he' => ?_).symm
      simpa using (not_le.mp hexp).trans_le (hnext e' he')

theorem Linked.get_mem {c : PmksaAuthCache} (h : Linked c) {spa pmkid : Option Bytes} {e : PmksaAuthEntry}
    (hget : pmksaCacheAuthGet spa pmkid c = some e) : e ∈ c.pmksa := by
  unfold pmksaCacheAuthGet at hget
  cases pmkid with
  | none => exact mem_of_find?_eq_some hget
  | some i => exact (h.indexed.mem_iff.mp (mem_of_find?_eq_some hget)).1

/-- **Expiry.** In every cache that calls lead to, the handler takes out the entries that have expired and no
others: no search finds one of them then, and each that found one that has not still finds such a one. -/
theorem pmksa_auth_expire_exact {evs : List PmksaAuthEvent} {c : PmksaAuthCache}
    (h : Run.Reach pmksaAuthStep Run.always {} evs c) (now : Int) :
    (pmksaCacheExpire now c).pmksa = c.pmksa.filter (fun e => now < e.expiration) ∧
    (∀ spa pmkid e, pmksaCacheAuthGet spa pmkid (pmksaCacheExpire now c) = some e → now < e.expiration) ∧
    ∀ spa pmkid, (pmksaCacheAuthGet spa pmkid (pmksaCacheExpire now c)).isSome ↔
      ∃ e ∈ c.pmksa, now < e.expiration ∧
        (∀ a, spa = some a → e.spa = a) ∧ ∀ i, pmkid = some i → e.pmkid = i := by
  have hlinked := linked_of_reach h
  obtain ⟨hlinked', hlist⟩ : Linked (pmksaCacheExpire now c) ∧ (pmksaCacheExpire now c).pmksa = _ :=
    hlinked.freeWhile rfl
  rw [dropWhile_expired hlinked.sorted] at hlist
  refine ⟨hlist, fun spa pmkid e hget => ?_, fun spa pmkid => ?_⟩
  · have hmem := hlinked'.get_mem hget
    rw [hlist, mem_filter] at hmem
    exact of_decide_eq_true hmem.2
  · rw [hlinked'.get_isSome, hlist]
    simp only [mem_filter, decide_eq_true_eq, and_assoc]

/-- Both entries of the station have expired at second 100. -/
theorem pmksa_auth_expire_exact_okc :
    ∃ c, Run.Reach pmksaAuthStep Run.always {} okcRun c ∧ c.pmksaCount = 2 ∧
      (pmksaCacheAuthGet none none (pmksaCacheExpire 99 c)).isSome ∧
      ∀ e, pmksaCacheAuthGet none none (pmksaCacheExpire 100 c) = some e → 100 < e.expiration := by
  obtain ⟨c, hc, htwo⟩ := Run.reach_of_runWhile_any pmksaAuthStep Run.always {} okcRun
    (fun c => c.pmksaCount == 2 && c.pmksa.any (99 < ·.expiration)) (by decide +kernel)
  rw [Bool.and_eq_true, beq_iff_eq] at htwo
  obtain ⟨e, he, hlate⟩ := any_eq_true.1 htwo.2
  refine ⟨c, hc, htwo.1, ?_, (pmksa_auth_expire_exact hc 100).2.1 none none⟩
  exact ((pmksa_auth_expire_exact hc 99).2.2 none none).mpr ⟨e, he, of_decide_eq_true hlate, nofun, nofun⟩

end Hostap
