import Hostap.Lib.Chained
import Hostap.Lib.Octets
import Hostap.Lib.Run
import Mathlib.Data.List.Pairwise

/-!
# Station table of a BSS

The stations of a BSS are kept in four views: the list `sta_list`, the hash chains `sta_hash`, the
count `num_sta` and the bitmap of association identifiers `sta_aid`. They are changed in
`ap_sta_add()` and `ap_free_sta()` (`src/ap/sta_info.c`) and in `hostapd_get_aid()`
(`src/ap/ieee802_11.c`).

A station is known by its address in memory, `ptr`, which unlinking from the list compares; the hash
chain compares MAC addresses instead. That the two take out the same station is because a MAC
address is in the table once. A field that is written is written in the list and in the chain, which
hold the same object.

`TableInv` says that the views agree; `TableInv.step` is the step lemma.
-/

namespace Hostap

open Octets List

/-! ## The table -/

/-- `struct sta_info`, as far as the table is concerned. -/
structure StaEntry where
  ptr : Nat
  addr : Bytes
  aid : Nat := 0
  deriving DecidableEq, Repr

/-- `STA_HASH()`: the last octet of the address. -/
def staHash (addr : Bytes) : UInt8 := addr.getD 5 0

/-- `AID_WORDS`. -/
abbrev aidWords : Nat := (2008 + 31) / 32

/-- The table of `struct hostapd_data`; `nextPtr` is the address of the next station allocated. -/
structure StaTable where
  staList : List StaEntry := []
  staHash : UInt8 → List StaEntry := fun _ => []
  numSta : Int := 0
  staAid : Fin aidWords → BitVec 32 := fun _ => 0
  nextPtr : Nat := 0

/-- `BIT()`. -/
def bit32 (j : Nat) : BitVec 32 := 1#32 <<< j

/-! ## Operations -/

/-- `ap_get_sta()`. -/
def apGetSta (addr : Bytes) (t : StaTable) : Option StaEntry :=
  (t.staHash (staHash addr)).find? fun s => s.addr = addr

/-- `ap_sta_list_del()`. -/
def apStaListDel (sta : StaEntry) (t : StaTable) : StaTable :=
  { t with staList := t.staList.eraseP fun s => s.ptr = sta.ptr }

/-- `ap_sta_hash_add()`. -/
def apStaHashAdd (sta : StaEntry) (t : StaTable) : StaTable :=
  let hash := staHash sta.addr
  { t with staHash := Function.update t.staHash hash (sta :: t.staHash hash) }

/-- `ap_sta_hash_del()`: the first station of the chain with the MAC address is taken out. -/
def apStaHashDel (sta : StaEntry) (t : StaTable) : StaTable :=
  let hash := staHash sta.addr
  { t with
    staHash := Function.update t.staHash hash
      ((t.staHash hash).eraseP fun s => s.addr = sta.addr) }

/-- `ap_sta_add()`; `ok` is false when the allocation or `accounting_sta_get_id()` fails. -/
def apStaAdd (maxNumSta : Nat) (ok : Bool) (addr : Bytes) (t : StaTable) : StaTable :=
  match apGetSta addr t with
  | some _ => t
  | none =>
    if t.numSta ≥ maxNumSta ∨ ¬ ok then
      t
    else
      let sta : StaEntry := { ptr := t.nextPtr, addr := addr }
      apStaHashAdd sta { t with
        staList := sta :: t.staList
        numSta := t.numSta + 1
        nextPtr := t.nextPtr + 1 }

def aidWord (i : Nat) : Fin aidWords := Fin.ofNat _ (i / 32)

/-- `ap_free_sta()`. -/
def apFreeSta (sta : StaEntry) (t : StaTable) : StaTable :=
  let t := apStaListDel sta (apStaHashDel sta t)
  let word := aidWord (sta.aid - 1)
  { t with
    staAid := if 0 < sta.aid then
        Function.update t.staAid word (t.staAid word &&& ~~~ bit32 ((sta.aid - 1) % 32))
      else t.staAid
    numSta := t.numSta - 1 }

def clearBit (word : BitVec 32) : Option Nat := (List.range 32).find? fun j => !word.getLsbD j

/-- The loops of `hostapd_get_aid()`: the first word that is not full, and its first clear bit. -/
def findClear (staAid : Fin aidWords → BitVec 32) : Option (Fin aidWords × Nat) :=
  (List.finRange aidWords).findSome? fun i =>
    if staAid i = BitVec.allOnes 32 then none else (clearBit (staAid i)).map fun j => (i, j)

def withAid (ptr aid : Nat) (s : StaEntry) : StaEntry := if s.ptr = ptr then { s with aid := aid } else s

/-- The AID of a station is written, in the list and in its chain. -/
def setAid (ptr aid : Nat) (t : StaTable) : StaTable :=
  { t with
    staList := t.staList.map (withAid ptr aid)
    staHash := fun hash => (t.staHash hash).map (withAid ptr aid) }

/-- `hostapd_get_aid()`. -/
def hostapdGetAid (sta : StaEntry) (t : StaTable) : StaTable :=
  if 0 < sta.aid then
    t
  else
    match findClear t.staAid with
    | none => t
    | some (i, j) =>
      if i.val * 32 + j + 1 > 2007 then
        t
      else
        let t := setAid sta.ptr (i.val * 32 + j + 1) t
        { t with staAid := Function.update t.staAid i (t.staAid i ||| bit32 j) }

/-! ## Runs -/

/-- The calls; stations are passed by their addresses in memory. -/
inductive StaEvent
  | add (addr : Bytes) (ok : Bool)
  | getAid (ptr : Nat)
  | free (ptr : Nat)

/-- Why a run stops. -/
inductive StaFault
  /-- The address is that of no station. -/
  | dangling

def staStep (maxNumSta : Nat) (t : StaTable) : StaEvent → Except StaFault StaTable
  | .add addr ok => .ok (apStaAdd maxNumSta ok addr t)
  | .getAid ptr =>
    match t.staList.find? fun s => s.ptr = ptr with
    | some sta => .ok (hostapdGetAid sta t)
    | none => .error .dangling
  | .free ptr =>
    match t.staList.find? fun s => s.ptr = ptr with
    | some sta => .ok (apFreeSta sta t)
    | none => .error .dangling

/-! ## The bitmap -/

abbrev aidBits : Nat := aidWords * 32

def aidBit (staAid : Fin aidWords → BitVec 32) (k : Nat) : Bool :=
  (staAid (aidWord k)).getLsbD (k % 32)

theorem getLsbD_bit32 {j b : Nat} (hb : b < 32) : (bit32 j).getLsbD b = decide (b = j) := by
  unfold bit32
  rw [BitVec.getLsbD_shiftLeft, BitVec.getLsbD_one]
  by_cases hlt : b < j
  · have hne : b ≠ j := by omega
    simp [hlt, hne]
  · by_cases heq : b = j
    · subst heq
      simp [hb]
    · have hsub : b - j ≠ 0 := by omega
      simp [heq, hsub]

theorem aidWord_eq {i : Fin aidWords} {j k : Nat} (hj : j < 32) (hk : k < aidBits) :
    aidWord k = i ∧ k % 32 = j ↔ k = i.val * 32 + j := by
  have hword : k / 32 < aidWords := Nat.div_lt_of_lt_mul (by rw [Nat.mul_comm]; exact hk)
  have hval : (aidWord k).val = k / 32 := by
    unfold aidWord
    rw [Fin.val_ofNat]
    exact Nat.mod_eq_of_lt hword
  rw [Fin.ext_iff, hval]
  constructor
  · rintro ⟨h₁, h₂⟩
    omega
  · rintro rfl
    omega

theorem aidBit_set (staAid : Fin aidWords → BitVec 32) (i : Fin aidWords) {j k : Nat} (hj : j < 32)
    (hk : k < aidBits) :
    aidBit (Function.update staAid i (staAid i ||| bit32 j)) k =
      (aidBit staAid k || decide (k = i.val * 32 + j)) := by
  have hiff := aidWord_eq (i := i) hj hk
  unfold aidBit
  by_cases hi : aidWord k = i
  · rw [hi, Function.update_self, BitVec.getLsbD_or, getLsbD_bit32 (by omega)]
    congr 1
    rw [decide_eq_decide, ← hiff]
    simp [hi]
  · rw [Function.update_of_ne hi]
    have hne : k ≠ i.val * 32 + j := fun h => hi (hiff.2 h).1
    simp [hne]

theorem aidBit_clear (staAid : Fin aidWords → BitVec 32) (i : Fin aidWords) {j k : Nat} (hj : j < 32)
    (hk : k < aidBits) :
    aidBit (Function.update staAid i (staAid i &&& ~~~ bit32 j)) k =
      (aidBit staAid k && decide (k ≠ i.val * 32 + j)) := by
  have hiff := aidWord_eq (i := i) hj hk
  have hlt : k % 32 < 32 := by omega
  unfold aidBit
  by_cases hi : aidWord k = i
  · rw [hi, Function.update_self, BitVec.getLsbD_and, BitVec.getLsbD_not, getLsbD_bit32 hlt]
    have hdec : decide (k % 32 = j) = decide (k = i.val * 32 + j) := by
      rw [decide_eq_decide, ← hiff]
      simp [hi]
    simp only [hdec, hlt, decide_true, Bool.true_and, ne_eq, decide_not]
  · rw [Function.update_of_ne hi]
    have hne : k ≠ i.val * 32 + j := fun h => hi (hiff.2 h).1
    simp [hne]

theorem findClear_spec {staAid : Fin aidWords → BitVec 32} {i : Fin aidWords} {j : Nat}
    (h : findClear staAid = some (i, j)) : j < 32 ∧ (staAid i).getLsbD j = false := by
  obtain ⟨i', _, hi⟩ := exists_of_findSome?_eq_some h
  split at hi
  · cases hi
  · obtain ⟨j', hj, heq⟩ := Option.map_eq_some_iff.1 hi
    cases heq
    exact ⟨mem_range.1 (mem_of_find?_eq_some hj), by simpa using find?_some hj⟩

/-! ## The invariant -/

/-- The four views of the table agree. -/
structure TableInv (maxNumSta : Nat) (t : StaTable) : Prop where
  count : t.numSta = t.staList.length
  limit : t.numSta ≤ maxNumSta
  addrs : t.staList.Pairwise fun a b => a.addr ≠ b.addr
  ptrs : t.staList.Pairwise fun a b => a.ptr ≠ b.ptr
  fresh : ∀ s ∈ t.staList, s.ptr < t.nextPtr
  indexed : Chained.Indexes (fun s => staHash s.addr) t.staHash t.staList
  aidRange : ∀ s ∈ t.staList, s.aid ≤ 2007
  aidOne : t.staList.Pairwise fun a b => 0 < a.aid → a.aid ≠ b.aid
  bitmap : ∀ k < aidBits, aidBit t.staAid k = true ↔ ∃ s ∈ t.staList, s.aid = k + 1

section Inv

variable {maxNumSta : Nat} {t t' : StaTable} {sta : StaEntry}

theorem TableInv.eq_of_ptr (h : TableInv maxNumSta t) {a b : StaEntry} (ha : a ∈ t.staList)
    (hb : b ∈ t.staList) (heq : a.ptr = b.ptr) : a = b := by
  have hsymm : Std.Symm fun a b : StaEntry => a.ptr ≠ b.ptr := ⟨fun _ _ h => h.symm⟩
  by_contra hne
  exact h.ptrs.forall ha hb hne heq

theorem TableInv.eq_of_addr (h : TableInv maxNumSta t) {a b : StaEntry} (ha : a ∈ t.staList)
    (hb : b ∈ t.staList) (heq : a.addr = b.addr) : a = b := by
  have hsymm : Std.Symm fun a b : StaEntry => a.addr ≠ b.addr := ⟨fun _ _ h => h.symm⟩
  by_contra hne
  exact h.addrs.forall ha hb hne heq

theorem TableInv.eq_of_aid (h : TableInv maxNumSta t) {a b : StaEntry} (ha : a ∈ t.staList)
    (hb : b ∈ t.staList) (hpos : 0 < a.aid) (heq : a.aid = b.aid) : a = b := by
  have hsymm : Std.Symm fun a b : StaEntry => 0 < a.aid → a.aid ≠ b.aid :=
    ⟨fun _ _ h hpos heq => h (heq ▸ hpos) heq.symm⟩
  by_contra hne
  exact h.aidOne.forall ha hb hne hpos heq

theorem TableInv.get (h : TableInv maxNumSta t) (addr : Bytes) (s : StaEntry) :
    apGetSta addr t = some s ↔ s ∈ t.staList ∧ s.addr = addr := by
  unfold apGetSta
  constructor
  · intro hget
    have hmem := mem_of_find?_eq_some hget
    exact ⟨(h.indexed.mem_iff.1 hmem).1, by simpa using find?_some hget⟩
  · rintro ⟨hmem, rfl⟩
    have hchain : s ∈ t.staHash (staHash s.addr) := h.indexed.mem_iff.2 ⟨hmem, rfl⟩
    cases hfind : (t.staHash (staHash s.addr)).find? fun s' => decide (s'.addr = s.addr) with
    | none => exact absurd (decide_eq_true rfl) (find?_eq_none.1 hfind s hchain)
    | some s' =>
      have hmem' := (h.indexed.mem_iff.1 (mem_of_find?_eq_some hfind)).1
      have haddr : s'.addr = s.addr := by simpa using find?_some hfind
      rw [h.eq_of_addr hmem' hmem haddr]

theorem TableInv.add (h : TableInv maxNumSta t) (ok : Bool) (addr : Bytes) :
    TableInv maxNumSta (apStaAdd maxNumSta ok addr t) := by
  unfold apStaAdd
  split
  · exact h
  · rename_i hnone
    split
    · exact h
    · rename_i hroom
      have hnew : ∀ s ∈ t.staList, s.addr ≠ addr := by
        intro s hs haddr
        have := (h.get addr s).2 ⟨hs, haddr⟩
        rw [hnone] at this
        cases this
      refine ⟨?_, ?_, ?_, ?_, ?_, ?_, ?_, ?_, ?_⟩
      · have hcount := h.count
        simp only [apStaHashAdd, length_cons]
        omega
      · simp only [apStaHashAdd]
        omega
      · exact pairwise_cons.2 ⟨fun s hs => (hnew s hs).symm, h.addrs⟩
      · exact pairwise_cons.2 ⟨fun s hs => (Nat.ne_of_lt (h.fresh s hs)).symm, h.ptrs⟩
      · intro s hs
        rcases mem_cons.1 hs with rfl | hs
        · exact Nat.lt_succ_self _
        · exact Nat.lt_succ_of_lt (h.fresh s hs)
      · exact h.indexed.push (.refl _)
      · intro s hs
        rcases mem_cons.1 hs with rfl | hs
        · exact Nat.zero_le _
        · exact h.aidRange s hs
      · exact pairwise_cons.2 ⟨fun s hs hpos => absurd hpos (Nat.lt_irrefl 0), h.aidOne⟩
      · intro k hk
        refine (h.bitmap k hk).trans ?_
        constructor
        · rintro ⟨s, hs, haid⟩
          exact ⟨s, mem_cons_of_mem _ hs, haid⟩
        · rintro ⟨s, hs, haid⟩
          rcases mem_cons.1 hs with rfl | hs
          · exact absurd haid (Nat.succ_ne_zero k).symm
          · exact ⟨s, hs, haid⟩

theorem TableInv.free (h : TableInv maxNumSta t) (hmem : sta ∈ t.staList) :
    TableInv maxNumSta (apFreeSta sta t) := by
  have hperm : t.staList.Perm (sta :: (apFreeSta sta t).staList) :=
    Chained.perm_cons_eraseP hmem (by simp) fun b hb heq => h.eq_of_ptr hb hmem (by simpa using heq)
  have hsub : List.Sublist (apFreeSta sta t).staList t.staList := eraseP_sublist
  have hin : ∀ s ∈ t.staList, s = sta ∨ s ∈ (apFreeSta sta t).staList := by
    intro s hs
    exact mem_cons.1 (hperm.mem_iff.1 hs)
  have hout : sta ∉ (apFreeSta sta t).staList := by
    have hnodup : t.staList.Nodup := h.ptrs.imp fun hne heq => hne (by rw [heq])
    exact (nodup_cons.1 (hperm.nodup_iff.1 hnodup)).1
  refine ⟨?_, ?_, h.addrs.sublist hsub, h.ptrs.sublist hsub, fun s hs => h.fresh s (hsub.subset hs),
    ?_, fun s hs => h.aidRange s (hsub.subset hs), h.aidOne.sublist hsub, ?_⟩
  · have hlen := hperm.length_eq
    have hcount := h.count
    have hnum : (apFreeSta sta t).numSta = t.numSta - 1 := rfl
    rw [length_cons] at hlen
    omega
  · have hlimit := h.limit
    have hnum : (apFreeSta sta t).numSta = t.numSta - 1 := rfl
    omega
  · have hchain : sta ∈ t.staHash (staHash sta.addr) := h.indexed.mem_iff.2 ⟨hmem, rfl⟩
    refine h.indexed.unlink hperm ?_
    refine Chained.perm_cons_eraseP hchain (by simp) fun b hb heq => ?_
    exact h.eq_of_addr (h.indexed.mem_iff.1 hb).1 hmem (by simpa using heq)
  · intro k hk
    have hbit : aidBit (apFreeSta sta t).staAid k = true ↔
        aidBit t.staAid k = true ∧ sta.aid ≠ k + 1 := by
      by_cases hpos : 0 < sta.aid
      · have hrange := h.aidRange sta hmem
        have hword := (aidWord_eq (i := aidWord (sta.aid - 1)) (j := (sta.aid - 1) % 32)
          (k := sta.aid - 1) (by omega) (by unfold aidBits aidWords; omega)).1 ⟨rfl, rfl⟩
        have hclear := aidBit_clear t.staAid (aidWord (sta.aid - 1)) (j := (sta.aid - 1) % 32)
          (by omega) hk
        have heq : (apFreeSta sta t).staAid = Function.update t.staAid (aidWord (sta.aid - 1))
            (t.staAid (aidWord (sta.aid - 1)) &&& ~~~ bit32 ((sta.aid - 1) % 32)) := if_pos hpos
        rw [heq, hclear, Bool.and_eq_true, decide_eq_true_eq, ← hword]
        constructor
        · rintro ⟨h₁, h₂⟩
          exact ⟨h₁, by omega⟩
        · rintro ⟨h₁, h₂⟩
          exact ⟨h₁, by omega⟩
      · have heq : (apFreeSta sta t).staAid = t.staAid := if_neg hpos
        rw [heq]
        constructor
        · intro h₁
          exact ⟨h₁, by omega⟩
        · exact And.left
    rw [hbit, h.bitmap k hk]
    constructor
    · rintro ⟨⟨s, hs, haid⟩, hne⟩
      rcases hin s hs with rfl | hs
      · exact absurd haid hne
      · exact ⟨s, hs, haid⟩
    · rintro ⟨s, hs, haid⟩
      refine ⟨⟨s, hsub.subset hs, haid⟩, ?_⟩
      -- another station has the AID, so the one that is freed has not
      intro hsame
      have := h.eq_of_aid (hsub.subset hs) hmem (by omega) (haid.trans hsame.symm)
      exact hout (this ▸ hs)

theorem withAid_addr {ptr aid : Nat} (s : StaEntry) : (withAid ptr aid s).addr = s.addr := by
  unfold withAid
  split <;> rfl

theorem withAid_ptr {ptr aid : Nat} (s : StaEntry) : (withAid ptr aid s).ptr = s.ptr := by
  unfold withAid
  split <;> rfl

theorem TableInv.withAid_aid (h : TableInv maxNumSta t) (hmem : sta ∈ t.staList) (aid : Nat) :
    (withAid sta.ptr aid sta).aid = aid ∧
      ∀ s ∈ t.staList, s ≠ sta → (withAid sta.ptr aid s).aid = s.aid := by
  constructor
  · simp [withAid]
  · intro s hs hne
    unfold withAid
    rw [if_neg fun hptr => hne (h.eq_of_ptr hs hmem hptr)]

theorem TableInv.setAid (h : TableInv maxNumSta t) (hmem : sta ∈ t.staList) (hzero : sta.aid = 0)
    {i : Fin aidWords} {j : Nat} (hj : j < 32) (hclear : (t.staAid i).getLsbD j = false)
    (hrange : i.val * 32 + j + 1 ≤ 2007) :
    TableInv maxNumSta { Hostap.setAid sta.ptr (i.val * 32 + j + 1) t with
      staAid := Function.update t.staAid i (t.staAid i ||| bit32 j) } := by
  have hk : i.val * 32 + j < aidBits := by
    have := i.isLt
    unfold aidBits
    omega
  have hbit : aidBit t.staAid (i.val * 32 + j) = false := by
    obtain ⟨hw, hb⟩ := (aidWord_eq (i := i) hj hk).2 rfl
    unfold aidBit
    rw [hw, hb]
    exact hclear
  have hfree : ∀ s ∈ t.staList, s.aid ≠ i.val * 32 + j + 1 := by
    intro s hs haid
    rw [(h.bitmap _ hk).2 ⟨s, hs, haid⟩] at hbit
    cases hbit
  obtain ⟨hnew, hold⟩ := h.withAid_aid hmem (i.val * 32 + j + 1)
  have haid : ∀ s ∈ t.staList, (withAid sta.ptr (i.val * 32 + j + 1) s).aid =
      if s = sta then i.val * 32 + j + 1 else s.aid := by
    intro s hs
    split
    · rename_i heq
      rw [heq]
      exact hnew
    · rename_i hne
      exact hold s hs hne
  refine ⟨?_, h.limit, ?_, ?_, ?_, ?_, ?_, ?_, ?_⟩
  · show t.numSta = (t.staList.map _).length
    rw [length_map]
    exact h.count
  · refine pairwise_map.2 (h.addrs.imp fun hne => ?_)
    rw [withAid_addr, withAid_addr]
    exact hne
  · refine pairwise_map.2 (h.ptrs.imp fun hne => ?_)
    rw [withAid_ptr, withAid_ptr]
    exact hne
  · intro s hs
    obtain ⟨s', hs', rfl⟩ := mem_map.1 hs
    rw [withAid_ptr]
    exact h.fresh s' hs'
  · exact h.indexed.map fun s => by rw [withAid_addr]
  · intro s hs
    obtain ⟨s', hs', rfl⟩ := mem_map.1 hs
    rw [haid s' hs']
    split
    · exact hrange
    · exact h.aidRange s' hs'
  · refine pairwise_map.2 ?_
    refine (h.aidOne.and h.ptrs).imp_of_mem ?_
    rintro a b ha hb ⟨hone, hptr⟩ hpos
    rw [haid a ha] at hpos ⊢
    rw [haid b hb]
    split
    · rename_i heq
      rw [if_neg fun hb' => hptr (by rw [heq, hb'])]
      exact (hfree b hb).symm
    · rename_i hne
      rw [if_neg hne] at hpos
      split
      · exact hfree a ha
      · exact hone hpos
  · intro k hk'
    rw [aidBit_set t.staAid i hj hk', Bool.or_eq_true, decide_eq_true_eq, h.bitmap k hk']
    constructor
    · rintro (⟨s, hs, hsaid⟩ | rfl)
      · refine ⟨_, mem_map_of_mem hs, ?_⟩
        rw [hold s hs fun heq => by rw [heq, hzero] at hsaid; cases hsaid]
        exact hsaid
      · exact ⟨_, mem_map_of_mem hmem, hnew⟩
    · rintro ⟨s, hs, hsaid⟩
      obtain ⟨s', hs', rfl⟩ := mem_map.1 hs
      rw [haid s' hs'] at hsaid
      split at hsaid
      · exact .inr (by omega)
      · exact .inl ⟨s', hs', hsaid⟩

theorem TableInv.getAid (h : TableInv maxNumSta t) (hmem : sta ∈ t.staList) :
    TableInv maxNumSta (hostapdGetAid sta t) := by
  unfold hostapdGetAid
  split
  · exact h
  · rename_i hzero
    split
    · exact h
    · rename_i i j hfind
      obtain ⟨hj, hclear⟩ := findClear_spec hfind
      split
      · exact h
      · rename_i hrange
        exact h.setAid hmem (by omega) hj hclear (by omega)

theorem TableInv.step {ev : StaEvent} (h : TableInv maxNumSta t)
    (hs : staStep maxNumSta t ev = .ok t') : TableInv maxNumSta t' := by
  cases ev with
  | add addr ok =>
    cases hs
    exact h.add ok addr
  | getAid ptr =>
    simp only [staStep] at hs
    split at hs
    · rename_i sta hfind
      cases hs
      exact h.getAid (mem_of_find?_eq_some hfind)
    · cases hs
  | free ptr =>
    simp only [staStep] at hs
    split at hs
    · rename_i sta hfind
      cases hs
      exact h.free (mem_of_find?_eq_some hfind)
    · cases hs

end Inv

theorem tableInv_of_reach {maxNumSta : Nat} {evs : List StaEvent} {t : StaTable}
    (h : Run.Reach (staStep maxNumSta) Run.always {} evs t) : TableInv maxNumSta t := by
  refine h.invariant ?_ fun t ev t' hinv _ hs => hinv.step hs
  refine ⟨rfl, Int.natCast_nonneg _, .nil, .nil, by simp, fun _ => .refl _, by simp, .nil, ?_⟩
  intro k _
  simp [aidBit]

/-- After every sequence of `ap_sta_add()`, `hostapd_get_aid()` and `ap_free_sta()` calls the views of
the table agree. -/
theorem sta_table_consistent (maxNumSta : Nat) (evs : List StaEvent) (t : StaTable)
    (h : Run.Reach (staStep maxNumSta) Run.always {} evs t) :
    t.staList.Pairwise (fun a b => a.addr ≠ b.addr) ∧
    t.numSta = t.staList.length ∧ t.numSta ≤ maxNumSta ∧
    (∀ hash s, s ∈ t.staHash hash ↔ s ∈ t.staList ∧ staHash s.addr = hash) ∧
    (∀ hash, (t.staHash hash).Nodup) ∧
    (∀ addr s, apGetSta addr t = some s ↔ s ∈ t.staList ∧ s.addr = addr) ∧
    (∀ s ∈ t.staList, s.aid ≠ 0 → 1 ≤ s.aid ∧ s.aid ≤ 2007) ∧
    (∀ a ∈ t.staList, ∀ b ∈ t.staList, a.aid ≠ 0 → a.aid = b.aid → a = b) ∧
    (∀ aid, 1 ≤ aid → aid ≤ aidBits →
      ((t.staAid (aidWord (aid - 1))).getLsbD ((aid - 1) % 32) = true ↔
        ∃ s ∈ t.staList, s.aid = aid)) := by
  have hinv := tableInv_of_reach h
  have hnodup : t.staList.Nodup := hinv.ptrs.imp fun hne heq => hne (by rw [heq])
  refine ⟨hinv.addrs, hinv.count, hinv.limit, fun hash s => hinv.indexed.mem_iff, ?_, hinv.get, ?_, ?_,
    ?_⟩
  · intro hash
    exact (hinv.indexed hash).nodup_iff.2 (hnodup.filter _)
  · intro s hs hne
    exact ⟨Nat.pos_of_ne_zero hne, hinv.aidRange s hs⟩
  · intro a ha b hb hne heq
    exact hinv.eq_of_aid ha hb (Nat.pos_of_ne_zero hne) heq
  · intro aid hpos hle
    have hk : aid - 1 < aidBits := by omega
    have hbit := hinv.bitmap (aid - 1) hk
    rw [Nat.sub_add_cancel hpos] at hbit
    exact hbit

theorem sta_table_consistent_small :
    ∃ t, Run.Reach (staStep 5) Run.always {} [.add [0, 0, 0, 0, 0, 1] true,
        .add [0, 0, 0, 0, 0, 2] true, .getAid 0, .getAid 1, .free 0] t ∧
      t.staList = [{ ptr := 1, addr := [0, 0, 0, 0, 0, 2], aid := 2 }] ∧
      apGetSta [0, 0, 0, 0, 0, 2] t = some { ptr := 1, addr := [0, 0, 0, 0, 0, 2], aid := 2 } := by
  obtain ⟨t, ht, hlist⟩ := Run.reach_of_runWhile_any (staStep 5) Run.always {}
    [.add [0, 0, 0, 0, 0, 1] true, .add [0, 0, 0, 0, 0, 2] true, .getAid 0, .getAid 1, .free 0]
    (fun t => t.staList = [{ ptr := 1, addr := [0, 0, 0, 0, 0, 2], aid := 2 }]) (by decide +kernel)
  have hlist' := of_decide_eq_true hlist
  obtain ⟨_, _, _, _, _, hget, _⟩ := sta_table_consistent 5 _ t ht
  exact ⟨t, ht, hlist', (hget _ _).2 ⟨by rw [hlist']; simp, rfl⟩⟩

end Hostap
