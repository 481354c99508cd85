import Hostap.Bss.Table
import Hostap.Lib.Run
import Mathlib.Data.List.Basic
import Mathlib.Data.List.Find
import Mathlib.Data.List.Nodup

/-!
# The views of the BSS table agree

The two lists, the count, the array of the last scan results, `current_bss` and the connect work are changed
in different places. `Consistent` is what they have in common after each operation, and `Inv` adds what
keeps it so.

An entry leaves the table by `wpa_bss_remove()` only, which takes it out of all views but `current_bss`; and
an entry changes its address in `wpa_bss_update()` only, which is a renaming of the addresses in all views
(`Inv.rename`). So what has to be shown of each operation is that it does not remove the entry of
`current_bss`. All of them ask `wpa_bss_in_use()` but one: `wpa_bss_remove_oldest_unknown()`, which takes
any entry that no configured network has the SSID of. The entry of a network that is configured without an
SSID is such an entry while the station is connected to it.

The connect work is in the same position: `wpa_bss_update_pending_connect()` looks at one work, and two may
be queued.
-/

namespace Hostap

open Octets List

def BssNotify.isAdded : BssNotify → Bool
  | .bssAdded .. => true
  | .bssRemoved .. => false

namespace WpaSupplicant

/-! ## The invariant -/

def keyAt (w : WpaSupplicant) (p : Ptr) : Option (Bytes × Bytes) := (w.heap p).map fun bss => (bss.bssid,
    bss.ssid)

def idAt (w : WpaSupplicant) (p : Ptr) : Nat := ((w.heap p).map fun bss => bss.id.toNat).getD 0

def additions (w : WpaSupplicant) : Nat := w.notified.countP BssNotify.isAdded

def PendingConnect (w : WpaSupplicant) (cwork : WpaConnectWork) : Prop :=
  w.smeConnect = some cwork ∨ w.connect = some cwork

/-- The views of the table agree. -/
structure Consistent (w : WpaSupplicant) : Prop where
  nodup : w.bss.Nodup
  sameEntries : w.bssId.Perm w.bss
  allocated : ∀ p ∈ w.bss, (w.heap p).isSome
  count : w.numBss = w.bss.length
  atMost : w.numBss ≤ w.conf.bssMaxCount
  unique : ∀ p ∈ w.bss, ∀ q ∈ w.bss, w.keyAt p = w.keyAt q → p = q
  inOrder : w.additions < 2 ^ 32 → w.bssId.Pairwise fun p q => w.idAt p < w.idAt q
  scanResDistinct : w.lastScanRes.Nodup
  scanResEntries : ∀ p ∈ w.lastScanRes, p ∈ w.bss
  current : ∀ p, w.currentBss = some p → p ∈ w.bss
  pending : ∀ cwork, w.PendingConnect cwork → ∀ p, cwork.bss = some p → p ∈ w.bss

/-- The entries are different blocks, none of them freed, and the current one is among them. -/
structure Linked (w : WpaSupplicant) : Prop where
  nodup : w.bss.Nodup
  allocated : ∀ p ∈ w.bss, (w.heap p).isSome
  current : ∀ p, w.currentBss = some p → p ∈ w.bss

theorem Consistent.linked {w : WpaSupplicant} (h : Consistent w) : Linked w := ⟨h.nodup, h.allocated, h.current⟩

/-- The views agree, identifiers are below the next one and there is at most one connect work. -/
structure Inv (w : WpaSupplicant) : Prop extends Consistent w where
  idsBelow : w.additions < 2 ^ 32 → ∀ p ∈ w.bss, w.idAt p < w.additions
  oneConnect : w.smeConnect = none ∨ w.connect = none

def NextId (w : WpaSupplicant) : Prop := w.bssNextId.toNat = w.additions % 2 ^ 32

theorem Inv.frame {w w' : WpaSupplicant} (h : Inv w) (hheap : w'.heap = w.heap) (hbss : w'.bss = w.bss)
    (hbssId : w'.bssId = w.bssId) (hnum : w'.numBss = w.numBss)
    (hmax : w.conf.bssMaxCount ≤ w'.conf.bssMaxCount)
    (hscan : w'.lastScanRes = w.lastScanRes) (hcurrent : w'.currentBss = w.currentBss)
    (hsme : w'.smeConnect = w.smeConnect) (hconnect : w'.connect = w.connect)
    (hnotified : w'.notified = w.notified) :
    Inv w' := by
  have hadd : w'.additions = w.additions := by
    unfold additions
    rw [hnotified]
  have hid : w'.idAt = w.idAt := by
    unfold idAt
    rw [hheap]
  have hkey : w'.keyAt = w.keyAt := by
    unfold keyAt
    rw [hheap]
  have hpending : w'.PendingConnect = w.PendingConnect := by
    unfold PendingConnect
    rw [hsme, hconnect]
  constructor
  · constructor
    · rw [hbss]; exact h.nodup
    · rw [hbss, hbssId]; exact h.sameEntries
    · rw [hbss, hheap]; exact h.allocated
    · rw [hbss, hnum]; exact h.count
    · rw [hnum]; exact h.atMost.trans hmax
    · rw [hbss, hkey]; exact h.unique
    · rw [hadd, hbssId, hid]; exact h.inOrder
    · rw [hscan]; exact h.scanResDistinct
    · rw [hscan, hbss]; exact h.scanResEntries
    · rw [hcurrent, hbss]; exact h.current
    · rw [hpending, hbss]; exact h.pending
  · rw [hadd, hbss, hid]; exact h.idsBelow
  · rw [hsme, hconnect]; exact h.oneConnect

/-! ## Removing an entry -/

/-- What a table that got smaller has of the one before. -/
structure Shrinks (w w' : WpaSupplicant) : Prop where
  sublist : List.Sublist w'.bss w.bss
  kept : ∀ p, p ∈ w'.bss ∨ p ∉ w.bss → w'.heap p = w.heap p
  additions_eq : w'.additions = w.additions
  bssNextId : w'.bssNextId = w.bssNextId

theorem Shrinks.refl (w : WpaSupplicant) : Shrinks w w :=
  ⟨List.Sublist.refl _, fun _ _ => rfl, rfl, rfl⟩

theorem Shrinks.nextId {w w' : WpaSupplicant} (h : Shrinks w w') (hnext : NextId w) : NextId w' := by
  unfold NextId
  rw [h.bssNextId, h.additions_eq]
  exact hnext

theorem Inv.removed {w : WpaSupplicant} (h : Inv w) {p : Ptr} (hp : p ∈ w.bss)
    (hcurrent : w.currentBss ≠ some p) (bss : WpaBss) : Inv (w.removed p bss) := by
  have hmem : ∀ q, q ∈ w.bss.erase p ↔ q ≠ p ∧ q ∈ w.bss := fun q => h.nodup.mem_erase_iff
  have hheap : ∀ q, q ≠ p → (w.removed p bss).heap q = w.heap q := fun q hq => Function.update_of_ne hq ..
  have hkey : ∀ q, q ≠ p → (w.removed p bss).keyAt q = w.keyAt q := by
    intro q hq
    unfold keyAt
    rw [hheap q hq]
  have hid : ∀ q, q ≠ p → (w.removed p bss).idAt q = w.idAt q := by
    intro q hq
    unfold idAt
    rw [hheap q hq]
  have hadd : (w.removed p bss).additions = w.additions := by
    show (BssNotify.bssRemoved bss.bssid bss.id :: w.notified).countP BssNotify.isAdded = _
    rw [countP_cons_of_neg (by simp [BssNotify.isAdded])]
    rfl
  have hnodupId : w.bssId.Nodup := h.sameEntries.nodup_iff.2 h.nodup
  have hpos : 0 < w.bss.length := length_pos_of_mem hp
  constructor
  · constructor
    · exact h.nodup.erase p
    · exact h.sameEntries.erase p
    · intro q hq
      obtain ⟨hne, hq⟩ := (hmem q).1 hq
      rw [hheap q hne]
      exact h.allocated q hq
    · show w.numBss - 1 = (w.bss.erase p).length
      rw [length_erase_of_mem hp, h.count]
    · exact (Nat.sub_le _ _).trans h.atMost
    · intro q hq r hr heq
      obtain ⟨hqne, hq⟩ := (hmem q).1 hq
      obtain ⟨hrne, hr⟩ := (hmem r).1 hr
      rw [hkey q hqne, hkey r hrne] at heq
      exact h.unique q hq r hr heq
    · intro hlt
      rw [hadd] at hlt
      refine ((h.inOrder hlt).sublist erase_sublist).imp_of_mem ?_
      intro q r hq hr hltid
      rw [hid q (hnodupId.mem_erase_iff.1 hq).1, hid r (hnodupId.mem_erase_iff.1 hr).1]
      exact hltid
    · exact h.scanResDistinct.erase p
    · intro q hq
      obtain ⟨hne, hq⟩ := h.scanResDistinct.mem_erase_iff.1 hq
      exact (hmem q).2 ⟨hne, h.scanResEntries q hq⟩
    · intro q hq
      exact (hmem q).2 ⟨fun heq => hcurrent (heq ▸ hq), h.current q hq⟩
    · intro cwork hcwork q hq
      -- the work that is looked at is the only one
      have hupdated : ∃ cwork', w.PendingConnect cwork' ∧ cwork = updateConnectWork p none cwork' := by
        rcases hcwork with hsme | hconnect
        · obtain ⟨cwork', hcwork', rfl⟩ := Option.map_eq_some_iff.1
            (show w.smeConnect.map (updateConnectWork p none) = some cwork from hsme)
          exact ⟨cwork', Or.inl hcwork', rfl⟩
        · have hconnect : (if w.smeConnect.isSome then w.connect else w.connect.map (updateConnectWork p none)) =
            some cwork := hconnect
          rcases h.oneConnect with hnone | hnone
          · rw [hnone, if_neg (by decide)] at hconnect
            obtain ⟨cwork', hcwork', rfl⟩ := Option.map_eq_some_iff.1 hconnect
            exact ⟨cwork', Or.inr hcwork', rfl⟩
          · rw [hnone, Option.map_none, ite_self] at hconnect
            cases hconnect
      obtain ⟨cwork', hcwork', rfl⟩ := hupdated
      unfold updateConnectWork at hq
      split at hq
      · rename_i hne
        exact (hmem q).2 ⟨fun heq => hne (heq ▸ hq), h.pending cwork' hcwork' q hq⟩
      · cases hq
  · intro hlt q hq
    rw [hadd] at hlt ⊢
    obtain ⟨hne, hq⟩ := (hmem q).1 hq
    rw [hid q hne]
    exact h.idsBelow hlt q hq
  · rcases h.oneConnect with hnone | hnone
    · left
      show w.smeConnect.map _ = none
      rw [hnone]
      rfl
    · right
      show (if w.smeConnect.isSome then w.connect else w.connect.map _) = none
      rw [hnone, Option.map_none, ite_self]

theorem Inv.shrinks_removed {w : WpaSupplicant} (h : Inv w) {p : Ptr} (hp : p ∈ w.bss) (bss : WpaBss) :
    Shrinks w (w.removed p bss) := by
  refine ⟨erase_sublist, ?_, ?_, rfl⟩
  · intro q hq
    have hne : q ≠ p := by
      rintro rfl
      rcases hq with hq | hq
      · exact (h.nodup.mem_erase_iff.1 hq).1 rfl
      · exact hq hp
    exact Function.update_of_ne hne ..
  · show (BssNotify.bssRemoved bss.bssid bss.id :: w.notified).countP BssNotify.isAdded = _
    rw [countP_cons_of_neg (by simp [BssNotify.isAdded])]
    rfl

theorem Linked.deref {w : WpaSupplicant} (h : Linked w) {p : Ptr} (hp : p ∈ w.bss) :
    ∃ bss, w.heap p = some bss ∧ w.deref p = .ok bss := by
  obtain ⟨bss, hbss⟩ := Option.isSome_iff_exists.1 (h.allocated p hp)
  refine ⟨bss, hbss, ?_⟩
  unfold WpaSupplicant.deref
  rw [hbss]

theorem Consistent.deref {w : WpaSupplicant} (h : Consistent w) {p : Ptr} (hp : p ∈ w.bss) :
    ∃ bss, w.heap p = some bss ∧ w.deref p = .ok bss := h.linked.deref hp

theorem Inv.wpaBssRemove {w : WpaSupplicant} (h : Inv w) {p : Ptr} (hp : p ∈ w.bss)
    (hcurrent : w.currentBss ≠ some p) :
    ∃ w', w.wpaBssRemove p = .ok w' ∧ Inv w' ∧ Shrinks w w' ∧ w'.bss = w.bss.erase p ∧ w'.numBss =
    w.numBss - 1 ∧
      w'.conf = w.conf := by
  obtain ⟨bss, -, hderef⟩ := h.deref hp
  refine ⟨w.removed p bss, ?_, h.removed hp hcurrent bss, h.shrinks_removed hp bss, rfl, rfl, rfl⟩
  unfold WpaSupplicant.wpaBssRemove
  rw [hderef]
  rfl

/-! ## Searching -/

theorem findEntry_eq {w : WpaSupplicant} {test : Ptr → WpaBss → Except BssFault Bool} {f : Ptr → Bool}
    {ps : List Ptr} (htest : ∀ p ∈ ps, ∃ bss, w.heap p = some bss ∧ test p bss = .ok (f p)) :
    w.findEntry test ps = .ok (ps.find? f) := by
  induction ps with
  | nil => rfl
  | cons p ps ih =>
    obtain ⟨bss, hbss, hfound⟩ := htest p mem_cons_self
    have hrest := ih fun q hq => htest q (mem_cons_of_mem _ hq)
    simp only [findEntry, WpaSupplicant.deref, hbss, hfound, bind, Except.bind, hrest, find?_cons]
    cases f p <;> rfl

theorem Linked.wpaBssInUse {w : WpaSupplicant} (h : Linked w) {p : Ptr} (hp : p ∈ w.bss) :
    ∃ inUse, w.wpaBssInUse p = .ok inUse ∧ (inUse = false → w.currentBss ≠ some p) := by
  obtain ⟨bss, -, hderef⟩ := h.deref hp
  unfold WpaSupplicant.wpaBssInUse
  rw [hderef]
  simp only [bind, Except.bind]
  by_cases hcurrent : w.currentBss = some p
  · rw [if_pos hcurrent]
    exact ⟨true, rfl, by simp⟩
  · rw [if_neg hcurrent]
    cases hcur : w.currentBss with
    | none => exact ⟨_, rfl, fun _ => by simp⟩
    | some cur =>
      obtain ⟨current, -, hread⟩ := h.deref (h.current cur hcur)
      simp only [hread]
      split
      · exact ⟨false, rfl, fun _ => hcur ▸ hcurrent⟩
      · exact ⟨_, rfl, fun _ => hcur ▸ hcurrent⟩

theorem Consistent.wpaBssInUse {w : WpaSupplicant} (h : Consistent w) {p : Ptr} (hp : p ∈ w.bss) :
    ∃ inUse, w.wpaBssInUse p = .ok inUse ∧ (inUse = false → w.currentBss ≠ some p) := h.linked.wpaBssInUse hp

/-! ## Adding an entry -/

/-- The entry that `wpa_bss_remove_oldest_unknown()` takes. -/
def oldestUnknown (lib : WpsIeLib) (w : WpaSupplicant) : Option Ptr :=
  w.bss.find? fun p => (w.heap p).any fun bss => !w.wpaBssKnown bss && !wpaBssIsWpsCandidate lib w bss

theorem oldestUnknown_congr {lib : WpsIeLib} {w w' : WpaSupplicant} (hbss : w'.bss = w.bss)
    (hconf : w'.conf = w.conf)
    (hheap : ∀ p ∈ w.bss, w'.heap p = w.heap p) : oldestUnknown lib w' = oldestUnknown lib w := by
  unfold oldestUnknown wpaBssKnown wpaBssIsWpsCandidate
  rw [hbss, hconf]
  refine find?_congr fun p hp => ?_
  rw [hheap p hp]

theorem Inv.wpaBssRemoveOldestUnknown {lib : WpsIeLib} {w : WpaSupplicant} (h : Inv w)
    (hsafe : ∀ p, oldestUnknown lib w = some p → w.currentBss ≠ some p) :
    (oldestUnknown lib w = none ∧ wpaBssRemoveOldestUnknown lib w = .ok none) ∨
      ∃ w', wpaBssRemoveOldestUnknown lib w = .ok (some w') ∧ Inv w' ∧ Shrinks w w' ∧
        w'.bss.length + 1 = w.bss.length ∧ w'.conf = w.conf := by
  have hfind : w.findEntry (fun _ bss => .ok (!w.wpaBssKnown bss && !wpaBssIsWpsCandidate lib w bss)) w.bss =
      .ok (oldestUnknown lib w) := by
    refine findEntry_eq fun p hp => ?_
    obtain ⟨bss, hbss, -⟩ := h.deref hp
    refine ⟨bss, hbss, ?_⟩
    rw [hbss]
    rfl
  unfold WpaSupplicant.wpaBssRemoveOldestUnknown
  simp only [hfind, bind, Except.bind]
  cases hold : oldestUnknown lib w with
  | none => exact Or.inl ⟨rfl, rfl⟩
  | some p =>
    have hp : p ∈ w.bss := mem_of_find?_eq_some hold
    obtain ⟨w', hremove, hinv, hshrinks, hbss, -, hconf⟩ := h.wpaBssRemove hp (hsafe p hold)
    refine Or.inr ⟨w', ?_, hinv, hshrinks, ?_, hconf⟩
    · simp only [hremove]
    · have hpos : 0 < w.bss.length := length_pos_of_mem hp
      rw [hbss, length_erase_of_mem hp]
      omega

theorem Inv.wpaBssRemoveOldest {lib : WpsIeLib} {w : WpaSupplicant} (h : Inv w)
    (hsafe : ∀ p, oldestUnknown lib w = some p → w.currentBss ≠ some p) :
    wpaBssRemoveOldest lib w = .ok none ∨
      ∃ w', wpaBssRemoveOldest lib w = .ok (some w') ∧ Inv w' ∧ Shrinks w w' ∧
        w'.bss.length + 1 = w.bss.length ∧ w'.conf = w.conf := by
  unfold WpaSupplicant.wpaBssRemoveOldest
  rcases h.wpaBssRemoveOldestUnknown hsafe with ⟨-, hnone⟩ | ⟨w', hsome, hw'⟩
  · simp only [hnone, bind, Except.bind]
    -- the oldest entry that is not in use
    let unused : Ptr → Bool := fun p => decide (w.wpaBssInUse p = .ok false)
    have hfind : w.findEntry (fun p _ => (w.wpaBssInUse p).bind fun inUse => .ok !inUse) w.bss =
        .ok (w.bss.find? unused) := by
      refine findEntry_eq fun p hp => ?_
      obtain ⟨bss, hbss, -⟩ := h.deref hp
      obtain ⟨inUse, hinUse, -⟩ := h.wpaBssInUse hp
      refine ⟨bss, hbss, ?_⟩
      show ((w.wpaBssInUse p).bind fun inUse => .ok !inUse) = .ok (decide (w.wpaBssInUse p = .ok false))
      rw [hinUse]
      cases inUse <;> rfl
    unfold Except.bind at hfind
    rw [hfind]
    dsimp only
    cases hold : w.bss.find? unused with
    | none => exact Or.inl rfl
    | some p =>
      have hp : p ∈ w.bss := mem_of_find?_eq_some hold
      have hfound := find?_some hold
      have hunused : w.wpaBssInUse p = .ok false := of_decide_eq_true hfound
      obtain ⟨inUse, hinUse, hcurrent⟩ := h.wpaBssInUse hp
      rw [hunused] at hinUse
      cases hinUse
      obtain ⟨w', hremove, hinv, hshrinks, hbss, -, hconf⟩ := h.wpaBssRemove hp (hcurrent rfl)
      refine Or.inr ⟨w', ?_, hinv, hshrinks, ?_, hconf⟩
      · simp only [hremove]
      · have hpos : 0 < w.bss.length := length_pos_of_mem hp
        rw [hbss, length_erase_of_mem hp]
        omega
  · simp only [hsome, bind, Except.bind]
    exact Or.inr ⟨w', rfl, hw'⟩

theorem Inv.makeRoom (lib : WpsIeLib) {w : WpaSupplicant} (h : Inv w)
    (hsafe : w.conf.bssMaxCount < w.numBss + 1 → ∀ p, oldestUnknown lib w = some p → w.currentBss ≠ some p) :
    ∃ w', w.makeRoom lib = .ok w' ∧ Inv w' ∧ Shrinks w w' ∧ w'.numBss + 1 ≤ w'.conf.bssMaxCount := by
  unfold WpaSupplicant.makeRoom
  by_cases hfull : w.numBss + 1 > w.conf.bssMaxCount
  · rw [if_pos hfull]
    rcases h.wpaBssRemoveOldest (hsafe hfull) with hnone | ⟨w', hsome, hinv, hshrinks, hlen, hconf⟩
    · simp only [hnone, bind, Except.bind]
      refine ⟨_, rfl, h.frame rfl rfl rfl rfl ?_ rfl rfl rfl rfl rfl,
        ⟨List.Sublist.refl _, fun _ _ => rfl, rfl, rfl⟩, Nat.le_refl _⟩
      exact hfull.le
    · simp only [hsome, bind, Except.bind]
      refine ⟨w', rfl, hinv, hshrinks, ?_⟩
      have hcount := hinv.count
      have hcount' := h.count
      have hmost := h.atMost
      rw [hconf]
      omega
  · rw [if_neg hfull]
    exact ⟨w, rfl, h, Shrinks.refl w, by omega⟩

theorem Inv.append {w w' : WpaSupplicant} (h : Inv w) {p : Ptr} {bss : WpaBss} (hp : p ∉ w.bss)
    (hheap : w.heap p = some bss) (hkey : ∀ q ∈ w.bss, w.keyAt q ≠ w.keyAt p)
    (hid : w.additions < 2 ^ 32 → w.idAt p = w.additions) (hroom : w.numBss + 1 ≤ w.conf.bssMaxCount)
    (hw' : w' = { w with
      bss := w.bss ++ [p]
      bssId := w.bssId ++ [p]
      numBss := w.numBss + 1
      notified := .bssAdded bss.bssid bss.id :: w.notified }) : Inv w' := by
  have hmem : ∀ q, q ∈ w.bss ++ [p] ↔ q ∈ w.bss ∨ q = p := fun q => by
    rw [mem_append, mem_singleton]
  have hadd : w'.additions = w.additions + 1 := by
    rw [hw']
    exact countP_cons_of_pos rfl
  have hpId : p ∉ w.bssId := fun hmem => hp (h.sameEntries.mem_iff.1 hmem)
  constructor
  · constructor
    · rw [hw']
      exact nodup_append.2 ⟨h.nodup, nodup_singleton p, by
        rintro q hq r hr rfl
        exact hp (mem_singleton.1 hr ▸ hq)⟩
    · rw [hw']
      exact h.sameEntries.append_right [p]
    · rw [hw']
      intro q hq
      rcases (hmem q).1 hq with hq | rfl
      · exact h.allocated q hq
      · show (w.heap q).isSome
        rw [hheap]
        rfl
    · rw [hw']
      show w.numBss + 1 = (w.bss ++ [p]).length
      rw [length_append, h.count]
      rfl
    · rw [hw']
      exact hroom
    · rw [hw']
      intro q hq r hr heq
      rcases (hmem q).1 hq with hq' | hq'
      · rcases (hmem r).1 hr with hr' | hr'
        · exact h.unique q hq' r hr' heq
        · exact absurd (hr' ▸ heq) (hkey q hq')
      · rcases (hmem r).1 hr with hr' | hr'
        · exact absurd (hq' ▸ heq.symm) (hkey r hr')
        · rw [hq', hr']
    · intro hlt
      rw [hadd] at hlt
      have hlt' : w.additions < 2 ^ 32 := by omega
      rw [hw']
      refine pairwise_append.2 ⟨h.inOrder hlt', pairwise_singleton .., ?_⟩
      intro q hq r hr
      rw [mem_singleton.1 hr]
      show w.idAt q < w.idAt p
      rw [hid hlt']
      exact h.idsBelow hlt' q (h.sameEntries.mem_iff.1 hq)
    · rw [hw']
      exact h.scanResDistinct
    · rw [hw']
      exact fun q hq => (hmem q).2 (Or.inl (h.scanResEntries q hq))
    · rw [hw']
      exact fun q hq => (hmem q).2 (Or.inl (h.current q hq))
    · rw [hw']
      exact fun cwork hcwork q hq => (hmem q).2 (Or.inl (h.pending cwork hcwork q hq))
  · intro hlt q hq
    rw [hadd] at hlt ⊢
    have hlt' : w.additions < 2 ^ 32 := by omega
    rw [hw'] at hq ⊢
    show w.idAt q < w.additions + 1
    rcases (hmem q).1 hq with hq | rfl
    · have hbelow := h.idsBelow hlt' q hq
      omega
    · rw [hid hlt']
      omega
  · rw [hw']
    exact h.oneConnect

theorem Inv.addToScanRes {w : WpaSupplicant} (h : Inv w) {p : Ptr} (hp : p ∈ w.bss) (hnew : p ∉ w.lastScanRes)
    (grow : Bool) : Inv (w.addToScanRes p grow) ∧ (NextId w → NextId (w.addToScanRes p grow)) := by
  have hpush : ∀ size, Inv { w with lastScanResSize := size, lastScanRes := w.lastScanRes ++ [p] } := by
    intro size
    exact
      { nodup := h.nodup
        sameEntries := h.sameEntries
        allocated := h.allocated
        count := h.count
        atMost := h.atMost
        unique := h.unique
        inOrder := h.inOrder
        scanResDistinct := nodup_append.2 ⟨h.scanResDistinct, nodup_singleton p, by
          rintro q hq r hr rfl
          exact hnew (mem_singleton.1 hr ▸ hq)⟩
        scanResEntries := by
          intro q hq
          rcases mem_append.1 hq with hq | hq
          · exact h.scanResEntries q hq
          · exact mem_singleton.1 hq ▸ hp
        current := h.current
        pending := h.pending
        idsBelow := h.idsBelow
        oneConnect := h.oneConnect }
  unfold WpaSupplicant.addToScanRes
  split
  · split
    · exact ⟨h, id⟩
    · exact ⟨hpush _, id⟩
  · exact ⟨hpush _, id⟩

/-! ## Updating an entry -/

def moved (old new p : Ptr) : Ptr := if p = old then new else p

theorem replace_eq_map {l : List Ptr} (h : l.Nodup) (old new : Ptr) : l.replace old new = l.map
    (moved old new) := by
  induction l with
  | nil => rfl
  | cons p ps ih =>
    obtain ⟨hnot, hnodup⟩ := nodup_cons.1 h
    rw [replace_cons, map_cons]
    by_cases hp : p = old
    · have hrest : ps.map (moved old new) = ps := by
        rw [map_congr_left (g := id), map_id]
        intro q hq
        have hne : q ≠ old := fun heq => hnot (hp ▸ heq ▸ hq)
        exact if_neg hne
      have heq : (old == p) = true := beq_iff_eq.2 hp.symm
      rw [hrest, heq, moved, if_pos hp]
    · have hne : (old == p) = false := beq_eq_false_iff_ne.2 (Ne.symm hp)
      rw [ih hnodup, hne, moved, if_neg hp]

theorem Inv.rename {w w' : WpaSupplicant} (h : Inv w) (σ : Ptr → Ptr)
    (hinj : ∀ p ∈ w.bss, ∀ q ∈ w.bss, σ p = σ q → p = q)
    (hheap : ∀ p ∈ w.bss, ∃ bss bss', w.heap p = some bss ∧ w'.heap (σ p) = some bss' ∧
      bss'.bssid = bss.bssid ∧ bss'.ssid = bss.ssid ∧ bss'.id = bss.id)
    (hbss : w'.bss.Perm (w.bss.map σ)) (hbssId : w'.bssId = w.bssId.map σ) (hnum : w'.numBss = w.numBss)
    (hmax : w'.conf.bssMaxCount = w.conf.bssMaxCount) (hscan : w'.lastScanRes = w.lastScanRes.map σ)
    (hcurrent : w'.currentBss = w.currentBss.map σ)
    (hpending : ∀ cwork', w'.PendingConnect cwork' → ∃ cwork, w.PendingConnect cwork ∧
    cwork'.bss = cwork.bss.map σ)
    (hone : w'.smeConnect = none ∨ w'.connect = none) (hnotified : w'.notified = w.notified) : Inv w' := by
  have hmem : ∀ q, q ∈ w'.bss ↔ ∃ p ∈ w.bss, σ p = q := fun q => by
    rw [hbss.mem_iff, mem_map]
  have hadd : w'.additions = w.additions := by
    unfold additions
    rw [hnotified]
  have hkey : ∀ p ∈ w.bss, w'.keyAt (σ p) = w.keyAt p := by
    intro p hp
    obtain ⟨bss, bss', hb, hb', hbssid, hssid, -⟩ := hheap p hp
    unfold keyAt
    rw [hb, hb', Option.map_some, Option.map_some, hbssid, hssid]
  have hid : ∀ p ∈ w.bss, w'.idAt (σ p) = w.idAt p := by
    intro p hp
    obtain ⟨bss, bss', hb, hb', -, -, hid⟩ := hheap p hp
    unfold idAt
    rw [hb, hb', Option.map_some, Option.map_some, hid]
  constructor
  · constructor
    · refine hbss.nodup_iff.2 (h.nodup.map_on ?_)
      intro p hp q hq heq
      exact hinj p hp q hq heq
    · rw [hbssId]
      exact (h.sameEntries.map σ).trans hbss.symm
    · intro q hq
      obtain ⟨p, hp, rfl⟩ := (hmem q).1 hq
      obtain ⟨bss, bss', -, hb', -⟩ := hheap p hp
      rw [hb']
      rfl
    · rw [hnum, hbss.length_eq, length_map, h.count]
    · rw [hnum, hmax]
      exact h.atMost
    · intro q hq r hr heq
      obtain ⟨p, hp, rfl⟩ := (hmem q).1 hq
      obtain ⟨p', hp', rfl⟩ := (hmem r).1 hr
      rw [hkey p hp, hkey p' hp'] at heq
      rw [h.unique p hp p' hp' heq]
    · intro hlt
      rw [hadd] at hlt
      rw [hbssId]
      refine pairwise_map.2 ((h.inOrder hlt).imp_of_mem ?_)
      intro p q hp hq hltid
      rw [hid p (h.sameEntries.mem_iff.1 hp), hid q (h.sameEntries.mem_iff.1 hq)]
      exact hltid
    · rw [hscan]
      refine h.scanResDistinct.map_on ?_
      intro p hp q hq heq
      exact hinj p (h.scanResEntries p hp) q (h.scanResEntries q hq) heq
    · intro q hq
      rw [hscan, mem_map] at hq
      obtain ⟨p, hp, rfl⟩ := hq
      exact (hmem _).2 ⟨p, h.scanResEntries p hp, rfl⟩
    · intro q hq
      rw [hcurrent] at hq
      obtain ⟨p, hp, rfl⟩ := Option.map_eq_some_iff.1 hq
      exact (hmem _).2 ⟨p, h.current p hp, rfl⟩
    · intro cwork' hcwork' q hq
      obtain ⟨cwork, hcwork, heq⟩ := hpending cwork' hcwork'
      rw [heq] at hq
      obtain ⟨p, hp, rfl⟩ := Option.map_eq_some_iff.1 hq
      exact (hmem _).2 ⟨p, h.pending cwork hcwork p hp, rfl⟩
  · intro hlt q hq
    rw [hadd] at hlt ⊢
    obtain ⟨p, hp, rfl⟩ := (hmem q).1 hq
    rw [hid p hp]
    exact h.idsBelow hlt p hp
  · exact hone

theorem Inv.relocate {w : WpaSupplicant} (h : Inv w) {p new : Ptr} (hp : p ∈ w.bss) {old bss : WpaBss}
    (hold : w.heap p = some old) (hnew : new = p ∨ w.heap new = none) (hbssid : bss.bssid = old.bssid)
    (hssid : bss.ssid = old.ssid) (hid : bss.id = old.id) :
    Inv { w.relocate p new bss with bss := w.bss.erase p ++ [new] } := by
  have hfresh : ∀ q ∈ w.bss, q = new → q = p := by
    rintro q hq rfl
    rcases hnew with rfl | hnone
    · rfl
    · have hsome := h.allocated q hq
      rw [hnone] at hsome
      cases hsome
  refine h.rename (moved p new) ?_ ?_ ?_ ?_ rfl rfl ?_ ?_ ?_ ?_ rfl
  · intro q hq r hr heq
    unfold moved at heq
    split at heq
    · rename_i hqp
      split at heq
      · rename_i hrp
        rw [hqp, hrp]
      · rw [hqp]
        exact (hfresh r hr heq.symm).symm
    · split at heq
      · rename_i hrp
        rw [hrp]
        exact hfresh q hq heq
      · exact heq
  · intro q hq
    by_cases hqp : q = p
    · refine ⟨old, bss, hqp ▸ hold, ?_, hbssid, hssid, hid⟩
      rw [moved, if_pos hqp]
      exact Function.update_self ..
    · obtain ⟨b, hb, -⟩ := h.deref hq
      refine ⟨b, b, hb, ?_, rfl, rfl, rfl⟩
      have hqnew : q ≠ new := fun heq => hqp (hfresh q hq heq)
      rw [moved, if_neg hqp, ← hb]
      show Function.update (Function.update w.heap p none) new (some bss) q = w.heap q
      rw [Function.update_of_ne hqnew, Function.update_of_ne hqp]
  · -- the entry is the same but for its place
    have hperm : w.bss.Perm (w.bss.erase p ++ [p]) :=
      (perm_cons_erase hp).trans (perm_append_singleton p _).symm
    refine List.Perm.trans ?_ (hperm.map (moved p new)).symm
    have hrest : (w.bss.erase p).map (moved p new) = w.bss.erase p := by
      rw [map_congr_left (g := id), map_id]
      intro q hq
      exact if_neg (h.nodup.mem_erase_iff.1 hq).1
    rw [map_append, hrest, map_singleton, moved, if_pos rfl]
  · exact replace_eq_map (h.sameEntries.nodup_iff.2 h.nodup) p new
  · exact replace_eq_map h.scanResDistinct p new
  · show (if w.currentBss = some p then some new else w.currentBss) = w.currentBss.map (moved p new)
    cases hcur : w.currentBss with
    | none => rfl
    | some cur =>
      by_cases hcp : cur = p
      · rw [if_pos (by rw [hcp]), Option.map_some, moved, if_pos hcp]
      · rw [if_neg (by simpa using hcp), Option.map_some, moved, if_neg hcp]
  · intro cwork' hcwork'
    have hupdated : ∃ cwork, w.PendingConnect cwork ∧ cwork' = updateConnectWork p (some new) cwork := by
      rcases hcwork' with hsme | hconnect
      · obtain ⟨cwork, hcwork, rfl⟩ := Option.map_eq_some_iff.1
          (show w.smeConnect.map (updateConnectWork p (some new)) = some cwork' from hsme)
        exact ⟨cwork, Or.inl hcwork, rfl⟩
      · have hconnect : (if w.smeConnect.isSome then w.connect
            else w.connect.map (updateConnectWork p (some new))) = some cwork' := hconnect
        rcases h.oneConnect with hnone | hnone
        · rw [hnone, if_neg (by decide)] at hconnect
          obtain ⟨cwork, hcwork, rfl⟩ := Option.map_eq_some_iff.1 hconnect
          exact ⟨cwork, Or.inr hcwork, rfl⟩
        · rw [hnone, Option.map_none, ite_self] at hconnect
          cases hconnect
    obtain ⟨cwork, hcwork, rfl⟩ := hupdated
    refine ⟨cwork, hcwork, ?_⟩
    unfold updateConnectWork
    split
    · rename_i hne
      cases hb : cwork.bss with
      | none => rfl
      | some q =>
        have hqp : q ≠ p := fun heq => hne (by rw [hb, heq])
        rw [Option.map_some, moved, if_neg hqp]
    · rename_i heq
      rw [not_not.1 heq, Option.map_some, moved, if_pos rfl]
  · show w.smeConnect.map (updateConnectWork p (some new)) = none ∨
      (if w.smeConnect.isSome then w.connect else w.connect.map (updateConnectWork p (some new))) = none
    rcases h.oneConnect with hnone | hnone
    · exact Or.inl (by rw [hnone]; rfl)
    · exact Or.inr (by rw [hnone, Option.map_none, ite_self])

theorem Inv.store {w : WpaSupplicant} (h : Inv w) {p : Ptr} {old bss : WpaBss}
    (hold : w.heap p = some old) (hbssid : bss.bssid = old.bssid) (hssid : bss.ssid = old.ssid)
    (hid : bss.id = old.id)
    {order : List Ptr} (horder : order.Perm w.bss) : Inv { w.store p bss with bss := order } := by
  refine h.rename id (fun _ _ _ _ heq => heq) ?_ ?_ (map_id _).symm rfl rfl (map_id _).symm ?_ ?_
    h.oneConnect rfl
  · intro q hq
    by_cases hqp : q = p
    · refine ⟨old, bss, hqp ▸ hold, ?_, hbssid, hssid, hid⟩
      rw [hqp]
      exact Function.update_self ..
    · obtain ⟨b, hb, -⟩ := h.deref hq
      refine ⟨b, b, hb, ?_, rfl, rfl, rfl⟩
      rw [← hb]
      exact Function.update_of_ne hqp ..
  · rw [map_id]
    exact horder
  · exact Option.map_id'.symm
  · intro cwork hcwork
    exact ⟨cwork, hcwork, Option.map_id'.symm⟩

end WpaSupplicant

end Hostap
