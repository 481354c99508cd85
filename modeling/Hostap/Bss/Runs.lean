import Hostap.Bss.Consistent

/-!
# Runs of the BSS table

Every operation on the table takes a state of the invariant to one, as long as it does not evict the entry
of the current BSS and no second connect work is queued beside one of SME (`bssStepOk`).
`bss_table_consistent` is what follows for runs, and `bss_table_current_evicted` is a run in which the entry
of the current BSS is evicted.
-/

namespace Hostap

open Octets List

namespace WpaSupplicant

/-! ## One result -/

theorem Inv.wpaBssGet {w : WpaSupplicant} (h : Inv w) {bssid : Bytes}
    (hfilter : w.filterBssidMatch bssid = true) (ssid : Bytes) :
    ∃ r, w.wpaBssGet bssid ssid = .ok r ∧
      (r = none → ∀ p ∈ w.bss, w.keyAt p ≠ some (bssid, ssid)) ∧
      ∀ p, r = some p → p ∈ w.bss ∧ ∃ bss, w.heap p = some bss ∧ bss.bssid = bssid ∧ bss.ssid = ssid := by
  let same : Ptr → Bool := fun p => decide (w.keyAt p = some (bssid, ssid))
  have hfind : w.findEntry (fun _ bss => .ok (bss.bssid == bssid && bss.ssid == ssid)) w.bss =
      .ok (w.bss.find? same) := by
    refine findEntry_eq fun p hp => ?_
    obtain ⟨bss, hbss, -⟩ := h.deref hp
    refine ⟨bss, hbss, ?_⟩
    show Except.ok (bss.bssid == bssid && bss.ssid == ssid) = Except.ok
      (decide (w.keyAt p = some (bssid, ssid)))
    unfold keyAt
    rw [hbss]
    by_cases hb : bss.bssid = bssid <;> by_cases hs : bss.ssid = ssid <;> simp [hb, hs]
  refine ⟨w.bss.find? same, ?_, ?_, ?_⟩
  · unfold WpaSupplicant.wpaBssGet
    rw [hfilter, hfind]
    rfl
  · intro hnone p hp hkey
    have hnot := find?_eq_none.1 hnone p hp
    exact hnot (decide_eq_true hkey)
  · intro p hsome
    have hp := mem_of_find?_eq_some hsome
    have hfound := find?_some hsome
    have hkey : w.keyAt p = some (bssid, ssid) := of_decide_eq_true hfound
    obtain ⟨bss, hbss, -⟩ := h.deref hp
    unfold keyAt at hkey
    rw [hbss, Option.map_some] at hkey
    obtain ⟨hb, hs⟩ := Prod.mk.inj (Option.some.inj hkey)
    exact ⟨hp, bss, hbss, hb, hs⟩

/-- A state of the invariant whose next identifier is the number of the ones given out. -/
def Good (w : WpaSupplicant) : Prop := Inv w ∧ NextId w

theorem Good.wpaBssAdd {lib : WpsIeLib} {w : WpaSupplicant} (h : Good w) {ssid : Bytes} {res : WpaScanRes}
    (fetchTime : OsReltime) {alloc : Option Ptr} (hnew : ∀ p ∈ w.bss, w.keyAt p ≠ some (res.bssid, ssid))
    (hsafe : (w.osZalloc alloc).isSome → w.conf.bssMaxCount < w.numBss + 1 →
      ∀ p, oldestUnknown lib w = some p → w.currentBss ≠ some p) :
    ∃ w' r, wpaBssAdd lib w ssid res fetchTime alloc = .ok (w', r) ∧ Good w' ∧
      ∀ p, r = some p → p ∈ w'.bss ∧ p ∉ w'.lastScanRes := by
  obtain ⟨hinv, hnext⟩ := h
  unfold WpaSupplicant.wpaBssAdd
  cases halloc : w.osZalloc alloc with
  | none => exact ⟨w, none, rfl, ⟨hinv, hnext⟩, by simp⟩
  | some p =>
    rw [halloc] at hsafe
    have hfree : w.heap p = none := by
      obtain ⟨-, hp⟩ := Option.filter_eq_some_iff.1 halloc
      simpa using hp
    have hp : p ∉ w.bss := by
      intro hmem
      have hsome := hinv.allocated p hmem
      rw [hfree] at hsome
      cases hsome
    let bss := newBss w.bssNextId w.bssUpdateIdx ssid res fetchTime
    let w₀ : WpaSupplicant := ({ w with bssNextId := w.bssNextId + 1 } : WpaSupplicant).store p bss
    have hheap₀ : ∀ q ∈ w.bss, w₀.heap q = w.heap q := by
      intro q hq
      have hne : q ≠ p := by
        rintro rfl
        exact hp hq
      exact Function.update_of_ne hne ..
    have hinv₀ : Inv w₀ := by
      refine hinv.rename id (fun _ _ _ _ heq => heq) ?_ (by rw [map_id]; exact List.Perm.refl _)
        (map_id _).symm rfl rfl (map_id _).symm Option.map_id'.symm ?_ hinv.oneConnect rfl
      · intro q hq
        obtain ⟨b, hb, -⟩ := hinv.deref hq
        exact ⟨b, b, hb, (hheap₀ q hq).trans hb, rfl, rfl, rfl⟩
      · intro cwork hcwork
        exact ⟨cwork, hcwork, Option.map_id'.symm⟩
    -- the new block does not change which entry is the oldest unknown one
    have holdest : oldestUnknown lib w₀ = oldestUnknown lib w := oldestUnknown_congr rfl rfl hheap₀
    obtain ⟨w₁, hroom, hinv₁, hshrinks, hmost⟩ := hinv₀.makeRoom lib
      (fun hfull q hq => hsafe rfl hfull q (holdest ▸ hq))
    have hsub : ∀ q ∈ w₁.bss, q ∈ w.bss := fun q hq => hshrinks.sublist.subset hq
    have hp₁ : p ∉ w₁.bss := fun hmem => hp (hsub p hmem)
    have hheap₁ : w₁.heap p = some bss := by
      rw [hshrinks.kept p (Or.inr hp)]
      exact Function.update_self ..
    have hadd₁ : w₁.additions = w.additions := hshrinks.additions_eq
    have hnext₁ : w₁.bssNextId = w.bssNextId + 1 := hshrinks.bssNextId
    simp only [bind, Except.bind]
    refine ⟨_, some p, by rw [show WpaSupplicant.makeRoom lib w₀ = .ok w₁ from hroom], ⟨?_, ?_⟩, ?_⟩
    · refine hinv₁.append hp₁ hheap₁ ?_ ?_ hmost rfl
      · intro q hq heq
        have hkey : w₁.keyAt q = w.keyAt q := by
          unfold keyAt
          rw [hshrinks.kept q (Or.inl hq), hheap₀ q (hsub q hq)]
        have hkeyp : w₁.keyAt p = some (res.bssid, ssid) := by
          unfold keyAt
          rw [hheap₁]
          rfl
        rw [hkey, hkeyp] at heq
        exact hnew q (hsub q hq) heq
      · intro hlt
        unfold idAt
        rw [hheap₁, hadd₁]
        show w.bssNextId.toNat = w.additions
        rw [hadd₁] at hlt
        rw [hnext, Nat.mod_eq_of_lt hlt]
    · show w₁.bssNextId.toNat =
        (BssNotify.bssAdded bss.bssid bss.id :: w₁.notified).countP BssNotify.isAdded % 2 ^ 32
      have hnext : w.bssNextId.toNat = w.additions % 2 ^ 32 := hnext
      rw [countP_cons_of_pos (show (BssNotify.bssAdded bss.bssid bss.id).isAdded = true from rfl), hnext₁,
        UInt32.toNat_add, hnext]
      show (w.additions % 2 ^ 32 + 1) % 2 ^ 32 = (w₁.additions + 1) % 2 ^ 32
      rw [hadd₁]
      omega
    · rintro q hq
      cases hq
      exact ⟨mem_append_right _ (mem_singleton_self _), fun hmem => hp₁ (hinv₁.scanResEntries p hmem)⟩

theorem Good.wpaBssUpdate {w : WpaSupplicant} (h : Good w) {p : Ptr} (hp : p ∈ w.bss) {old : WpaBss}
    (hold : w.heap p = some old) {res : WpaScanRes} (hbssid : old.bssid = res.bssid) (fetchTime : OsReltime)
    (alloc : Option Ptr) :
    ∃ w' p', w.wpaBssUpdate p res fetchTime alloc = .ok (w', p') ∧ Good w' ∧ p' ∈ w'.bss := by
  obtain ⟨hinv, hnext⟩ := h
  have hderef : w.deref p = .ok old := by
    unfold deref
    rw [hold]
  have horder : (w.bss.erase p ++ [p]).Perm w.bss :=
    (perm_append_singleton p _).trans (perm_cons_erase hp).symm
  have hlast : ∀ q, q ∈ w.bss.erase p ++ [q] := fun q => mem_append_right _ (mem_singleton_self _)
  have hstays : ∀ bss : WpaBss, bss.bssid = old.bssid → bss.ssid = old.ssid → bss.id = old.id →
      Good { w.store p bss with bss := w.bss.erase p ++ [p] } :=
    fun bss hb hs hi => ⟨hinv.store hold hb hs hi horder, hnext⟩
  unfold WpaSupplicant.wpaBssUpdate
  rw [hderef]
  simp only [bind, Except.bind]
  split
  · exact ⟨w, p, rfl, ⟨hinv, hnext⟩, hp⟩
  · split
    · exact ⟨_, p, rfl, hstays _ hbssid.symm rfl rfl, hlast p⟩
    · split
      · exact ⟨_, p, rfl, hstays _ hbssid.symm rfl rfl, hlast p⟩
      · split
        · exact ⟨_, p, rfl, hstays _ hbssid.symm rfl rfl, hlast p⟩
        · rename_i new hrealloc
          have hnew : new = p ∨ w.heap new = none := by
            obtain ⟨-, hn⟩ := Option.filter_eq_some_iff.1 hrealloc
            simpa using hn
          exact ⟨_, new, rfl, ⟨hinv.relocate hp hold hnew hbssid.symm rfl rfl, hnext⟩, hlast new⟩

/-- A result evicts the entry of the current BSS: it is a new one for a full table whose oldest entry that
is of no use to a configured network is the current one. -/
def evictsCurrent (lib : WpsIeLib) (w : WpaSupplicant) (res : WpaScanRes) (fetchTime : OsReltime)
    (alloc : Option Ptr) : Bool :=
  (w.scanResSsid res fetchTime).any fun ssid =>
    w.bss.all (fun p => w.keyAt p != some (res.bssid, ssid)) && (w.osZalloc alloc).isSome &&
      w.conf.bssMaxCount < w.numBss + 1 && w.currentBss.isSome && oldestUnknown lib w == w.currentBss

theorem evictsCurrent_of_current {lib : WpsIeLib} {w : WpaSupplicant} {res : WpaScanRes} {fetchTime : OsReltime}
    {alloc : Option Ptr} {ssid : Bytes} (hssid : w.scanResSsid res fetchTime = some ssid)
    (hnew : ∀ p ∈ w.bss, w.keyAt p ≠ some (res.bssid, ssid)) (halloc : (w.osZalloc alloc).isSome)
    (hfull : w.conf.bssMaxCount < w.numBss + 1) {p : Ptr} (hold : oldestUnknown lib w = some p)
    (hcurrent : w.currentBss = some p) : evictsCurrent lib w res fetchTime alloc = true := by
  have hall : w.bss.all (fun p => w.keyAt p != some (res.bssid, ssid)) = true :=
    all_eq_true.2 fun p hp => bne_iff_ne.2 (hnew p hp)
  unfold evictsCurrent
  rw [hssid, Option.any_some, hall, halloc, hold, hcurrent]
  simpa using hfull

theorem Good.wpaBssUpdateScanRes {lib : WpsIeLib} {w : WpaSupplicant} (h : Good w) {res : WpaScanRes}
    {fetchTime : OsReltime} {alloc : Option Ptr} (hfilter : w.filterBssidMatch res.bssid = true)
    (hsafe : evictsCurrent lib w res fetchTime alloc = false) (grow : Bool) :
    ∃ w', wpaBssUpdateScanRes lib w res fetchTime alloc grow = .ok w' ∧ Good w' := by
  unfold WpaSupplicant.wpaBssUpdateScanRes
  cases hssid : w.scanResSsid res fetchTime with
  | none => exact ⟨w, rfl, h⟩
  | some ssid =>
    obtain ⟨r, hget, hnone, hsome⟩ := h.1.wpaBssGet hfilter ssid
    simp only [hget, bind, Except.bind]
    cases r with
    | none =>
      obtain ⟨w', added, hadd, hgood, hentry⟩ := h.wpaBssAdd fetchTime (hnone rfl)
        (fun halloc hfull p hp hcur => by
          rw [evictsCurrent_of_current hssid (hnone rfl) halloc hfull hp hcur] at hsafe
          cases hsafe)
      simp only [hadd]
      cases added with
      | none => exact ⟨w', rfl, hgood⟩
      | some p =>
        obtain ⟨hp, hnew⟩ := hentry p rfl
        obtain ⟨hinv, hnext⟩ := hgood.1.addToScanRes hp hnew grow
        exact ⟨_, rfl, hinv, hnext hgood.2⟩
    | some p =>
      obtain ⟨hp, bss, hbss, hbssid, -⟩ := hsome p rfl
      obtain ⟨w', p', hupdate, hgood, hp'⟩ := h.wpaBssUpdate hp hbss hbssid fetchTime alloc
      simp only [hupdate]
      by_cases hin : w'.lastScanRes.contains p'
      · rw [if_pos hin]
        exact ⟨w', rfl, hgood⟩
      · rw [if_neg hin]
        have hnew : p' ∉ w'.lastScanRes := fun hmem => hin (contains_iff_mem.2 hmem)
        obtain ⟨hinv, hnext⟩ := hgood.1.addToScanRes hp' hnew grow
        exact ⟨_, rfl, hinv, hnext hgood.2⟩

/-! ## The end of a round -/

theorem Good.remove {w : WpaSupplicant} (h : Good w) {p : Ptr} (hp : p ∈ w.bss)
    (hcurrent : w.currentBss ≠ some p) :
    ∃ w', w.wpaBssRemove p = .ok w' ∧ Good w' ∧ w'.bss = w.bss.erase p := by
  obtain ⟨w', hremove, hinv, hshrinks, hbss, -⟩ := h.1.wpaBssRemove hp hcurrent
  exact ⟨w', hremove, ⟨hinv, hshrinks.nextId h.2⟩, hbss⟩

theorem mem_erase_of_rest {bss ps : List Ptr} {p : Ptr} (hnodup : (p :: ps).Nodup) (hps : ∀ q ∈ p :: ps,
    q ∈ bss) :
    ∀ q ∈ ps, q ∈ bss.erase p := by
  intro q hq
  have hne : q ≠ p := fun heq => (nodup_cons.1 hnodup).1 (heq ▸ hq)
  exact (mem_erase_of_ne hne).2 (hps q (mem_cons_of_mem _ hq))

theorem Good.expireBss (info : Option ScanInfo) {w : WpaSupplicant} (h : Good w) {ps : List Ptr}
    (hnodup : ps.Nodup) (hps : ∀ p ∈ ps, p ∈ w.bss) : ∃ w', expireBss info w ps = .ok w' ∧ Good w' := by
  induction ps generalizing w with
  | nil => exact ⟨w, rfl, h⟩
  | cons p ps ih =>
    have hp := hps p mem_cons_self
    have hrest : ∀ q ∈ ps, q ∈ w.bss := fun q hq => hps q (mem_cons_of_mem _ hq)
    have hnodup' : ps.Nodup := (nodup_cons.1 hnodup).2
    obtain ⟨bss, hbss, hderef⟩ := h.1.deref hp
    obtain ⟨inUse, hinUse, hcurrent⟩ := h.1.wpaBssInUse hp
    unfold WpaSupplicant.expireBss
    simp only [hderef, hinUse, bind, Except.bind]
    by_cases hskip : inUse ∨ ¬ wpaBssIncludedInScan bss info
    · rw [if_pos hskip]
      exact ih h hnodup' hrest
    · rw [if_neg hskip]
      have hunused : w.currentBss ≠ some p := hcurrent (by simpa using fun hu => hskip (Or.inl hu))
      generalize (if bss.lastUpdateIdx < w.bssUpdateIdx then bss.scanMissCount + 1 else bss.scanMissCount) =
        missed
      have hinv : Inv { w.store p { bss with scanMissCount := missed } with bss := w.bss } := by
        refine h.1.store hbss ?_ ?_ ?_ (List.Perm.refl _) <;> rfl
      have hstored : Good (w.store p { bss with scanMissCount := missed }) := ⟨hinv, h.2⟩
      split
      · obtain ⟨w', hremove, hgood, hbss'⟩ := hstored.remove hp hunused
        simp only [hremove]
        refine ih hgood hnodup' ?_
        rw [hbss']
        exact mem_erase_of_rest hnodup hps
      · exact ih hstored hnodup' hrest

theorem Good.flushOlder (t : OsReltime) {w : WpaSupplicant} (h : Good w) {ps : List Ptr} (hnodup : ps.Nodup)
    (hps : ∀ p ∈ ps, p ∈ w.bss) : ∃ w', flushOlder t w ps = .ok w' ∧ Good w' := by
  induction ps generalizing w with
  | nil => exact ⟨w, rfl, h⟩
  | cons p ps ih =>
    have hp := hps p mem_cons_self
    have hrest : ∀ q ∈ ps, q ∈ w.bss := fun q hq => hps q (mem_cons_of_mem _ hq)
    have hnodup' : ps.Nodup := (nodup_cons.1 hnodup).2
    obtain ⟨bss, -, hderef⟩ := h.1.deref hp
    obtain ⟨inUse, hinUse, hcurrent⟩ := h.1.wpaBssInUse hp
    unfold WpaSupplicant.flushOlder
    simp only [hderef, hinUse, bind, Except.bind]
    cases inUse with
    | true => exact ih h hnodup' hrest
    | false =>
      rw [if_neg (by decide)]
      split
      · obtain ⟨w', hremove, hgood, hbss'⟩ := h.remove hp (hcurrent rfl)
        simp only [hremove]
        refine ih hgood hnodup' ?_
        rw [hbss']
        exact mem_erase_of_rest hnodup hps
      · exact ⟨w, rfl, h⟩

theorem Good.flushUnused {w : WpaSupplicant} (h : Good w) {ps : List Ptr} (hnodup : ps.Nodup)
    (hps : ∀ p ∈ ps, p ∈ w.bss) : ∃ w', flushUnused w ps = .ok w' ∧ Good w' := by
  induction ps generalizing w with
  | nil => exact ⟨w, rfl, h⟩
  | cons p ps ih =>
    have hp := hps p mem_cons_self
    have hrest : ∀ q ∈ ps, q ∈ w.bss := fun q hq => hps q (mem_cons_of_mem _ hq)
    have hnodup' : ps.Nodup := (nodup_cons.1 hnodup).2
    obtain ⟨inUse, hinUse, hcurrent⟩ := h.1.wpaBssInUse hp
    unfold WpaSupplicant.flushUnused
    simp only [hinUse, bind, Except.bind]
    cases inUse with
    | true => exact ih h hnodup' hrest
    | false =>
      rw [if_neg (by decide)]
      obtain ⟨w', hremove, hgood, hbss'⟩ := h.remove hp (hcurrent rfl)
      simp only [hremove]
      refine ih hgood hnodup' ?_
      rw [hbss']
      exact mem_erase_of_rest hnodup hps

/-! ## Steps and runs -/

/-- The results that are put into the table pass the BSSID filter. -/
def bssStepFiltered (w : WpaSupplicant) : BssEvent → Bool
  | .updateScanRes res _ _ _ => w.filterBssidMatch res.bssid
  | _ => true

/-- No result evicts the entry of the current BSS, and there is one connect work at a time. -/
def bssStepOk (lib : WpsIeLib) (w : WpaSupplicant) : BssEvent → Bool
  | .updateScanRes res fetchTime alloc _ => !evictsCurrent lib w res fetchTime alloc
  | .smeAuthenticate _ => w.connect.isNone
  | .associate _ => w.smeConnect.isNone
  | _ => true

theorem Good.step {lib : WpsIeLib} {w : WpaSupplicant} (h : Good w) {e : BssEvent}
    (hfilter : bssStepFiltered w e = true)
    (hok : bssStepOk lib w e = true) : ∃ w', step lib w e = .ok w' ∧ Good w' := by
  obtain ⟨hinv, hnext⟩ := h
  cases e with
  | updateStart =>
    refine ⟨_, rfl, ?_, hnext⟩
    exact { hinv with
      scanResDistinct := nodup_nil
      scanResEntries := fun _ hp => absurd hp not_mem_nil }
  | updateScanRes res fetchTime alloc grow =>
    exact Good.wpaBssUpdateScanRes ⟨hinv, hnext⟩ hfilter (Bool.not_eq_true' _ ▸ hok) grow
  | updateEnd info newScan now =>
    have hinv' : Inv { w with lastScan := now } :=
      hinv.frame rfl rfl rfl rfl (Nat.le_refl _) rfl rfl rfl rfl rfl
    show ∃ w', WpaSupplicant.wpaBssUpdateEnd w info newScan now = .ok w' ∧ Good w'
    unfold WpaSupplicant.wpaBssUpdateEnd
    dsimp only
    split
    · exact ⟨_, rfl, hinv', hnext⟩
    · exact Good.expireBss info ⟨hinv', hnext⟩ hinv.nodup fun _ hp => hp
  | flushByAge age now => exact Good.flushOlder _ ⟨hinv, hnext⟩ hinv.nodup fun _ hp => hp
  | flush =>
    have hinv' : Inv { w with clearDriverScanCache := true } :=
      hinv.frame rfl rfl rfl rfl (Nat.le_refl _) rfl rfl rfl rfl rfl
    exact Good.flushUnused ⟨hinv', hnext⟩ hinv.nodup fun _ hp => hp
  | configure conf =>
    exact ⟨_, rfl, hinv.frame rfl rfl rfl rfl (Nat.le_max_left ..) rfl rfl rfl rfl rfl, hnext⟩
  | setBssidFilter filter =>
    exact ⟨_, rfl, hinv.frame rfl rfl rfl rfl (Nat.le_refl _) rfl rfl rfl rfl rfl, hnext⟩
  | scanTriggered now =>
    exact ⟨_, rfl, hinv.frame rfl rfl rfl rfl (Nat.le_refl _) rfl rfl rfl rfl rfl, hnext⟩
  | setBssids bssid pendingBssid =>
    exact ⟨_, rfl, hinv.frame rfl rfl rfl rfl (Nat.le_refl _) rfl rfl rfl rfl rfl, hnext⟩
  | setCurrentBss p =>
    refine ⟨_, rfl, ?_⟩
    split
    · rename_i hp
      exact ⟨{ hinv with current := fun q hq => hp q hq }, hnext⟩
    · exact ⟨hinv, hnext⟩
  | smeAuthenticate p =>
    refine ⟨_, rfl, ?_⟩
    split
    · rename_i hp
      have hnone : w.connect = none := Option.isNone_iff_eq_none.1 hok
      refine ⟨{ hinv with pending := ?_, oneConnect := Or.inr hnone }, hnext⟩
      rintro cwork (hsme | hconnect) q hq
      · cases hsme
        cases hq
        exact hp
      · exact hinv.pending cwork (Or.inr hconnect) q hq
    · exact ⟨hinv, hnext⟩
  | associate p =>
    refine ⟨_, rfl, ?_⟩
    split
    · rename_i hp
      have hnone : w.smeConnect = none := Option.isNone_iff_eq_none.1 hok
      refine ⟨{ hinv with pending := ?_, oneConnect := Or.inl hnone }, hnext⟩
      rintro cwork (hsme | hconnect) q hq
      · exact hinv.pending cwork (Or.inl hsme) q hq
      · cases hconnect
        exact hp.2 q hq
    · exact ⟨hinv, hnext⟩
  | connectWorkDone sme =>
    refine ⟨_, rfl, ?_⟩
    cases sme with
    | true =>
      refine ⟨{ hinv with pending := ?_, oneConnect := Or.inl rfl }, hnext⟩
      rintro cwork (hsme | hconnect) q hq
      · cases hsme
      · exact hinv.pending cwork (Or.inr hconnect) q hq
    | false =>
      refine ⟨{ hinv with pending := ?_, oneConnect := Or.inr rfl }, hnext⟩
      rintro cwork (hsme | hconnect) q hq
      · exact hinv.pending cwork (Or.inl hsme) q hq
      · cases hconnect

theorem good_init (conf : WpaConfig) (p2pGroupInterface : Bool) : Good { conf, p2pGroupInterface } := by
  refine ⟨⟨⟨nodup_nil, List.Perm.refl _, ?_, rfl, Nat.zero_le _, ?_, fun _ => List.Pairwise.nil, nodup_nil,
    ?_, ?_, ?_⟩, ?_, Or.inl rfl⟩, rfl⟩
  · exact fun p hp => absurd hp not_mem_nil
  · exact fun p hp => absurd hp not_mem_nil
  · exact fun p hp => absurd hp not_mem_nil
  · intro p hp
    cases hp
  · rintro cwork (hsme | hconnect) p hp
    · cases hsme
    · cases hconnect
  · exact fun _ p hp => absurd hp not_mem_nil

end WpaSupplicant

open WpaSupplicant

/-- In every run from an empty table in which no result evicts the entry of the current BSS and one connect
work is queued at a time the views of the table agree, and no step reads a block that was freed. -/
theorem bss_table_consistent {lib : WpsIeLib} {conf : WpaConfig} {p2pGroupInterface : Bool}
    {evs : List BssEvent} {w : WpaSupplicant}
    (hrun : Run.Reach (step lib) (fun w e => bssStepFiltered w e = true ∧ bssStepOk lib w e = true)
      { conf, p2pGroupInterface } evs w) :
    Consistent w ∧ ∀ e, bssStepFiltered w e = true → bssStepOk lib w e = true → ∃ w', step lib w e =
    .ok w' := by
  have hgood : Good w := by
    refine hrun.invariant (I := Good) (good_init conf p2pGroupInterface) ?_
    rintro w e w' hgood ⟨hfilter, hok⟩ hstep
    obtain ⟨w'', hstep', hgood'⟩ := hgood.step hfilter hok
    rw [hstep] at hstep'
    cases hstep'
    exact hgood'
  refine ⟨hgood.1.toConsistent, fun e hfilter hok => ?_⟩
  obtain ⟨w', hstep, -⟩ := hgood.step hfilter hok
  exact ⟨w', hstep⟩

def smallWpsIeLib : WpsIeLib where
  wpsIsSelectedPbcRegistrar _ := false
  wpsIsAddrAuthorized _ := false

def smallBssConf : WpaConfig where
  ssid := [{}]
  bssMaxCount := 1

def smallScanRes (n : UInt8) : WpaScanRes where
  bssid := [2, 0, 0, 0, 0, n]
  ies := [0, 1, n]

def smallBssRun : List BssEvent :=
  [.updateStart, .updateScanRes (smallScanRes 1) {} (some 100) true, .setCurrentBss (some 100),
    .setBssids [2, 0, 0, 0, 0, 1] (zeros 6), .updateStart, .updateScanRes (smallScanRes 2) {} (some 200) true]

/-- The same with room for both. -/
theorem bss_table_consistent_small :
    ∃ w, (w.currentBss = some 100 ∧ w.bss = [100, 200] ∧ w.lastScanRes = [200]) ∧ Consistent w := by
  obtain ⟨w, hrun, hw⟩ := Run.reach_of_runWhile_any (step smallWpsIeLib)
    (fun w e => bssStepFiltered w e = true ∧ bssStepOk smallWpsIeLib w e = true)
    { conf := { smallBssConf with bssMaxCount := 2 } }
    smallBssRun (fun w => decide (w.currentBss = some 100 ∧ w.bss = [100, 200] ∧ w.lastScanRes = [200]))
    (by decide +kernel)
  exact ⟨w, of_decide_eq_true hw, (bss_table_consistent hrun).1⟩

/-- The entry of the current BSS is evicted and `current_bss` points to freed memory. -/
theorem bss_table_current_evicted :
    ∃ w, Run.Reach (step smallWpsIeLib) (fun w e => bssStepFiltered w e = true)
    { conf := smallBssConf } smallBssRun w ∧
      w.currentBss = some 100 ∧ w.bss = [200] ∧ w.heap 100 = none := by
  obtain ⟨w, hrun, hw⟩ := Run.reach_of_runWhile_any (step smallWpsIeLib)
    (fun w e => bssStepFiltered w e = true) { conf := smallBssConf } smallBssRun
    (fun w => decide (w.currentBss = some 100 ∧ w.bss = [200] ∧ w.heap 100 = none)) (by decide +kernel)
  exact ⟨w, hrun, of_decide_eq_true hw⟩

end Hostap
