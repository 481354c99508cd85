import Hostap.Bss.Runs
import Hostap.Lib.Except

/-!
# Ageing of the BSS table

`wpa_bss_flush_by_age()` goes through the table in the order of the updates and ends at the first unused entry
that is recent enough. The order of the updates is the order in which results were put into the table, while
the time of an update is computed from the age that the driver gives for each result. So an entry that is too
old stays where it stands behind a recent one.

* `Linked.flushOlder` says which entries are removed: the unused ones that are too old, up to the first unused
  one that is not;
* `Ordered` is the order that the loop counts on. Taking entries out keeps it (`Thinned`), and a result put at
  the end keeps it if it is not older than what is there (`Appended`).
-/

namespace Hostap

open Octets List

theorem osReltimeBefore_trans {a b t : OsReltime} (h : osReltimeBefore b a = false)
    (hb : osReltimeBefore b t = true) : osReltimeBefore a t = true := by
  simp only [osReltimeBefore, Bool.or_eq_false_iff, Bool.and_eq_false_iff, decide_eq_false_iff_not,
    beq_eq_false_iff_ne, Bool.or_eq_true, Bool.and_eq_true, decide_eq_true_eq, beq_iff_eq] at h hb ⊢
  omega

theorem takeWhile_congr {α : Type} {f g : α → Bool} {l : List α} (h : ∀ a ∈ l, f a = g a) :
    l.takeWhile f = l.takeWhile g := by
  induction l with
  | nil => rfl
  | cons a l ih =>
    rw [takeWhile_cons, takeWhile_cons, h a mem_cons_self,
      ih fun b hb => h b (mem_cons_of_mem _ hb)]

theorem mem_takeWhile_iff_pairwise {α : Type} {f : α → Bool} {l : List α} (hnodup : l.Nodup) :
    (∀ a ∈ l, f a = true → a ∈ l.takeWhile f) ↔ l.Pairwise fun a b => f b = true → f a = true := by
  induction l with
  | nil => simp
  | cons a l ih =>
    obtain ⟨hnot, hnodup⟩ := nodup_cons.1 hnodup
    rw [pairwise_cons, ← ih hnodup]
    by_cases ha : f a = true
    · rw [takeWhile_cons_of_pos ha]
      constructor
      · refine fun h => ⟨fun _ _ _ => ha, fun b hb hfb => ?_⟩
        have hne : b ≠ a := fun heq => hnot (heq ▸ hb)
        exact (mem_cons.1 (h b (mem_cons_of_mem _ hb) hfb)).resolve_left hne
      · rintro ⟨-, h⟩ b hb hfb
        rcases mem_cons.1 hb with rfl | hb
        · exact mem_cons_self
        · exact mem_cons_of_mem _ (h b hb hfb)
    · rw [takeWhile_cons_of_neg ha]
      constructor
      · intro h
        have hnone : ∀ b ∈ l, ¬ f b = true :=
          fun b hb hfb => absurd (h b (mem_cons_of_mem _ hb) hfb) not_mem_nil
        exact ⟨fun b hb hfb => absurd hfb (hnone b hb), fun b hb hfb => absurd hfb (hnone b hb)⟩
      · rintro ⟨h, -⟩ b hb hfb
        rcases mem_cons.1 hb with rfl | hb
        · exact absurd hfb ha
        · exact absurd (h b hb hfb) ha

namespace WpaSupplicant

variable {w w' w'' : WpaSupplicant} {p q : Ptr}

/-! ## Taking entries out -/

/-- Entries may be gone, and those that are there were updated when they were before. -/
structure Thinned (w w' : WpaSupplicant) : Prop where
  sublist : List.Sublist w'.bss w.bss
  times : ∀ p bss, w'.heap p = some bss → ∃ old, w.heap p = some old ∧ old.lastUpdate = bss.lastUpdate

theorem Thinned.refl (w : WpaSupplicant) : Thinned w w := ⟨List.Sublist.refl _, fun _ bss h => ⟨bss, h, rfl⟩⟩

theorem Thinned.trans (h : Thinned w w') (h' : Thinned w' w'') : Thinned w w'' := by
  refine ⟨h'.sublist.trans h.sublist, fun p bss hbss => ?_⟩
  obtain ⟨mid, hmid, htime'⟩ := h'.times p bss hbss
  obtain ⟨old, hold, htime⟩ := h.times p mid hmid
  exact ⟨old, hold, htime.trans htime'⟩

theorem Linked.congr (h : Linked w) (hheap : w'.heap = w.heap) (hbss : w'.bss = w.bss)
    (hcurrent : w'.currentBss = w.currentBss) : Linked w' := by
  refine ⟨?_, ?_, ?_⟩
  · rw [hbss]
    exact h.nodup
  · rw [hbss, hheap]
    exact h.allocated
  · rw [hbss, hcurrent]
    exact h.current

theorem Thinned.congr (hheap : w'.heap = w.heap) (hbss : w'.bss = w.bss) : Thinned w w' := by
  refine ⟨by rw [hbss], fun p bss h => ?_⟩
  rw [hheap] at h
  exact ⟨bss, h, rfl⟩

theorem Linked.removed (h : Linked w) (hcurrent : w.currentBss ≠ some p) (bss : WpaBss) :
    Linked (w.removed p bss) := by
  refine ⟨h.nodup.erase p, fun q hq => ?_, fun q hq => ?_⟩
  · obtain ⟨hne, hmem⟩ := h.nodup.mem_erase_iff.1 hq
    show (Function.update w.heap p none q).isSome
    rw [Function.update_of_ne hne]
    exact h.allocated q hmem
  · exact h.nodup.mem_erase_iff.2 ⟨fun heq => hcurrent (heq ▸ hq), h.current q hq⟩

theorem Thinned.removed (w : WpaSupplicant) (p : Ptr) (bss : WpaBss) : Thinned w (w.removed p bss) := by
  refine ⟨erase_sublist, fun q b hq => ?_⟩
  have hne : q ≠ p := by
    rintro rfl
    rw [show (w.removed q bss).heap q = none from Function.update_self ..] at hq
    cases hq
  rw [show (w.removed p bss).heap q = w.heap q from Function.update_of_ne hne ..] at hq
  exact ⟨b, hq, rfl⟩

theorem wpaBssRemove_ok (h : w.wpaBssRemove p = .ok w') : ∃ bss, w' = w.removed p bss := by
  obtain ⟨bss, -, hr⟩ := except_bind_ok h
  exact ⟨bss, (Except.ok.inj hr).symm⟩

theorem ne_current_of_unused (h : w.wpaBssInUse p = .ok false) : w.currentBss ≠ some p := by
  intro hcurrent
  obtain ⟨bss, -, hr⟩ := except_bind_ok h
  rw [if_pos hcurrent] at hr
  cases hr

theorem Linked.store (h : Linked w) (p : Ptr) (bss : WpaBss) : Linked (w.store p bss) := by
  refine ⟨h.nodup, fun q hq => ?_, h.current⟩
  show (Function.update w.heap p (some bss) q).isSome
  by_cases hne : q = p
  · subst hne
    rw [Function.update_self]
    rfl
  · rw [Function.update_of_ne hne]
    exact h.allocated q hq

theorem Thinned.store {old bss : WpaBss} (hold : w.heap p = some old)
    (htime : old.lastUpdate = bss.lastUpdate) : Thinned w (w.store p bss) := by
  refine ⟨List.Sublist.refl _, fun q b hq => ?_⟩
  have hq : Function.update w.heap p (some bss) q = some b := hq
  by_cases hne : q = p
  · subst hne
    rw [Function.update_self] at hq
    cases hq
    exact ⟨old, hold, htime⟩
  · rw [Function.update_of_ne hne] at hq
    exact ⟨b, hq, rfl⟩

theorem deref_ok {bss : WpaBss} (h : w.deref p = .ok bss) : w.heap p = some bss := by
  unfold deref at h
  split at h
  · cases h
  · rename_i b hb
    rw [hb, Except.ok.inj h]

theorem Linked.expireBss (info : Option ScanInfo) (h : Linked w) {ps : List Ptr}
    (hr : expireBss info w ps = .ok w') : Linked w' ∧ Thinned w w' := by
  induction ps generalizing w with
  | nil =>
    cases hr
    exact ⟨h, .refl _⟩
  | cons p ps ih =>
    obtain ⟨bss, hbss, hr⟩ := except_bind_ok hr
    obtain ⟨inUse, hinUse, hr⟩ := except_bind_ok hr
    by_cases hskip : inUse ∨ ¬ wpaBssIncludedInScan bss info
    · rw [if_pos hskip] at hr
      exact ih h hr
    · rw [if_neg hskip] at hr
      dsimp only at hr
      have hunused : inUse = false := by simpa using fun hu => hskip (.inl hu)
      have hcurrent := ne_current_of_unused (hunused ▸ hinUse)
      generalize (if bss.lastUpdateIdx < w.bssUpdateIdx then bss.scanMissCount + 1
        else bss.scanMissCount) = missed at hr
      have hstored := h.store p { bss with scanMissCount := missed }
      have hthin : Thinned w (w.store p { bss with scanMissCount := missed }) := .store (deref_ok hbss) rfl
      split at hr
      · obtain ⟨w₁, hremove, hr⟩ := except_bind_ok hr
        obtain ⟨b, rfl⟩ := wpaBssRemove_ok hremove
        obtain ⟨hlinked, hrest⟩ := ih (hstored.removed hcurrent b) hr
        exact ⟨hlinked, (hthin.trans (.removed _ p b)).trans hrest⟩
      · obtain ⟨hlinked, hrest⟩ := ih hstored hr
        exact ⟨hlinked, hthin.trans hrest⟩

theorem Linked.flushUnused (h : Linked w) {ps : List Ptr} (hr : flushUnused w ps = .ok w') :
    Linked w' ∧ Thinned w w' := by
  induction ps generalizing w with
  | nil =>
    cases hr
    exact ⟨h, .refl _⟩
  | cons p ps ih =>
    obtain ⟨inUse, hinUse, hr⟩ := except_bind_ok hr
    cases inUse with
    | true => exact ih h hr
    | false =>
      obtain ⟨w₁, hremove, hr⟩ := except_bind_ok hr
      obtain ⟨b, rfl⟩ := wpaBssRemove_ok hremove
      obtain ⟨hlinked, hrest⟩ := ih (h.removed (ne_current_of_unused hinUse) b) hr
      exact ⟨hlinked, (Thinned.removed w p b).trans hrest⟩

/-! ## The loop of the flush -/

def unused (w : WpaSupplicant) (p : Ptr) : Bool := decide (w.wpaBssInUse p = .ok false)

def olderThan (w : WpaSupplicant) (t : OsReltime) (p : Ptr) : Bool :=
  (w.heap p).any fun bss => osReltimeBefore bss.lastUpdate t

def flushed (w : WpaSupplicant) (t : OsReltime) (ps : List Ptr) : List Ptr :=
  (ps.filter w.unused).takeWhile (w.olderThan t)

theorem wpaBssInUse_removed (hcurrent : w.currentBss ≠ some p) (bss : WpaBss) (hq : q ≠ p) :
    (w.removed p bss).wpaBssInUse q = w.wpaBssInUse q := by
  have hderef : ∀ r, r ≠ p → (w.removed p bss).deref r = w.deref r := by
    intro r hr
    unfold WpaSupplicant.deref
    rw [show (w.removed p bss).heap r = w.heap r from Function.update_of_ne hr ..]
  unfold WpaSupplicant.wpaBssInUse
  rw [hderef q hq]
  show _ = w.deref q >>= fun bss => _
  cases hcur : w.currentBss with
  | none => rw [show (w.removed p bss).currentBss = none from hcur]; rfl
  | some cur =>
    have hne : cur ≠ p := fun heq => hcurrent (heq ▸ hcur)
    rw [show (w.removed p bss).currentBss = some cur from hcur]
    simp only [hderef cur hne]
    rfl

theorem Linked.flushOlder (t : OsReltime) (h : Linked w) {ps : List Ptr} (hnodup : ps.Nodup)
    (hps : ∀ p ∈ ps, p ∈ w.bss) :
    ∃ w', flushOlder t w ps = .ok w' ∧ Linked w' ∧ Thinned w w' ∧
      (∀ q, q ∈ w'.bss ↔ q ∈ w.bss ∧ q ∉ w.flushed t ps) ∧
      ∀ q ∈ w'.bss, w'.heap q = w.heap q ∧ w'.wpaBssInUse q = w.wpaBssInUse q := by
  induction ps generalizing w with
  | nil => exact ⟨w, rfl, h, .refl _, fun q => by simp [flushed], fun _ _ => ⟨rfl, rfl⟩⟩
  | cons p ps ih =>
    have hp := hps p mem_cons_self
    have hrest : ∀ q ∈ ps, q ∈ w.bss := fun q hq => hps q (mem_cons_of_mem _ hq)
    obtain ⟨hpnot, hnodup'⟩ := nodup_cons.1 hnodup
    obtain ⟨bss, hbss, hderef⟩ := h.deref hp
    obtain ⟨inUse, hinUse, -⟩ := h.wpaBssInUse hp
    have hold : w.olderThan t p = osReltimeBefore bss.lastUpdate t := by
      unfold olderThan
      rw [hbss]
      rfl
    unfold WpaSupplicant.flushOlder
    rw [hderef, bind_of_ok rfl, hinUse, bind_of_ok rfl]
    cases inUse with
    | true =>
      have hflushed : w.flushed t (p :: ps) = w.flushed t ps := by
        unfold flushed
        rw [filter_cons_of_neg (by simp [unused, hinUse])]
      rw [hflushed]
      exact ih h hnodup' hrest
    | false =>
      rw [if_neg (by decide)]
      have hfilter : (p :: ps).filter w.unused = p :: ps.filter w.unused :=
        filter_cons_of_pos (by simp [unused, hinUse])
      by_cases hbefore : osReltimeBefore bss.lastUpdate t = true
      · have hcurrent := ne_current_of_unused hinUse
        have hremove : w.wpaBssRemove p = .ok (w.removed p bss) := by
          unfold WpaSupplicant.wpaBssRemove
          rw [hderef]
          rfl
        rw [if_pos hbefore, hremove, bind_of_ok rfl]
        obtain ⟨w', hr, hlinked, hthin, hmem, hkept⟩ :=
          ih (h.removed hcurrent bss) hnodup' (mem_erase_of_rest hnodup hps)
        have hin : ∀ q, q ∈ (w.removed p bss).bss ↔ q ≠ p ∧ q ∈ w.bss := fun q => h.nodup.mem_erase_iff
        -- the rest of the list is as it was
        have hsame : (w.removed p bss).flushed t ps = w.flushed t ps := by
          have hne : ∀ q ∈ ps, q ≠ p := fun q hq heq => hpnot (heq ▸ hq)
          unfold flushed
          have hfil : ps.filter (w.removed p bss).unused = ps.filter w.unused := by
            refine filter_congr fun q hq => ?_
            unfold unused
            rw [wpaBssInUse_removed hcurrent bss (hne q hq)]
          rw [hfil]
          refine takeWhile_congr fun q hq => ?_
          unfold olderThan
          rw [show (w.removed p bss).heap q = w.heap q from
            Function.update_of_ne (hne q (mem_of_mem_filter hq)) ..]
        have hflushed : w.flushed t (p :: ps) = p :: w.flushed t ps := by
          unfold flushed
          rw [hfilter, takeWhile_cons_of_pos (hold.trans hbefore)]
        refine ⟨w', hr, hlinked, (Thinned.removed w p bss).trans hthin, fun q => ?_, fun q hq => ?_⟩
        · rw [hmem, hin, hsame, hflushed, mem_cons, not_or]
          tauto
        · obtain ⟨hne, -⟩ := (hin q).1 ((hmem q).1 hq).1
          obtain ⟨hheap, huse⟩ := hkept q hq
          rw [hheap, huse, wpaBssInUse_removed hcurrent bss hne]
          exact ⟨Function.update_of_ne hne .., rfl⟩
      · have hflushed : w.flushed t (p :: ps) = [] := by
          unfold flushed
          rw [hfilter, takeWhile_cons_of_neg (by rw [hold]; exact hbefore)]
        rw [if_neg hbefore, hflushed]
        exact ⟨w, rfl, h, .refl _, fun q => by simp, fun _ _ => ⟨rfl, rfl⟩⟩

/-! ## Putting a result at the end -/

/-- The entries but the one that the result is for stay as they were, and that one is at the end with the
time of the result. -/
structure Appended (w w' : WpaSupplicant) (old : Option Ptr) (t : OsReltime) : Prop where
  bss : ∃ l p, w'.bss = l ++ [p] ∧ List.Sublist l w.bss ∧ (∀ q ∈ l, old ≠ some q ∧ w'.heap q = w.heap q) ∧
    ∀ bss, w'.heap p = some bss → bss.lastUpdate = t

/-- The entry that a result is put in the place of, or none for a new entry, if the result is not passed over.
-/
def placed (w : WpaSupplicant) (res : WpaScanRes) (fetchTime : OsReltime) (alloc : Option Ptr) :
    Option (Option Ptr) :=
  match w.scanResSsid res fetchTime with
  | none => none
  | some ssid =>
    match w.wpaBssGet res.bssid ssid with
    | .error _ => none
    | .ok none => if (w.osZalloc alloc).isSome then some none else none
    | .ok (some p) =>
      -- the first of two results for one entry in a round may look more current
      if (w.heap p).any fun bss => bss.lastUpdateIdx == w.bssUpdateIdx && (flagAssociated bss.flags ||
          (!flagAssociated res.flags &&
            !osReltimeBefore bss.lastUpdate (calculateUpdateTime fetchTime res.age))) then
        none
      else some (some p)

/-- No new entry takes the place of the current one in a full table. -/
def stepKeepsCurrent (lib : WpsIeLib) (w : WpaSupplicant) : BssEvent → Bool
  | .updateScanRes res fetchTime alloc _ =>
    !(w.placed res fetchTime alloc == some none && w.conf.bssMaxCount < w.numBss + 1 && w.currentBss.isSome &&
      oldestUnknown lib w == w.currentBss)
  | _ => true

/-- No result that is put into the table is older than another entry of it. -/
def stepInOrder (w : WpaSupplicant) : BssEvent → Bool
  | .updateScanRes res fetchTime alloc _ =>
    (w.placed res fetchTime alloc).all fun old =>
      w.bss.all fun p => old == some p ||
        (w.heap p).all fun bss => !osReltimeBefore (calculateUpdateTime fetchTime res.age) bss.lastUpdate
  | _ => true

theorem findEntry_some {test : Ptr → WpaBss → Except BssFault Bool} {ps : List Ptr}
    (h : w.findEntry test ps = .ok (some p)) : p ∈ ps ∧ ∃ bss, test p bss = .ok true := by
  induction ps with
  | nil => cases h
  | cons q ps ih =>
    obtain ⟨bss, -, h⟩ := except_bind_ok h
    obtain ⟨found, htest, h⟩ := except_bind_ok h
    cases found with
    | true =>
      cases h
      exact ⟨mem_cons_self, bss, htest⟩
    | false =>
      obtain ⟨hmem, hpass⟩ := ih h
      exact ⟨mem_cons_of_mem _ hmem, hpass⟩

theorem Linked.makeRoom {lib : WpsIeLib} (h : Linked w)
    (hsafe : w.conf.bssMaxCount < w.numBss + 1 → ∀ p, oldestUnknown lib w = some p → w.currentBss ≠ some p)
    (hr : makeRoom lib w = .ok w') :
    (w'.heap = w.heap ∧ w'.bss = w.bss ∧ w'.currentBss = w.currentBss) ∨
      ∃ p ∈ w.bss, ∃ bss, w.currentBss ≠ some p ∧ w' = w.removed p bss := by
  unfold WpaSupplicant.makeRoom at hr
  split at hr
  · rename_i hfull
    obtain ⟨evicted, holdest, hr⟩ := except_bind_ok hr
    obtain ⟨unknown, hunknown, holdest⟩ := except_bind_ok holdest
    obtain ⟨oldest, hfind, hunknown⟩ := except_bind_ok hunknown
    have hfound : w.findEntry (fun _ bss => .ok (!w.wpaBssKnown bss && !wpaBssIsWpsCandidate lib w bss)) w.bss =
        .ok (oldestUnknown lib w) := by
      refine findEntry_eq fun p hp => ?_
      obtain ⟨bss, hbss, -⟩ := h.deref hp
      refine ⟨bss, hbss, ?_⟩
      rw [hbss]
      rfl
    rw [hfound] at hfind
    have hfind := Except.ok.inj hfind
    cases oldest with
    | some p =>
      obtain ⟨w₁, hremove, hunknown⟩ := except_bind_ok hunknown
      obtain ⟨bss, rfl⟩ := wpaBssRemove_ok hremove
      cases hunknown
      cases holdest
      cases hr
      exact .inr ⟨p, mem_of_find?_eq_some hfind, bss, hsafe hfull p hfind, rfl⟩
    | none =>
      cases hunknown
      -- every entry is known, and the oldest unused one goes
      obtain ⟨oldest, hfind, holdest⟩ := except_bind_ok holdest
      cases oldest with
      | none =>
        cases holdest
        cases hr
        exact .inl ⟨rfl, rfl, rfl⟩
      | some p =>
        obtain ⟨w₁, hremove, holdest⟩ := except_bind_ok holdest
        obtain ⟨bss, rfl⟩ := wpaBssRemove_ok hremove
        cases holdest
        cases hr
        obtain ⟨hp, b, htest⟩ := findEntry_some hfind
        obtain ⟨inUse, hinUse, hnot⟩ := except_bind_ok htest
        have hunused : inUse = false := by simpa using Except.ok.inj hnot
        exact .inr ⟨p, hp, bss, ne_current_of_unused (hunused ▸ hinUse), rfl⟩
  · cases hr
    exact .inl ⟨rfl, rfl, rfl⟩

theorem Linked.wpaBssAdd {lib : WpsIeLib} (h : Linked w) {ssid : Bytes} {res : WpaScanRes}
    {fetchTime : OsReltime} {alloc : Option Ptr} {added : Option Ptr}
    (hsafe : (w.osZalloc alloc).isSome → w.conf.bssMaxCount < w.numBss + 1 →
      ∀ p, oldestUnknown lib w = some p → w.currentBss ≠ some p)
    (hr : wpaBssAdd lib w ssid res fetchTime alloc = .ok (w', added)) :
    Linked w' ∧ (w.osZalloc alloc = none ∧ w' = w ∨
      (w.osZalloc alloc).isSome ∧ Appended w w' none (calculateUpdateTime fetchTime res.age)) := by
  unfold WpaSupplicant.wpaBssAdd at hr
  cases halloc : w.osZalloc alloc with
  | none =>
    rw [halloc] at hr
    cases hr
    exact ⟨h, .inl ⟨rfl, rfl⟩⟩
  | some p =>
    rw [halloc] at hr hsafe
    obtain ⟨w₂, hroom, hr⟩ := except_bind_ok hr
    cases hr
    have hfree : w.heap p = none := by
      obtain ⟨-, hp⟩ := Option.filter_eq_some_iff.1 halloc
      simpa using hp
    have hnot : p ∉ w.bss := fun hp => by
      have hsome := h.allocated p hp
      rw [hfree] at hsome
      cases hsome
    have hne : ∀ q ∈ w.bss, q ≠ p := fun q hq heq => hnot (heq ▸ hq)
    -- the block is there before room is made for it
    generalize hw₁ : WpaSupplicant.store { w with bssNextId := w.bssNextId + 1 } p
      (newBss w.bssNextId w.bssUpdateIdx ssid res fetchTime) = w₁ at hroom
    have hbss₁ : w₁.bss = w.bss := by rw [← hw₁]; rfl
    have hcurrent₁ : w₁.currentBss = w.currentBss := by rw [← hw₁]; rfl
    have hheap₁ : ∀ q, q ≠ p → w₁.heap q = w.heap q := by
      intro q hq
      rw [← hw₁]
      exact Function.update_of_ne hq ..
    have hself₁ : w₁.heap p = some (newBss w.bssNextId w.bssUpdateIdx ssid res fetchTime) := by
      rw [← hw₁]
      exact Function.update_self ..
    have hlinked₁ : Linked w₁ := by
      have hnext : Linked { w with bssNextId := w.bssNextId + 1 } := h.congr rfl rfl rfl
      rw [← hw₁]
      exact hnext.store p _
    have hold : oldestUnknown lib w₁ = oldestUnknown lib w := by
      rw [← hw₁]
      exact oldestUnknown_congr rfl rfl fun q hq => Function.update_of_ne (hne q hq) ..
    have hsafe₁ : w₁.conf.bssMaxCount < w₁.numBss + 1 →
        ∀ q, oldestUnknown lib w₁ = some q → w₁.currentBss ≠ some q := by
      intro hfull q hq
      rw [hcurrent₁]
      rw [hold] at hq
      refine hsafe rfl ?_ q hq
      rw [← hw₁] at hfull
      exact hfull
    -- what is left when there is room
    obtain ⟨hsub, hcurrent, hkept⟩ : List.Sublist w₂.bss w.bss ∧ (∀ q, w₂.currentBss = some q → q ∈ w₂.bss) ∧
        ∀ q, q ∈ w₂.bss ∨ q = p → w₂.heap q = w₁.heap q := by
      rcases hlinked₁.makeRoom hsafe₁ hroom with ⟨hheap, hbss, hcur⟩ | ⟨v, hv, bss, hcur, rfl⟩
      · refine ⟨by rw [hbss, hbss₁], fun q hq => ?_, fun q _ => by rw [hheap]⟩
        rw [hbss]
        exact hlinked₁.current q (hcur ▸ hq)
      · refine ⟨?_, (hlinked₁.removed hcur bss).current, fun q hq => ?_⟩
        · rw [← hbss₁]
          exact erase_sublist
        · have hqv : q ≠ v := by
            rcases hq with hq | rfl
            · exact (hlinked₁.nodup.mem_erase_iff.1 hq).1
            · rintro rfl
              exact hnot (hbss₁ ▸ hv)
          exact Function.update_of_ne hqv ..
    have hpnot : p ∉ w₂.bss := fun hp => hnot (hsub.subset hp)
    have hself : w₂.heap p = some (newBss w.bssNextId w.bssUpdateIdx ssid res fetchTime) :=
      (hkept p (.inr rfl)).trans hself₁
    have hother : ∀ q ∈ w₂.bss, w₂.heap q = w.heap q := fun q hq =>
      (hkept q (.inl hq)).trans (hheap₁ q (hne q (hsub.subset hq)))
    refine ⟨⟨?_, fun q hq => ?_, fun q hq => mem_append_left _ (hcurrent q hq)⟩, .inr ⟨rfl, ?_⟩⟩
    · show (w₂.bss ++ [p]).Nodup
      rw [← concat_eq_append]
      exact (h.nodup.sublist hsub).concat hpnot
    · rcases mem_append.1 hq with hq | hq
      · show (w₂.heap q).isSome
        rw [hother q hq]
        exact h.allocated q (hsub.subset hq)
      · rw [mem_singleton.1 hq]
        show (w₂.heap p).isSome
        rw [hself]
        rfl
    · refine ⟨w₂.bss, p, rfl, hsub, fun q hq => ⟨nofun, hother q hq⟩, fun bss hbss => ?_⟩
      rw [show w₂.heap p = some bss from hbss] at hself
      cases hself
      rfl

theorem Linked.place (h : Linked w) (hp : p ∈ w.bss) {new : Ptr} (hnew : new = p ∨ w.heap new = none)
    (hbss : w'.bss = w.bss.erase p ++ [new]) (hheap : ∀ q, q ≠ p → q ≠ new → w'.heap q = w.heap q)
    {bss : WpaBss} (hself : w'.heap new = some bss) {t : OsReltime} (ht : bss.lastUpdate = t)
    (hcurrent : w'.currentBss = if w.currentBss = some p then some new else w.currentBss) :
    Linked w' ∧ Appended w w' (some p) t := by
  have hmem : ∀ q, q ∈ w.bss.erase p ↔ q ≠ p ∧ q ∈ w.bss := fun q => h.nodup.mem_erase_iff
  have hne : ∀ q ∈ w.bss.erase p, q ≠ new := by
    rintro q hq rfl
    obtain ⟨hqp, hq⟩ := (hmem q).1 hq
    rcases hnew with rfl | hfree
    · exact hqp rfl
    · have hsome := h.allocated q hq
      rw [hfree] at hsome
      cases hsome
  have hsame : ∀ q ∈ w.bss.erase p, w'.heap q = w.heap q := fun q hq => hheap q ((hmem q).1 hq).1 (hne q hq)
  refine ⟨⟨?_, fun q hq => ?_, fun q hq => ?_⟩, ⟨w.bss.erase p, new, hbss, erase_sublist, fun q hq => ?_, ?_⟩⟩
  · rw [hbss, ← concat_eq_append]
    exact (h.nodup.erase p).concat fun hin => hne new hin rfl
  · rw [hbss] at hq
    rcases mem_append.1 hq with hq | hq
    · rw [hsame q hq]
      exact h.allocated q ((hmem q).1 hq).2
    · rw [mem_singleton.1 hq, hself]
      rfl
  · rw [hbss]
    rw [hcurrent] at hq
    split at hq
    · cases hq
      exact mem_append_right _ (mem_singleton_self _)
    · rename_i hother
      exact mem_append_left _ ((hmem q).2 ⟨fun heq => hother (heq ▸ hq), h.current q hq⟩)
  · exact ⟨fun heq => ((hmem q).1 hq).1 (Option.some.inj heq).symm, hsame q hq⟩
  · intro b hb
    rw [hself] at hb
    cases hb
    exact ht

theorem Linked.wpaBssUpdate (h : Linked w) (hp : p ∈ w.bss) {old : WpaBss} (hold : w.heap p = some old)
    {res : WpaScanRes} {fetchTime : OsReltime} {alloc : Option Ptr} {new : Ptr}
    (hr : wpaBssUpdate w p res fetchTime alloc = .ok (w', new)) :
    Linked w' ∧ (w' = w ∨
      ¬ (old.lastUpdateIdx == w.bssUpdateIdx && (flagAssociated old.flags || (!flagAssociated res.flags &&
        !osReltimeBefore old.lastUpdate (calculateUpdateTime fetchTime res.age)))) = true ∧
      Appended w w' (some p) (calculateUpdateTime fetchTime res.age)) := by
  unfold WpaSupplicant.wpaBssUpdate at hr
  rw [show w.deref p = .ok old by unfold WpaSupplicant.deref; rw [hold], bind_of_ok rfl] at hr
  dsimp only at hr
  have hstored (bss : WpaBss) : Linked { w.store p bss with bss := w.bss.erase p ++ [p] } ∧
      Appended w { w.store p bss with bss := w.bss.erase p ++ [p] } (some p) bss.lastUpdate := by
    refine h.place hp (.inl rfl) rfl (fun q hq _ => Function.update_of_ne hq ..) (Function.update_self ..)
      rfl ?_
    show w.currentBss = _
    split
    · assumption
    · rfl
  split at hr
  · cases hr
    exact ⟨h, .inl rfl⟩
  · rename_i hcurrent
    have hnewer : ¬ (old.lastUpdateIdx == w.bssUpdateIdx && (flagAssociated old.flags ||
        (!flagAssociated res.flags &&
          !osReltimeBefore old.lastUpdate (calculateUpdateTime fetchTime res.age)))) = true := by
      rw [Bool.and_eq_true, beq_iff_eq]
      exact hcurrent
    split_ifs at hr
    · cases hr
      obtain ⟨hlinked, happ⟩ := hstored _
      exact ⟨hlinked, .inr ⟨hnewer, happ⟩⟩
    · cases hr
      obtain ⟨hlinked, happ⟩ := hstored _
      exact ⟨hlinked, .inr ⟨hnewer, happ⟩⟩
    · split at hr
      · cases hr
        obtain ⟨hlinked, happ⟩ := hstored _
        exact ⟨hlinked, .inr ⟨hnewer, happ⟩⟩
      · rename_i q hrealloc
        obtain ⟨hw', rfl⟩ := Prod.mk.inj (Except.ok.inj hr)
        have hfree : q = p ∨ w.heap q = none := by
          obtain ⟨-, hq⟩ := Option.filter_eq_some_iff.1 hrealloc
          simpa using hq
        have hplace : Linked w' ∧ Appended w w' (some p) (calculateUpdateTime fetchTime res.age) := by
          rw [← hw']
          refine h.place hp hfree rfl (fun r hr hrnew => ?_) (Function.update_self ..) rfl rfl
          exact (Function.update_of_ne hrnew ..).trans (Function.update_of_ne hr ..)
        exact ⟨hplace.1, .inr ⟨hnewer, hplace.2⟩⟩

theorem addToScanRes_frame (w : WpaSupplicant) (p : Ptr) (grow : Bool) :
    (w.addToScanRes p grow).heap = w.heap ∧ (w.addToScanRes p grow).bss = w.bss ∧
      (w.addToScanRes p grow).currentBss = w.currentBss := by
  unfold addToScanRes
  split_ifs <;> exact ⟨rfl, rfl, rfl⟩

theorem Appended.congr {old : Option Ptr} {t : OsReltime} (h : Appended w w' old t) (hheap : w''.heap = w'.heap)
    (hbss : w''.bss = w'.bss) : Appended w w'' old t := by
  obtain ⟨h⟩ := h
  rw [← hbss, ← hheap] at h
  exact ⟨h⟩

theorem Linked.wpaBssUpdateScanRes {lib : WpsIeLib} (h : Linked w) {res : WpaScanRes} {fetchTime : OsReltime}
    {alloc : Option Ptr} {grow : Bool}
    (hok : stepKeepsCurrent lib w (.updateScanRes res fetchTime alloc grow) = true)
    (hr : wpaBssUpdateScanRes lib w res fetchTime alloc grow = .ok w') :
    Linked w' ∧ (Thinned w w' ∨ ∃ old, w.placed res fetchTime alloc = some old ∧
      Appended w w' old (calculateUpdateTime fetchTime res.age)) := by
  unfold WpaSupplicant.wpaBssUpdateScanRes at hr
  cases hssid : w.scanResSsid res fetchTime with
  | none =>
    rw [hssid] at hr
    cases hr
    exact ⟨h, .inl (.refl _)⟩
  | some ssid =>
    rw [hssid] at hr
    obtain ⟨old, hget, hr⟩ := except_bind_ok hr
    cases old with
    | none =>
      obtain ⟨⟨w₁, added⟩, hadd, hr⟩ := except_bind_ok hr
      have hplaced : (w.osZalloc alloc).isSome → w.placed res fetchTime alloc = some none := by
        intro halloc
        unfold placed
        simp only [hssid, hget]
        exact if_pos halloc
      obtain ⟨hlinked, hout⟩ := h.wpaBssAdd (fun halloc hfull p hp hcur => by
        simp [stepKeepsCurrent, hplaced halloc, hfull, hp, hcur] at hok) hadd
      have hthin : Thinned w w₁ ∨ ∃ old, w.placed res fetchTime alloc = some old ∧
          Appended w w₁ old (calculateUpdateTime fetchTime res.age) := by
        rcases hout with ⟨-, rfl⟩ | ⟨halloc, happ⟩
        · exact .inl (.refl _)
        · exact .inr ⟨none, hplaced halloc, happ⟩
      cases added with
      | none =>
        cases hr
        exact ⟨hlinked, hthin⟩
      | some p =>
        cases hr
        obtain ⟨hheap, hbss, hcur⟩ := addToScanRes_frame w₁ p grow
        refine ⟨hlinked.congr hheap hbss hcur, hthin.imp (fun ht => ht.trans (.congr hheap hbss)) ?_⟩
        rintro ⟨old, hold, happ⟩
        exact ⟨old, hold, happ.congr hheap hbss⟩
    | some p =>
      obtain ⟨⟨w₁, p'⟩, hupdate, hr⟩ := except_bind_ok hr
      have hp : p ∈ w.bss := by
        unfold WpaSupplicant.wpaBssGet at hget
        split at hget
        · cases hget
        · exact (findEntry_some hget).1
      obtain ⟨old, hold, -⟩ := h.deref hp
      obtain ⟨hlinked, hout⟩ := h.wpaBssUpdate hp hold hupdate
      have hthin : Thinned w w₁ ∨ ∃ old, w.placed res fetchTime alloc = some old ∧
          Appended w w₁ old (calculateUpdateTime fetchTime res.age) := by
        rcases hout with rfl | ⟨hnewer, happ⟩
        · exact .inl (.refl _)
        · refine .inr ⟨some p, ?_, happ⟩
          unfold placed
          simp only [hssid, hget, hold, Option.any_some]
          exact if_neg hnewer
      dsimp only at hr
      split at hr
      · cases hr
        exact ⟨hlinked, hthin⟩
      · cases hr
        obtain ⟨hheap, hbss, hcur⟩ := addToScanRes_frame w₁ p' grow
        refine ⟨hlinked.congr hheap hbss hcur, hthin.imp (fun ht => ht.trans (.congr hheap hbss)) ?_⟩
        rintro ⟨old, hold, happ⟩
        exact ⟨old, hold, happ.congr hheap hbss⟩

/-! ## Runs -/

theorem Linked.step {lib : WpsIeLib} (h : Linked w) {e : BssEvent} (hok : stepKeepsCurrent lib w e = true)
    (hs : step lib w e = .ok w') :
    Linked w' ∧ (Thinned w w' ∨ ∃ res fetchTime alloc grow old, e = .updateScanRes res fetchTime alloc grow ∧
      w.placed res fetchTime alloc = some old ∧ Appended w w' old (calculateUpdateTime fetchTime res.age)) := by
  cases e with
  | updateScanRes res fetchTime alloc grow =>
    obtain ⟨hlinked, hout⟩ := h.wpaBssUpdateScanRes hok hs
    refine ⟨hlinked, hout.imp id ?_⟩
    rintro ⟨old, hold, happ⟩
    exact ⟨res, fetchTime, alloc, grow, old, rfl, hold, happ⟩
  | updateEnd info newScan now =>
    have hlinked : Linked { w with lastScan := now } := h.congr rfl rfl rfl
    have hframe : Thinned w { w with lastScan := now } := .congr rfl rfl
    have hs : w.wpaBssUpdateEnd info newScan now = .ok w' := hs
    unfold WpaSupplicant.wpaBssUpdateEnd at hs
    dsimp only at hs
    split at hs
    · cases hs
      exact ⟨hlinked, .inl hframe⟩
    · obtain ⟨hlinked', hthin⟩ := hlinked.expireBss info hs
      exact ⟨hlinked', .inl (hframe.trans hthin)⟩
  | flushByAge age now =>
    obtain ⟨w₁, hr, hlinked, hthin, -⟩ := h.flushOlder { now with sec := now.sec - age } h.nodup fun _ hp => hp
    cases hr.symm.trans hs
    exact ⟨hlinked, .inl hthin⟩
  | flush =>
    have hlinked : Linked { w with clearDriverScanCache := true } := h.congr rfl rfl rfl
    have hframe : Thinned w { w with clearDriverScanCache := true } := .congr rfl rfl
    obtain ⟨hlinked', hthin⟩ := hlinked.flushUnused hs
    exact ⟨hlinked', .inl (hframe.trans hthin)⟩
  | setCurrentBss p =>
    cases hs
    split
    · rename_i hp
      exact ⟨⟨h.nodup, h.allocated, hp⟩, .inl (.congr rfl rfl)⟩
    · exact ⟨h, .inl (.refl _)⟩
  | updateStart => cases hs; exact ⟨h.congr rfl rfl rfl, .inl (.congr rfl rfl)⟩
  | configure conf => cases hs; exact ⟨h.congr rfl rfl rfl, .inl (.congr rfl rfl)⟩
  | setBssidFilter filter => cases hs; exact ⟨h.congr rfl rfl rfl, .inl (.congr rfl rfl)⟩
  | scanTriggered now => cases hs; exact ⟨h.congr rfl rfl rfl, .inl (.congr rfl rfl)⟩
  | setBssids bssid pendingBssid => cases hs; exact ⟨h.congr rfl rfl rfl, .inl (.congr rfl rfl)⟩
  | smeAuthenticate p =>
    cases hs
    split <;> exact ⟨h.congr rfl rfl rfl, .inl (.congr rfl rfl)⟩
  | associate p =>
    cases hs
    split <;> exact ⟨h.congr rfl rfl rfl, .inl (.congr rfl rfl)⟩
  | connectWorkDone sme =>
    cases hs
    cases sme <;> exact ⟨h.congr rfl rfl rfl, .inl (.congr rfl rfl)⟩

def Ordered (w : WpaSupplicant) : Prop :=
  w.bss.Pairwise fun p q => ∀ a b, w.heap p = some a → w.heap q = some b →
    osReltimeBefore b.lastUpdate a.lastUpdate = false

theorem Ordered.thinned (h : Ordered w) (hthin : Thinned w w') : Ordered w' := by
  refine (List.Pairwise.sublist hthin.sublist h).imp ?_
  intro p q hpq a b ha hb
  obtain ⟨a₀, ha₀, hta⟩ := hthin.times p a ha
  obtain ⟨b₀, hb₀, htb⟩ := hthin.times q b hb
  rw [← hta, ← htb]
  exact hpq a₀ b₀ ha₀ hb₀

theorem Ordered.appended {old : Option Ptr} {t : OsReltime} (h : Ordered w) (happ : Appended w w' old t)
    (hlast : ∀ p ∈ w.bss, old ≠ some p → ∀ bss, w.heap p = some bss →
      osReltimeBefore t bss.lastUpdate = false) :
    Ordered w' := by
  obtain ⟨l, p, hbss, hsub, hkept, htime⟩ := happ.bss
  unfold Ordered
  rw [hbss, pairwise_append]
  refine ⟨(h.sublist hsub).imp_of_mem ?_, pairwise_singleton _ _, ?_⟩
  · intro q r hq hr hqr a b ha hb
    rw [(hkept q hq).2] at ha
    rw [(hkept r hr).2] at hb
    exact hqr a b ha hb
  · intro q hq r hr a b ha hb
    obtain ⟨hne, hheap⟩ := hkept q hq
    rw [mem_singleton.1 hr] at hb
    rw [hheap] at ha
    rw [htime b hb]
    exact hlast q (hsub.subset hq) hne a ha

theorem Ordered.step {lib : WpsIeLib} (h : Ordered w) (hlinked : Linked w) {e : BssEvent}
    (hok : stepKeepsCurrent lib w e = true) (horder : stepInOrder w e = true) (hs : step lib w e = .ok w') :
    Ordered w' := by
  obtain ⟨-, hthin | ⟨res, fetchTime, alloc, grow, old, rfl, hold, happ⟩⟩ := hlinked.step hok hs
  · exact h.thinned hthin
  · refine h.appended happ fun p hp hne bss hbss => ?_
    unfold stepInOrder at horder
    dsimp only at horder
    rw [hold, Option.all_some, all_eq_true] at horder
    have hentry := horder p hp
    rw [hbss] at hentry
    simpa [hne] using hentry

/-- No unused entry that is too old stands behind an unused one that is not. -/
def StaleInFront (w : WpaSupplicant) (t : OsReltime) : Prop :=
  (w.bss.filter w.unused).Pairwise fun p q => w.olderThan t q = true → w.olderThan t p = true

theorem Ordered.staleInFront (h : Ordered w) (hlinked : Linked w) (t : OsReltime) : StaleInFront w t := by
  refine (List.Pairwise.sublist filter_sublist h).imp_of_mem ?_
  intro p q hp hq hpq hold
  obtain ⟨a, ha, -⟩ := hlinked.deref (mem_of_mem_filter hp)
  obtain ⟨b, hb, -⟩ := hlinked.deref (mem_of_mem_filter hq)
  unfold olderThan at hold ⊢
  rw [ha, Option.any_some]
  rw [hb, Option.any_some] at hold
  exact osReltimeBefore_trans (hpq a b ha hb) hold

/-- No entry that is not in use was updated before the time. -/
def NothingOlder (w : WpaSupplicant) (t : OsReltime) : Prop :=
  ∀ p ∈ w.bss, w.wpaBssInUse p = .ok false → ∀ bss, w.heap p = some bss →
    osReltimeBefore bss.lastUpdate t = false

/-- Entries that are in use or were updated at the time or later are there as they were. -/
def KeepsRecent (w w' : WpaSupplicant) (t : OsReltime) : Prop :=
  ∀ p ∈ w.bss, ∀ bss, w.heap p = some bss →
    (w.wpaBssInUse p = .ok true ∨ osReltimeBefore bss.lastUpdate t = false) → p ∈ w'.bss ∧ w'.heap p = some bss

theorem Linked.wpaBssFlushByAge (h : Linked w) (age : Int) (now : OsReltime) :
    ∃ w', w.wpaBssFlushByAge age now = .ok w' ∧ KeepsRecent w w' { now with sec := now.sec - age } ∧
      (NothingOlder w' { now with sec := now.sec - age } ↔
        StaleInFront w { now with sec := now.sec - age }) := by
  generalize ht : ({ now with sec := now.sec - age } : OsReltime) = t
  obtain ⟨w', hr, -, -, hmem, hkept⟩ := h.flushOlder t h.nodup fun _ hp => hp
  refine ⟨w', ?_, ?_, ?_⟩
  · unfold WpaSupplicant.wpaBssFlushByAge
    rw [ht]
    exact hr
  · intro p hp bss hbss hwhy
    have hnot : p ∉ w.flushed t w.bss := by
      intro hflushed
      obtain ⟨-, hunused⟩ := mem_filter.1 ((takeWhile_sublist _).subset hflushed)
      have hold := all_eq_true.1 all_takeWhile p hflushed
      rcases hwhy with huse | hrecent
      · rw [unused, huse] at hunused
        cases of_decide_eq_true hunused
      · rw [olderThan, hbss, Option.any_some, hrecent] at hold
        cases hold
    have hin := (hmem p).2 ⟨hp, hnot⟩
    exact ⟨hin, (hkept p hin).1.trans hbss⟩
  · unfold StaleInFront
    rw [← mem_takeWhile_iff_pairwise (h.nodup.filter _)]
    constructor
    · intro hnothing p hp hold
      obtain ⟨hp, hunused⟩ := mem_filter.1 hp
      by_contra hnot
      have hin := (hmem p).2 ⟨hp, hnot⟩
      obtain ⟨hheap, huse⟩ := hkept p hin
      obtain ⟨bss, hbss, -⟩ := h.deref hp
      have hrecent := hnothing p hin (huse.trans (of_decide_eq_true hunused)) bss (hheap.trans hbss)
      rw [olderThan, hbss, Option.any_some, hrecent] at hold
      cases hold
    · intro hall p hin hunused bss hbss
      obtain ⟨hheap, huse⟩ := hkept p hin
      obtain ⟨hp, hnot⟩ := (hmem p).1 hin
      rw [Bool.eq_false_iff]
      intro hold
      refine hnot (hall p (mem_filter.2 ⟨hp, decide_eq_true (huse.symm.trans hunused)⟩) ?_)
      rw [olderThan, ← hheap, hbss, Option.any_some]
      exact hold

theorem linked_init (conf : WpaConfig) (p2pGroupInterface : Bool) : Linked { conf, p2pGroupInterface } :=
  (good_init conf p2pGroupInterface).1.linked

end WpaSupplicant

open WpaSupplicant

/-- In every run from an empty table in which no new entry takes the place of the current one in a full table,
the flush removes no entry that is in use or recent enough, and it leaves no unused entry that is too old if
and only if none stands behind an unused one that is recent enough. In such a run in which no result is older
than another entry when it is put into the table it leaves none, for every age and at any time. -/
theorem bss_flush_by_age {lib : WpsIeLib} {conf : WpaConfig} {p2pGroupInterface : Bool} {evs : List BssEvent}
    {w : WpaSupplicant}
    (hrun : Run.Reach (step lib) (fun w e => stepKeepsCurrent lib w e = true) { conf, p2pGroupInterface } evs w)
    (age : Int) (now : OsReltime) :
    ∃ w', w.wpaBssFlushByAge age now = .ok w' ∧ KeepsRecent w w' { now with sec := now.sec - age } ∧
      (NothingOlder w' { now with sec := now.sec - age } ↔ StaleInFront w { now with sec := now.sec - age }) ∧
      (Run.Reach (step lib) (fun w e => stepKeepsCurrent lib w e = true ∧ stepInOrder w e = true)
        { conf, p2pGroupInterface } evs w → NothingOlder w' { now with sec := now.sec - age }) := by
  have hlinked : Linked w := by
    refine hrun.invariant (I := Linked) (linked_init conf p2pGroupInterface) ?_
    intro w e w' h hok hs
    exact (h.step hok hs).1
  obtain ⟨w', hr, hkeeps, hiff⟩ := hlinked.wpaBssFlushByAge age now
  refine ⟨w', hr, hkeeps, hiff, fun horder => hiff.2 ?_⟩
  have hordered : Linked w ∧ Ordered w := by
    refine horder.invariant (I := fun w => Linked w ∧ Ordered w)
      ⟨linked_init conf p2pGroupInterface, List.Pairwise.nil⟩ ?_
    rintro w e w' ⟨h, hsorted⟩ ⟨hok, hin⟩ hs
    exact ⟨(h.step hok hs).1, hsorted.step h hok hin hs⟩
  exact hordered.2.staleInFront hlinked _

def smallAgeingRun : List BssEvent :=
  [.updateStart, .updateScanRes (smallScanRes 1) { sec := 1000 } (some 100) true,
    .updateScanRes { smallScanRes 2 with age := 20000 } { sec := 1000 } (some 200) true]

/-- In the other order the older one goes, and the other one stays. -/
theorem bss_flush_by_age_small :
    ∃ w w', w.bss = [200, 100] ∧ w.wpaBssFlushByAge 10 { sec := 1001 } = .ok w' ∧
      KeepsRecent w w' { sec := 991 } ∧ NothingOlder w' { sec := 991 } := by
  have hrun := Run.reach_of_runWhile_any (step smallWpsIeLib)
    (fun w e => stepKeepsCurrent smallWpsIeLib w e = true ∧ stepInOrder w e = true)
    { conf := { smallBssConf with bssMaxCount := 2 } }
    [.updateStart, .updateScanRes { smallScanRes 2 with age := 20000 } { sec := 1000 } (some 200) true,
      .updateScanRes (smallScanRes 1) { sec := 1000 } (some 100) true]
    (fun w => decide (w.bss = [200, 100])) (by decide +kernel)
  obtain ⟨w, hrun, hw⟩ := hrun
  obtain ⟨w', hr, hkeeps, -, hnothing⟩ := bss_flush_by_age (hrun.mono fun _ _ h => h.1) 10 { sec := 1001 }
  exact ⟨w, w', of_decide_eq_true hw, hr, hkeeps, hnothing hrun⟩

/-- The entry of the network that was seen 20 seconds ago is still there after a flush of all that were not
updated during the last 10. -/
theorem bss_flush_by_age_leaves_old :
    ∃ w w', Run.Reach (step smallWpsIeLib) (fun w e => stepKeepsCurrent smallWpsIeLib w e = true)
        { conf := { smallBssConf with bssMaxCount := 2 } } smallAgeingRun w ∧
      w.wpaBssFlushByAge 10 { sec := 1001 } = .ok w' ∧ ¬ NothingOlder w' { sec := 991 } := by
  let leaves : WpaSupplicant → Bool := fun w =>
    match w.wpaBssFlushByAge 10 { sec := 1001 } with
    | .error _ => false
    | .ok w' => decide (200 ∈ w'.bss) && w'.unused 200 && w'.olderThan { sec := 991 } 200
  obtain ⟨w, hrun, hw⟩ := Run.reach_of_runWhile_any (step smallWpsIeLib)
    (fun w e => stepKeepsCurrent smallWpsIeLib w e = true) { conf := { smallBssConf with bssMaxCount := 2 } }
    smallAgeingRun leaves (by decide +kernel)
  dsimp only [leaves] at hw
  split at hw
  · cases hw
  · rename_i w' hflush
    rw [Bool.and_eq_true, Bool.and_eq_true] at hw
    obtain ⟨⟨hmem, hunused⟩, hold⟩ := hw
    obtain ⟨bss, hbss, hbefore⟩ := (Option.any_eq_true ..).1 hold
    refine ⟨w, w', hrun, hflush, fun hnothing => ?_⟩
    rw [hnothing 200 (of_decide_eq_true hmem) (of_decide_eq_true hunused) bss hbss] at hbefore
    cases hbefore

end Hostap
