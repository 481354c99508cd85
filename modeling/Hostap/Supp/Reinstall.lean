import Hostap.Lib.Run
import Hostap.Rsn.SmallLib
import Hostap.Supp.Steps

/-!
# No reinstallation of a pairwise key

Frames arrive in any order and number at a supplicant that has just associated (`Associated`). The
random number generator gives no SNonce twice (`FreshDraws`); the driver may refuse a key.

A temporal key belongs to the PMK, the ANonce and the SNonce it was derived from, the `origin` of
its PTK. Once the driver has taken it, it is not passed again: `installed` stops a PTK from being
installed twice, and a second PTK of the same origin cannot come up because the SNonce is renewed.
`KeyInv` says why, for both ways a temporary PTK becomes the PTK:

* with a MIC the SNonce is renewed at the promotion, so that a temporary PTK never shares its
  SNonce with the PTK;
* with AES-SIV the SNonce is kept until message 4/4 was sent, and a message 1/4 may derive the same
  keys once more. But there a temporary PTK always takes the place of the PTK before keys are used.

A key the driver refuses is passed again with the next message 3/4, so the bound is on keys taken.
-/

namespace Hostap

open Octets List

abbrev KeyOrigin : Type := Bytes × Bytes × Bytes

def SuppObs.IsSetPtk : SuppObs → Prop
  | .setPtk _ _ _ _ => True
  | _ => False

def SuppObs.Sets (o : KeyOrigin) : SuppObs → Prop
  | .setPtk origin _ _ _ => origin = some o
  | _ => False

/-- The observation passes the key to the driver, and it takes it. -/
def SuppObs.Installs (o : KeyOrigin) : SuppObs → Prop
  | .setPtk origin _ _ ok => origin = some o ∧ ok = true
  | _ => False

def SuppObs.counter : SuppObs → Option Bytes
  | .micVerified _ _ counter | .sivVerified _ _ counter => some counter
  | _ => none

def NoReinstall (log : List SuppObs) : Prop :=
  log.Pairwise fun a b => ∀ o, a.Installs o → ¬ b.Sets o

def verifiedCounters (log : List SuppObs) : List Bytes := log.filterMap SuppObs.counter

/-- The frames that were verified have increasing replay counters. -/
def CountersIncrease (log : List SuppObs) : Prop :=
  (verifiedCounters log).Pairwise fun c c' => beNat c < beNat c'

/-- The state `wpa_sm_notify_assoc()` leaves. -/
structure Associated (sm : WpaSm) : Prop where
  ptkSet : sm.ptkSet = false
  tptkSet : sm.tptkSet = false
  ptk : sm.ptk = {}
  renew : sm.renewSnonce = true
  counterSet : sm.rxReplayCounterSet = false
  drawn : sm.drawn = []
  log : sm.log = []

def suppStep (lib : RsnLib) (sm : WpaSm) (ev : Bytes × SuppEnv) : Except Empty WpaSm :=
  .ok (wpaSmRxEapol lib ev.2 ev.1 sm).2

def FreshDraws (sm : WpaSm) (ev : Bytes × SuppEnv) : Prop :=
  ∀ n ∈ sm.drawn, ev.2.random ≠ some n ∧ ev.2.randomFt ≠ some n

/-! ## The invariant on keys -/

/-- What holds of the keys between frames. -/
structure KeyInv (sm : WpaSm) : Prop where
  /-- A key that is not set is not there. -/
  ptkUnset : sm.ptkSet = false → sm.ptk.tk = []
  /-- SNonces come from the generator. -/
  snonce : sm.renewSnonce = false → sm.snonce ∈ sm.drawn
  ptkOrigin : sm.ptkSet = true → ∃ o, sm.ptk.origin = some o ∧ o.2.2 ∈ sm.drawn
  tptkOrigin : sm.tptkSet = true → ∃ o, sm.tptk.origin = some o ∧ o.2.2 ∈ sm.drawn
  /-- Without a MIC field there is no KCK either. -/
  micLen : sm.ptkSet = true ∨ sm.tptkSet = true → sm.micLen = 0 → wpaKeyMgmtFils sm.keyMgmt = true
  ptkKck : wpaKeyMgmtFils sm.keyMgmt = true → sm.ptkSet = true → sm.ptk.kck = []
  tptkKck : wpaKeyMgmtFils sm.keyMgmt = true → sm.tptkSet = true → sm.tptk.kck = []
  /-- With a MIC field the SNonce of the PTK is not used again. -/
  renewed : wpaKeyMgmtFils sm.keyMgmt = false → sm.ptkSet = true → sm.renewSnonce = false →
    ∀ o, sm.ptk.origin = some o → sm.snonce ≠ o.2.2
  apart : wpaKeyMgmtFils sm.keyMgmt = false → sm.ptkSet = true → sm.tptkSet = true →
    ∀ o o', sm.ptk.origin = some o → sm.tptk.origin = some o' → o'.2.2 ≠ o.2.2
  /-- A key the driver has taken cannot come up again. -/
  usedDrawn : ∀ o, (∃ ob ∈ sm.log, ob.Installs o) → o.2.2 ∈ sm.drawn
  usedSnonce : ∀ o, (∃ ob ∈ sm.log, ob.Installs o) → sm.renewSnonce = false → sm.snonce ≠ o.2.2
  usedTptk : ∀ o, (∃ ob ∈ sm.log, ob.Installs o) → sm.tptkSet = true → sm.tptk.origin ≠ some o
  usedPtk : ∀ o, (∃ ob ∈ sm.log, ob.Installs o) → sm.ptkSet = true → sm.ptk.origin = some o →
    sm.ptk.installed = true
  noReinstall : NoReinstall sm.log
  named : ∀ ob ∈ sm.log, ob.IsSetPtk → ∃ o, ob.Sets o

theorem Associated.keyInv {sm : WpaSm} (h : Associated sm) : KeyInv sm where
  ptkUnset _ := by rw [h.ptk]
  snonce hr := by simp [h.renew] at hr
  ptkOrigin hs := by simp [h.ptkSet] at hs
  tptkOrigin hs := by simp [h.tptkSet] at hs
  micLen hs := by simp [h.ptkSet, h.tptkSet] at hs
  ptkKck _ hs := by simp [h.ptkSet] at hs
  tptkKck _ hs := by simp [h.tptkSet] at hs
  renewed _ hs := by simp [h.ptkSet] at hs
  apart _ hs := by simp [h.ptkSet] at hs
  usedDrawn o hu := by simp [h.log] at hu
  usedSnonce o hu := by simp [h.log] at hu
  usedTptk o hu := by simp [h.log] at hu
  usedPtk o hu := by simp [h.log] at hu
  noReinstall := by
    rw [h.log]
    exact .nil
  named := by simp [h.log]

/-! ## Steps that set no key -/

def SetsNothing (l : List SuppObs) : Prop := ∀ ob ∈ l, ¬ ob.IsSetPtk

theorem SuppObs.Sets.isSetPtk {ob : SuppObs} {o : KeyOrigin} (h : ob.Sets o) : ob.IsSetPtk := by
  cases ob <;> first | exact trivial | exact h

theorem SuppObs.Installs.sets {ob : SuppObs} {o : KeyOrigin} (h : ob.Installs o) : ob.Sets o := by
  cases ob <;> first | exact h.1 | exact h

theorem installs_of_append {log l : List SuppObs} {o : KeyOrigin} (hl : SetsNothing l)
    (h : ∃ ob ∈ log ++ l, ob.Installs o) : ∃ ob ∈ log, ob.Installs o := by
  obtain ⟨ob, hob, hinst⟩ := h
  rcases mem_append.1 hob with hob | hob
  · exact ⟨ob, hob, hinst⟩
  · exact absurd hinst.sets.isSetPtk (hl ob hob)

theorem NoReinstall.append {log l : List SuppObs} (h : NoReinstall log) (hl : SetsNothing l) :
    NoReinstall (log ++ l) := by
  refine pairwise_append.2 ⟨h, ?_, ?_⟩
  · refine pairwise_iff_forall_sublist.2 ?_
    intro a b hsub o _
    exact fun hs => hl b (hsub.subset (by simp)) hs.isSetPtk
  · exact fun a _ b hb o _ hs => hl b hb hs.isSetPtk

theorem named_append {log l : List SuppObs} (h : ∀ ob ∈ log, ob.IsSetPtk → ∃ o, ob.Sets o)
    (hl : SetsNothing l) : ∀ ob ∈ log ++ l, ob.IsSetPtk → ∃ o, ob.Sets o := by
  intro ob hob hset
  rcases mem_append.1 hob with hob | hob
  · exact h ob hob hset
  · exact absurd hset (hl ob hob)

theorem Quiet.setsNothing {env : SuppEnv} {group : Bool} {sm sm' : WpaSm}
    (h : Quiet env group sm sm') : ∃ l, sm'.log = sm.log ++ l ∧ SetsNothing l := by
  obtain ⟨l, hl, hq⟩ := h.log
  refine ⟨l, hl, fun ob hob hsets => ?_⟩
  have hquiet := hq ob hob
  cases ob <;> first | exact hquiet | exact hsets

theorem KeyInv.quiet {env : SuppEnv} {group : Bool} {sm sm' : WpaSm} (h : KeyInv sm)
    (hq : Quiet env group sm sm')
    (hfresh : group = true → sm.renewSnonce = false → ∀ n ∈ sm.drawn, env.randomFt ≠ some n) :
    KeyInv sm' := by
  obtain ⟨l, hl, hsets⟩ := hq.setsNothing
  have hdrawn : ∀ n ∈ sm.drawn, n ∈ sm'.drawn := by
    obtain ⟨d, hd⟩ := hq.drawn
    intro n hn
    rw [hd]
    exact mem_append_left _ hn
  have hused : ∀ o, (∃ ob ∈ sm'.log, ob.Installs o) → ∃ ob ∈ sm.log, ob.Installs o := by
    intro o ho
    rw [hl] at ho
    exact installs_of_append hsets ho
  -- an SNonce in use is the one from before or fresh
  have hsnonce : sm.renewSnonce = false → ∀ n ∈ sm.drawn, sm.snonce ≠ n → sm'.snonce ≠ n := by
    intro hr n hn hne
    rcases hq.snonce with heq | ⟨hg, hdraw, -⟩
    · rw [heq]
      exact hne
    · intro heq
      exact hfresh hg hr n hn (heq ▸ hdraw)
  exact
    { ptkUnset := by
        rw [hq.ptkSet, hq.ptk]
        exact h.ptkUnset
      snonce := by
        intro hr
        rcases hq.snonce with heq | ⟨-, -, hmem⟩
        · rw [heq]
          exact hdrawn _ (h.snonce (hq.renew ▸ hr))
        · exact hmem
      ptkOrigin := by
        rw [hq.ptkSet, hq.ptk]
        intro hs
        obtain ⟨o, ho, hm⟩ := h.ptkOrigin hs
        exact ⟨o, ho, hdrawn _ hm⟩
      tptkOrigin := by
        rw [hq.tptkSet, hq.tptk]
        intro hs
        obtain ⟨o, ho, hm⟩ := h.tptkOrigin hs
        exact ⟨o, ho, hdrawn _ hm⟩
      micLen := by
        rw [hq.ptkSet, hq.tptkSet, hq.micLen, hq.keyMgmt]
        exact h.micLen
      ptkKck := by
        rw [hq.ptkSet, hq.ptk, hq.keyMgmt]
        exact h.ptkKck
      tptkKck := by
        rw [hq.tptkSet, hq.tptk, hq.keyMgmt]
        exact h.tptkKck
      renewed := by
        rw [hq.ptkSet, hq.ptk, hq.keyMgmt, hq.renew]
        intro hf hs hr o ho
        obtain ⟨o', ho', hm⟩ := h.ptkOrigin hs
        obtain rfl : o' = o := Option.some.inj (ho'.symm.trans ho)
        exact hsnonce hr _ hm (h.renewed hf hs hr o' ho)
      apart := by
        rw [hq.ptkSet, hq.tptkSet, hq.ptk, hq.tptk, hq.keyMgmt]
        exact h.apart
      usedDrawn := fun o ho => hdrawn _ (h.usedDrawn o (hused o ho))
      usedSnonce := by
        rw [hq.renew]
        intro o ho hr
        exact hsnonce hr _ (h.usedDrawn o (hused o ho)) (h.usedSnonce o (hused o ho) hr)
      usedTptk := by
        rw [hq.tptkSet, hq.tptk]
        exact fun o ho => h.usedTptk o (hused o ho)
      usedPtk := by
        rw [hq.ptkSet, hq.ptk]
        exact fun o ho => h.usedPtk o (hused o ho)
      noReinstall := by
        rw [hl]
        exact h.noReinstall.append hsets
      named := by
        rw [hl]
        exact named_append h.named hsets }

theorem KeyInv.note {sm : WpaSm} {ob : SuppObs} (h : KeyInv sm) (hob : SetsNothing [ob]) :
    KeyInv (sm.note ob) :=
  { h with
    usedDrawn := fun o ho => h.usedDrawn o (installs_of_append hob ho)
    usedSnonce := fun o ho => h.usedSnonce o (installs_of_append hob ho)
    usedTptk := fun o ho => h.usedTptk o (installs_of_append hob ho)
    usedPtk := fun o ho => h.usedPtk o (installs_of_append hob ho)
    noReinstall := h.noReinstall.append hob
    named := named_append h.named hob }

/-! ## Message 3/4 -/

theorem KeyInv.use {sm sm' : WpaSm} (h : KeyInv sm) (hu : KeyUse sm sm')
    (hfils : wpaKeyMgmtFils sm.keyMgmt = true → sm.tptkSet = false) : KeyInv sm' := by
  have hreplied : KeyInv { sm with renewSnonce := true } :=
    { h with
      snonce := fun hr => by simp at hr
      renewed := fun _ _ hr => by simp at hr
      usedSnonce := fun _ _ hr => by simp at hr }
  cases hu with
  | replied => exact hreplied
  | passed rsc ok hinst htk =>
    have hset : sm.ptkSet = true := by
      by_contra hne
      exact htk (h.ptkUnset (by simpa using hne))
    obtain ⟨o, ho, hdrawn⟩ := h.ptkOrigin hset
    -- nothing of this origin was taken before
    have hnot : ∀ ob ∈ sm.log, ¬ ob.Installs o := by
      intro ob hob hi
      have := h.usedPtk o ⟨ob, hob, hi⟩ hset ho
      rw [hinst] at this
      cases this
    have hlog : NoReinstall (sm.log ++ [.setPtk sm.ptk.origin sm.ptk.tk rsc ok]) := by
      refine pairwise_append.2 ⟨h.noReinstall, pairwise_singleton _ _, ?_⟩
      intro a ha b hb o' hi hs
      obtain rfl := mem_singleton.1 hb
      obtain rfl : o = o' := Option.some.inj (ho.symm.trans hs)
      exact hnot a ha hi
    have hnamed : ∀ ob ∈ sm.log ++ [.setPtk sm.ptk.origin sm.ptk.tk rsc ok],
        ob.IsSetPtk → ∃ o, ob.Sets o := by
      intro ob hob hs
      rcases mem_append.1 hob with hob | hob
      · exact h.named ob hob hs
      · obtain rfl := mem_singleton.1 hob
        exact ⟨o, ho⟩
    have hused : ∀ o', (∃ ob ∈ sm.log ++ [SuppObs.setPtk sm.ptk.origin sm.ptk.tk rsc ok],
        ob.Installs o') → (∃ ob ∈ sm.log, ob.Installs o') ∨ o' = o ∧ ok = true := by
      rintro o' ⟨ob, hob, hi⟩
      rcases mem_append.1 hob with hob | hob
      · exact .inl ⟨ob, hob, hi⟩
      · obtain rfl := mem_singleton.1 hob
        exact .inr ⟨(Option.some.inj (ho.symm.trans hi.1)).symm, hi.2⟩
    -- and a temporary PTK is of another origin
    have htptk : sm.tptkSet = true → sm.tptk.origin ≠ some o := by
      intro ht heq
      cases hf : wpaKeyMgmtFils sm.keyMgmt with
      | true =>
        rw [hfils hf] at ht
        cases ht
      | false => exact h.apart hf hset ht o o ho heq rfl
    have hdrawn' : ∀ o', (∃ ob ∈ sm.log ++ [SuppObs.setPtk sm.ptk.origin sm.ptk.tk rsc ok],
        ob.Installs o') → o'.2.2 ∈ sm.drawn := by
      intro o' ho'
      rcases hused o' ho' with hold | ⟨rfl, -⟩
      · exact h.usedDrawn o' hold
      · exact hdrawn
    have htptk' : ∀ o', (∃ ob ∈ sm.log ++ [SuppObs.setPtk sm.ptk.origin sm.ptk.tk rsc ok],
        ob.Installs o') → sm.tptkSet = true → sm.tptk.origin ≠ some o' := by
      intro o' ho'
      rcases hused o' ho' with hold | ⟨rfl, -⟩
      · exact h.usedTptk o' hold
      · exact htptk
    cases ok with
    | false =>
      refine { hreplied with
        usedDrawn := hdrawn'
        usedSnonce := nofun
        usedTptk := htptk'
        usedPtk := ?_
        noReinstall := hlog
        named := hnamed }
      intro o' ho'
      rcases hused o' ho' with hold | ⟨-, hok⟩
      · exact h.usedPtk o' hold
      · cases hok
    | true =>
      exact { hreplied with
        ptkUnset := fun _ => rfl
        usedDrawn := hdrawn'
        usedSnonce := nofun
        usedTptk := htptk'
        usedPtk := fun _ _ _ _ => rfl
        noReinstall := hlog
        named := hnamed }

theorem KeyInv.processed3of4 {env : SuppEnv} {sm sm' : WpaSm} (h : KeyInv sm)
    (hp : Processed3of4 env sm sm')
    (hfils : wpaKeyMgmtFils sm.keyMgmt = true → sm.tptkSet = false)
    (hfresh : ∀ n ∈ sm.drawn, env.randomFt ≠ some n) : KeyInv sm' := by
  rcases hp with hq | ⟨sm₁, sm₂, hq₁, hu, hq₂⟩
  · exact h.quiet hq fun _ _ => hfresh
  · have h₁ : KeyInv sm₁ := h.quiet hq₁ fun _ _ => hfresh
    have h₂ : KeyInv sm₂ := by
      refine h₁.use hu ?_
      rw [hq₁.keyMgmt, hq₁.tptkSet]
      exact hfils
    have hrenew : sm₂.renewSnonce = true := by
      cases hu with
      | replied => rfl
      | passed rsc ok _ _ => cases ok <;> rfl
    refine h₂.quiet hq₂ fun _ hr => ?_
    rw [hrenew] at hr
    cases hr

/-! ## Message 1/4 -/

theorem KeyInv.snonceReady {env : SuppEnv} {sm sm' : WpaSm} (h : KeyInv sm)
    (hs : SnonceReady env sm sm') (hfresh : ∀ n ∈ sm.drawn, env.random ≠ some n) :
    KeyInv sm' ∧ sm'.renewSnonce = false := by
  cases hs with
  | kept hr => exact ⟨h, hr⟩
  | drew nonce hdraw =>
    have hne : ∀ n ∈ sm.drawn, nonce ≠ n := by
      rintro n hn rfl
      exact hfresh _ hn hdraw
    refine ⟨?_, rfl⟩
    exact { h with
      snonce := fun _ => by simp
      ptkOrigin := fun hset => by
        obtain ⟨o, ho, hm⟩ := h.ptkOrigin hset
        exact ⟨o, ho, mem_append_left _ hm⟩
      tptkOrigin := fun hset => by
        obtain ⟨o, ho, hm⟩ := h.tptkOrigin hset
        exact ⟨o, ho, mem_append_left _ hm⟩
      renewed := fun _ hset _ o ho => by
        obtain ⟨o', ho', hm⟩ := h.ptkOrigin hset
        obtain rfl : o' = o := Option.some.inj (ho'.symm.trans ho)
        exact hne _ hm
      usedDrawn := fun o ho => mem_append_left _ (h.usedDrawn o ho)
      usedSnonce := fun o ho _ => hne _ (h.usedDrawn o ho) }

theorem wpaMicLen_eq_zero {akmp : Akm} {pmk : Pmk} (h : wpaMicLen akmp pmk.octets.length = 0) :
    wpaKeyMgmtFils akmp = true ∨ (akmp = .owe ∨ akmp = .dpp) ∧ pmk.octets = [] := by
  have hlen := pmk.length_ok
  cases akmp <;> simp only [wpaMicLen, wpaKeyMgmtFils] at h ⊢ <;>
    first | omega | simp only [true_or] | skip
  all_goals
    refine .inr ⟨by simp, eq_nil_of_length_eq_zero (by omega)⟩

theorem micLen_fils {sm : WpaSm} (h : wpaKeyMgmtFils sm.keyMgmt = true) : sm.micLen = 0 := by
  unfold WpaSm.micLen
  revert h
  cases sm.keyMgmt <;> simp [wpaKeyMgmtFils, wpaMicLen]

theorem KeyInv.pmkChange {sm sm' : WpaSm} (h : KeyInv sm) (hp : PmkChange sm sm') :
    KeyInv sm' := by
  obtain ⟨pmk, xxkey, curPmksa, rfl, hset⟩ := hp
  refine { h with micLen := ?_ }
  intro hs hlen
  rcases wpaMicLen_eq_zero hlen with hf | ⟨_, hnil⟩
  · exact hf
  · rcases hset with rfl | hset
    · exact h.micLen hs hlen
    · exact absurd hnil hset

theorem wpaDerivePtk_kck {lib : RsnLib} {anonce secret : Bytes} {sm : WpaSm} {keys : PtkKeys}
    (h : wpaDerivePtk lib anonce sm = some (keys, secret)) :
    (wpaKeyMgmtFils sm.keyMgmt = true → keys.kck = []) ∧
      (sm.micLen = 0 → wpaKeyMgmtFils sm.keyMgmt = true) := by
  have hkck : ∀ n, wpaKeyMgmtFils sm.keyMgmt = true → wpaKckLen sm.keyMgmt n = 0 := by
    intro n
    cases sm.keyMgmt <;> simp [wpaKeyMgmtFils, wpaKckLen]
  unfold wpaDerivePtk at h
  split at h
  · rename_i hft
    obtain ⟨k, hk, heq⟩ := Option.map_eq_some_iff.1 h
    cases heq
    simp only [wpaDerivePtkFt] at hk
    split at hk
    · cases hk
    · obtain ⟨tmp, -, rfl⟩ := Option.map_eq_some_iff.1 hk
      refine ⟨fun hf => by simp [cutPtk, hkck _ hf], fun hlen => ?_⟩
      rcases wpaMicLen_eq_zero hlen with hf | ⟨hakm, -⟩
      · exact hf
      · rcases hakm with hakm | hakm <;> simp [hakm, wpaKeyMgmtFt] at hft
  · obtain ⟨k, hk, heq⟩ := Option.map_eq_some_iff.1 h
    cases heq
    simp only [wpaPmkToPtk] at hk
    split at hk
    · cases hk
    · rename_i hpmk
      split at hk
      · cases hk
      · obtain ⟨prf, -, rfl⟩ := Option.map_eq_some_iff.1 hk
        refine ⟨fun hf => by simp [cutPtk, hkck _ hf], fun hlen => ?_⟩
        rcases wpaMicLen_eq_zero hlen with hf | ⟨-, hnil⟩
        · exact hf
        · exact absurd (by rw [hnil]; rfl) hpmk

theorem KeyInv.withTptk {lib : RsnLib} {anonce secret : Bytes} {sm : WpaSm} {keys : PtkKeys}
    (h : KeyInv sm) (hrenew : sm.renewSnonce = false)
    (hk : wpaDerivePtk lib anonce sm = some (keys, secret)) :
    KeyInv (sm.withTptk keys secret anonce) := by
  obtain ⟨hkck, hmic⟩ := wpaDerivePtk_kck hk
  exact { h with
    tptkOrigin := fun _ => ⟨_, rfl, h.snonce hrenew⟩
    micLen := fun _ => hmic
    tptkKck := fun hf _ => hkck hf
    apart := fun hf hs _ o o' ho ho' => by
      cases ho'
      exact h.renewed hf hs hrenew o ho
    usedTptk := fun o ho _ heq => by
      cases heq
      exact h.usedSnonce _ ho hrenew rfl }

theorem KeyInv.replied1of4 {lib : RsnLib} {env : SuppEnv} {key : WpaEapolKey} {sm sm' : WpaSm}
    (h : KeyInv sm) (hr : Replied1of4 lib env key sm sm')
    (hfresh : ∀ n ∈ sm.drawn, env.random ≠ some n) : KeyInv sm' := by
  cases hr with
  | refused hq => exact h.quiet hq (by simp)
  | noKeys hready hq => exact (h.snonceReady hready hfresh).1.quiet hq (by simp)
  | derived anonce hready hk hq =>
    obtain ⟨hinv, hrenew⟩ := h.snonceReady hready hfresh
    exact { (hinv.withTptk hrenew hk).quiet hq (by simp) with }

/-! ## Verification -/

theorem not_isSome_wpaEapolKeyMic_nil (lib : RsnLib) (akmp : Akm) (ver : Nat) (buf : Bytes) :
    (wpaEapolKeyMic lib [] akmp ver buf).isSome = false := by
  simp [wpaEapolKeyMic]

theorem KeyInv.not_fils_of_mic {lib : RsnLib} {key : WpaEapolKey} {sm sm' : WpaSm} (h : KeyInv sm)
    (hm : MicStep lib key sm sm') : wpaKeyMgmtFils sm.keyMgmt = false := by
  by_contra hf
  have hf' : wpaKeyMgmtFils sm.keyMgmt = true := by simpa using hf
  cases hm with
  | tptk hset hmic =>
    rw [h.tptkKck hf' hset, not_isSome_wpaEapolKeyMic_nil] at hmic
    cases hmic
  | ptk hset hmic =>
    rw [h.ptkKck hf' hset, not_isSome_wpaEapolKeyMic_nil] at hmic
    cases hmic

theorem KeyInv.promote {sm : WpaSm} (h : KeyInv sm) (hset : sm.tptkSet = true)
    {renew : Bool} (hrenew : renew = true ∨ renew = sm.renewSnonce)
    (hfils : wpaKeyMgmtFils sm.keyMgmt = false → renew = true) :
    KeyInv { sm.promote with renewSnonce := renew } where
  ptkUnset hs := by cases hs
  snonce hr := by
    rcases hrenew with hrenew | hrenew
    · rw [hrenew] at hr
      cases hr
    · exact h.snonce (hrenew ▸ hr)
  ptkOrigin _ := h.tptkOrigin hset
  tptkOrigin hs := by cases hs
  micLen _ := h.micLen (.inr hset)
  ptkKck hf _ := h.tptkKck hf hset
  tptkKck _ hs := by cases hs
  renewed hf _ hr := by
    rw [hfils hf] at hr
    cases hr
  apart _ _ hs := by cases hs
  usedDrawn := h.usedDrawn
  usedSnonce o ho hr := by
    rcases hrenew with hrenew | hrenew
    · rw [hrenew] at hr
      cases hr
    · exact h.usedSnonce o ho (hrenew ▸ hr)
  usedTptk _ _ hs := by cases hs
  usedPtk o ho _ heq := absurd heq (h.usedTptk o ho hset)
  noReinstall := h.noReinstall
  named := h.named

theorem KeyInv.micStep {lib : RsnLib} {key : WpaEapolKey} {sm sm' : WpaSm} (h : KeyInv sm)
    (hm : MicStep lib key sm sm') : KeyInv sm' := by
  have hob : SetsNothing [.micVerified sm.rxCount sm'.ptk.kck key.replayCounter] := by
    simp [SetsNothing, SuppObs.IsSetPtk]
  cases hm with
  | tptk hset _ =>
    have hp : KeyInv { sm.promote with renewSnonce := true } :=
      h.promote hset (.inl rfl) fun _ => rfl
    exact KeyInv.note { hp with } hob
  | ptk _ _ => exact KeyInv.note { h with } hob

theorem KeyInv.sivStep {key : WpaEapolKey} {sm sm' : WpaSm} (h : KeyInv sm)
    (hlen : sm.micLen = 0) (hs : SivStep key sm sm') :
    KeyInv sm' ∧ sm'.tptkSet = false := by
  have hob : SetsNothing [.sivVerified sm.rxCount sm'.ptk.kek key.replayCounter] := by
    simp [SetsNothing, SuppObs.IsSetPtk]
  cases hs with
  | tptk hset =>
    have hfils : wpaKeyMgmtFils sm.keyMgmt = true := h.micLen (.inr hset) hlen
    have hp : KeyInv { sm.promote with renewSnonce := sm.renewSnonce } := by
      refine h.promote hset (.inr rfl) fun hf => ?_
      rw [hfils] at hf
      cases hf
    exact ⟨KeyInv.note { hp with } hob, rfl⟩
  | ptk hnot _ => exact ⟨KeyInv.note { h with } hob, hnot⟩

theorem KeyInv.checked {lib : RsnLib} {key : WpaEapolKey} {sm sm' : WpaSm} (h : KeyInv sm)
    (hc : Checked lib key sm sm') : KeyInv sm' := by
  rcases hc with ⟨-, rfl⟩ | ⟨-, hm⟩
  · exact h
  · exact h.micStep hm

theorem KeyInv.opened {lib : RsnLib} {key : WpaEapolKey} {sm sm₁ sm₂ : WpaSm} (h : KeyInv sm)
    (hc : Checked lib key sm sm₁) (ho : Opened key sm₁ sm₂) :
    KeyInv sm₂ ∧ (Is3of4 key → wpaKeyMgmtFils sm₂.keyMgmt = true → sm₂.tptkSet = false) := by
  have h₁ := h.checked hc
  rcases ho with ⟨_, hlen, hs⟩ | ⟨rfl, hclear⟩
  · obtain ⟨h₂, hset⟩ := h₁.sivStep hlen hs
    exact ⟨h₂, fun _ _ => hset⟩
  · refine ⟨h₁, fun h3of4 hf => ?_⟩
    exfalso
    have hnil : sm₂.micLen = 0 := micLen_fils hf
    rcases h3of4.2.2 with hmic | hencr
    · rcases hc with ⟨hmic', -⟩ | ⟨-, hm⟩
      · rw [hmic] at hmic'
        cases hmic'
      · -- FILS keys have no KCK to verify a MIC with
        have hnot := h.not_fils_of_mic hm
        have hakm : sm₂.keyMgmt = sm.keyMgmt := by cases hm <;> rfl
        rw [← hakm, hf] at hnot
        cases hnot
    · exact (hclear hencr).1 hnil

theorem KeyInv.dispatch {lib : RsnLib} {env : SuppEnv} {key : WpaEapolKey} {keyData : Bytes}
    {sm : WpaSm} (h : KeyInv sm)
    (hfils : Is3of4 key → wpaKeyMgmtFils sm.keyMgmt = true → sm.tptkSet = false)
    (hfresh : ∀ n ∈ sm.drawn, env.random ≠ some n ∧ env.randomFt ≠ some n) :
    KeyInv (rxDispatch lib env key keyData sm).2 := by
  have hft : ∀ n ∈ sm.drawn, env.randomFt ≠ some n := fun n hn => (hfresh n hn).2
  rcases rxDispatch_cases lib env key keyData sm with
    ⟨_, heq⟩ | ⟨h3of4, heq⟩ | ⟨_, heq⟩ | ⟨_, heq⟩
  · rw [heq]
    exact h
  · rw [heq]
    have hnote : KeyInv (sm.note (.process3of4 sm.rxCount)) :=
      h.note (by simp [SetsNothing, SuppObs.IsSetPtk])
    exact hnote.processed3of4 (wpaSupplicantProcess3of4_cases lib env key keyData sm)
      (hfils h3of4) hft
  · rw [heq]
    obtain ⟨sm₁, hpmk, st, hreply⟩ := wpaSupplicantProcess1of4_cases lib env key keyData sm
    have h₁ : KeyInv { sm₁ with state := st } := { h.pmkChange hpmk with }
    refine h₁.replied1of4 hreply ?_
    obtain ⟨_, _, _, rfl, _⟩ := hpmk
    exact fun n hn => (hfresh n hn).1
  · rw [heq]
    have hnote : KeyInv (sm.note (.process1of2 sm.rxCount)) :=
      h.note (by simp [SetsNothing, SuppObs.IsSetPtk])
    exact hnote.quiet (wpaSupplicantProcess1of2_quiet lib env key keyData sm) fun _ _ => hft

theorem drawn_checked_opened {lib : RsnLib} {key : WpaEapolKey} {sm sm₁ sm₂ : WpaSm}
    (hc : Checked lib key sm sm₁) (ho : Opened key sm₁ sm₂) : sm₂.drawn = sm.drawn := by
  have h₁ : sm₁.drawn = sm.drawn := by
    rcases hc with ⟨-, rfl⟩ | ⟨-, hm⟩
    · rfl
    · cases hm <;> rfl
  rcases ho with ⟨-, -, hs⟩ | ⟨rfl, -⟩
  · rw [← h₁]
    cases hs <;> rfl
  · exact h₁

theorem KeyInv.rx {lib : RsnLib} {env : SuppEnv} {buf : Bytes} {sm : WpaSm} (h : KeyInv sm)
    (hfresh : ∀ n ∈ sm.drawn, env.random ≠ some n ∧ env.randomFt ≠ some n) :
    KeyInv (wpaSmRxEapol lib env buf sm).2 := by
  have hrec : KeyInv sm.received := { h with }
  cases hhead : rxHeader sm buf with
  | error ret =>
    rw [wpaSmRxEapol_error lib env hhead]
    exact hrec
  | ok f =>
    rw [wpaSmRxEapol_ok lib env hhead]
    cases hflags : rxFlags sm.received f.key with
    | false =>
      rw [show (rxKey lib env f sm.received).2 = sm.received by simp [rxKey, hflags]]
      exact hrec
    | true =>
      rcases rxKey_cases lib env hflags with hdrop | hdrop | ⟨sm₁, sm₂, keyData, hc, ho, heq⟩
      · rw [hdrop]
        exact hrec
      · exact hrec.micStep hdrop
      · rw [heq]
        obtain ⟨h₂, hfils⟩ := hrec.opened hc ho
        refine h₂.dispatch hfils ?_
        rw [drawn_checked_opened hc ho]
        exact hfresh

/-! ## Replay counters -/

/-- The last counter bounds the earlier ones. -/
structure CounterInv (sm : WpaSm) : Prop where
  increase : CountersIncrease sm.log
  last : ∀ c ∈ verifiedCounters sm.log,
    sm.rxReplayCounterSet = true ∧ beNat c ≤ beNat sm.rxReplayCounter
  length : sm.rxReplayCounterSet = true → sm.rxReplayCounter.length = 8

/-- No frame is verified in between. -/
structure SameCounters (sm sm' : WpaSm) : Prop where
  counters : verifiedCounters sm'.log = verifiedCounters sm.log
  counter : sm'.rxReplayCounter = sm.rxReplayCounter
  counterSet : sm'.rxReplayCounterSet = sm.rxReplayCounterSet

theorem SameCounters.trans {sm sm' sm'' : WpaSm} (h : SameCounters sm sm')
    (h' : SameCounters sm' sm'') : SameCounters sm sm'' :=
  ⟨h'.counters.trans h.counters, h'.counter.trans h.counter, h'.counterSet.trans h.counterSet⟩

theorem CounterInv.same {sm sm' : WpaSm} (h : CounterInv sm) (hs : SameCounters sm sm') :
    CounterInv sm' where
  increase := by
    rw [CountersIncrease, hs.counters]
    exact h.increase
  last := by
    rw [hs.counters, hs.counter, hs.counterSet]
    exact h.last
  length := by
    rw [hs.counter, hs.counterSet]
    exact h.length

theorem Quiet.sameCounters {env : SuppEnv} {group : Bool} {sm sm' : WpaSm}
    (h : Quiet env group sm sm') : SameCounters sm sm' := by
  refine ⟨?_, h.counter, h.counterSet⟩
  obtain ⟨l, hl, hq⟩ := h.log
  have hnil : verifiedCounters l = [] := by
    refine filterMap_eq_nil_iff.2 ?_
    intro ob hob
    have hquiet := hq ob hob
    cases ob <;> first | rfl | exact absurd hquiet id
  rw [hl, verifiedCounters, filterMap_append, ← verifiedCounters, ← verifiedCounters, hnil,
    append_nil]

theorem KeyUse.sameCounters {sm sm' : WpaSm} (h : KeyUse sm sm') : SameCounters sm sm' := by
  have hsnoc : ∀ ob : SuppObs, ob.counter = none →
      verifiedCounters (sm.log ++ [ob]) = verifiedCounters sm.log := by
    intro ob hob
    simp [verifiedCounters, filterMap_append, hob]
  cases h with
  | replied => exact ⟨rfl, rfl, rfl⟩
  | passed rsc ok _ _ => cases ok <;> exact ⟨hsnoc _ rfl, rfl, rfl⟩

theorem Processed3of4.sameCounters {env : SuppEnv} {sm sm' : WpaSm}
    (h : Processed3of4 env sm sm') : SameCounters sm sm' := by
  rcases h with h | ⟨sm₁, sm₂, h₁, hu, h₂⟩
  · exact h.sameCounters
  · exact (h₁.sameCounters.trans hu.sameCounters).trans h₂.sameCounters

theorem SnonceReady.sameCounters {env : SuppEnv} {sm sm' : WpaSm} (h : SnonceReady env sm sm') :
    SameCounters sm sm' := by
  cases h <;> exact ⟨rfl, rfl, rfl⟩

theorem Replied1of4.sameCounters {lib : RsnLib} {env : SuppEnv} {key : WpaEapolKey}
    {sm sm' : WpaSm} (h : Replied1of4 lib env key sm sm') : SameCounters sm sm' := by
  cases h with
  | refused hq => exact hq.sameCounters
  | noKeys hready hq => exact hready.sameCounters.trans hq.sameCounters
  | derived anonce hready _ hq =>
    have hsame := hq.sameCounters
    exact hready.sameCounters.trans ⟨hsame.counters, hsame.counter, hsame.counterSet⟩

theorem rxDispatch_sameCounters (lib : RsnLib) (env : SuppEnv) (key : WpaEapolKey)
    (keyData : Bytes) (sm : WpaSm) : SameCounters sm (rxDispatch lib env key keyData sm).2 := by
  rcases rxDispatch_cases lib env key keyData sm with ⟨_, heq⟩ | ⟨_, heq⟩ | ⟨_, heq⟩ | ⟨_, heq⟩
  · rw [heq]
    exact ⟨rfl, rfl, rfl⟩
  · rw [heq]
    have hnote : SameCounters sm (sm.note (.process3of4 sm.rxCount)) :=
      ⟨by simp [verifiedCounters, WpaSm.note, SuppObs.counter], rfl, rfl⟩
    exact hnote.trans (wpaSupplicantProcess3of4_cases lib env key keyData sm).sameCounters
  · rw [heq]
    obtain ⟨sm₁, ⟨_, _, _, rfl, _⟩, st, hreply⟩ :=
      wpaSupplicantProcess1of4_cases lib env key keyData sm
    have hsame := hreply.sameCounters
    exact ⟨hsame.counters, hsame.counter, hsame.counterSet⟩
  · rw [heq]
    have hnote : SameCounters sm (sm.note (.process1of2 sm.rxCount)) :=
      ⟨by simp [verifiedCounters, WpaSm.note, SuppObs.counter], rfl, rfl⟩
    exact hnote.trans (wpaSupplicantProcess1of2_quiet lib env key keyData sm).sameCounters

theorem CounterInv.verified {sm sm' : WpaSm} {counter : Bytes} (h : CounterInv sm)
    (hnew : sm.rxReplayCounterSet = true → memcmp counter sm.rxReplayCounter = .gt)
    (hlen : counter.length = 8) (hlog : verifiedCounters sm'.log = verifiedCounters sm.log ++ [counter])
    (hc : sm'.rxReplayCounter = counter) (hs : sm'.rxReplayCounterSet = true) : CounterInv sm' := by
  have hlt : ∀ c ∈ verifiedCounters sm.log, beNat c < beNat counter := by
    intro c hmem
    obtain ⟨hset, hle⟩ := h.last c hmem
    have hswap : memcmp sm.rxReplayCounter counter = .lt := by
      rw [memcmp_swap, hnew hset]
      rfl
    have hlt := beNat_lt_of_memcmp ((h.length hset).trans hlen.symm) hswap
    omega
  refine ⟨?_, ?_, fun _ => by rw [hc, hlen]⟩
  · rw [CountersIncrease, hlog]
    refine pairwise_append.2 ⟨h.increase, pairwise_singleton _ _, ?_⟩
    intro a ha b hb
    rw [mem_singleton.1 hb]
    exact hlt a ha
  · rw [hlog, hc]
    intro c hmem
    refine ⟨hs, ?_⟩
    rcases mem_append.1 hmem with hmem | hmem
    · exact (hlt c hmem).le
    · rw [mem_singleton.1 hmem]

theorem rxHeader_counter {sm : WpaSm} {buf : Bytes} {f : RxFrame} (h : rxHeader sm buf = .ok f) :
    f.key.replayCounter.length = 8 := by
  simp only [rxHeader] at h
  split_ifs at h with h₁ h₂ h₃ h₄ h₅
  cases h
  have hlen : 81 ≤ (buf.take (getBe16 (buf.drop 2) + hdrLen)).length := by
    simp only [hdrLen, eapolKeyLen, length_take] at h₁ h₃ ⊢
    omega
  exact slice_length (by omega)

theorem rxFlags_counter {sm : WpaSm} {key : WpaEapolKey} (h : rxFlags sm key = true) :
    sm.rxReplayCounterSet = true → memcmp key.replayCounter sm.rxReplayCounter = .gt := by
  intro hset
  simp only [rxFlags, hset, Bool.true_and, Bool.and_eq_true] at h
  simpa using h.1.1.1.2

theorem CounterInv.micStep {lib : RsnLib} {key : WpaEapolKey} {sm sm' : WpaSm} (h : CounterInv sm)
    (hflags : rxFlags sm key = true) (hlen : key.replayCounter.length = 8)
    (hm : MicStep lib key sm sm') : CounterInv sm' := by
  cases hm with
  | tptk _ _ =>
    exact h.verified (rxFlags_counter hflags) hlen (by simp [verifiedCounters, WpaSm.micTptk,
      WpaSm.note, WpaSm.acceptCounter, WpaSm.promote, SuppObs.counter]) rfl rfl
  | ptk _ _ =>
    exact h.verified (rxFlags_counter hflags) hlen (by simp [verifiedCounters, WpaSm.micPtk,
      WpaSm.note, WpaSm.acceptCounter, SuppObs.counter]) rfl rfl

theorem CounterInv.sivStep {key : WpaEapolKey} {sm sm' : WpaSm} (h : CounterInv sm)
    (hflags : rxFlags sm key = true) (hlen : key.replayCounter.length = 8)
    (hs : SivStep key sm sm') : CounterInv sm' := by
  cases hs with
  | tptk _ =>
    exact h.verified (rxFlags_counter hflags) hlen (by simp [verifiedCounters, WpaSm.sivTptk,
      WpaSm.note, WpaSm.acceptCounter, WpaSm.promote, SuppObs.counter]) rfl rfl
  | ptk _ _ =>
    exact h.verified (rxFlags_counter hflags) hlen (by simp [verifiedCounters, WpaSm.sivPtk,
      WpaSm.note, WpaSm.acceptCounter, SuppObs.counter]) rfl rfl

theorem CounterInv.opened {lib : RsnLib} {key : WpaEapolKey} {sm sm₁ sm₂ : WpaSm}
    (h : CounterInv sm) (hkeys : KeyInv sm) (hflags : rxFlags sm key = true)
    (hlen : key.replayCounter.length = 8) (hc : Checked lib key sm sm₁) (ho : Opened key sm₁ sm₂) :
    CounterInv sm₂ := by
  rcases hc with ⟨-, rfl⟩ | ⟨-, hm⟩
  · rcases ho with ⟨-, -, hs⟩ | ⟨rfl, -⟩
    · exact h.sivStep hflags hlen hs
    · exact h
  · rcases ho with ⟨-, hnil, hs⟩ | ⟨rfl, -⟩
    · exfalso
      have hnot := hkeys.not_fils_of_mic hm
      have hakm : sm₁.keyMgmt = sm.keyMgmt := by cases hm <;> rfl
      have hset : sm₁.ptkSet = true ∨ sm₁.tptkSet = true := by
        cases hs with
        | tptk hset => exact .inr hset
        | ptk _ hset => exact .inl hset
      have hfils := (hkeys.micStep hm).micLen hset hnil
      rw [hakm, hnot] at hfils
      cases hfils
    · exact h.micStep hflags hlen hm

theorem CounterInv.rx {lib : RsnLib} {env : SuppEnv} {buf : Bytes} {sm : WpaSm}
    (h : CounterInv sm) (hkeys : KeyInv sm) : CounterInv (wpaSmRxEapol lib env buf sm).2 := by
  have hrec : CounterInv sm.received := { h with }
  cases hhead : rxHeader sm buf with
  | error ret =>
    rw [wpaSmRxEapol_error lib env hhead]
    exact hrec
  | ok f =>
    rw [wpaSmRxEapol_ok lib env hhead]
    have hlen := rxHeader_counter hhead
    cases hflags : rxFlags sm.received f.key with
    | false =>
      rw [show (rxKey lib env f sm.received).2 = sm.received by simp [rxKey, hflags]]
      exact hrec
    | true =>
      rcases rxKey_cases lib env hflags with hdrop | hdrop | ⟨sm₁, sm₂, keyData, hc, ho, heq⟩
      · rw [hdrop]
        exact hrec
      · exact hrec.micStep hflags hlen hdrop
      · rw [heq]
        have hkeys' : KeyInv sm.received := { hkeys with }
        exact (hrec.opened hkeys' hflags hlen hc ho).same
          (rxDispatch_sameCounters lib env f.key keyData sm₂)

/-! ## Runs -/

/-- In every run of a supplicant from association on, with SNonces that do not repeat, each pairwise
key that is passed to the driver was derived from a PMK and two nonces, none is passed again once
the driver has taken it, and the frames that are verified have increasing replay counters. -/
theorem supp_no_reinstall (lib : RsnLib) {sm₀ sm : WpaSm} {evs : List (Bytes × SuppEnv)}
    (h₀ : Associated sm₀) (h : Run.Reach (suppStep lib) FreshDraws sm₀ evs sm) :
    (∀ ob ∈ sm.log, ob.IsSetPtk → ∃ o, ob.Sets o) ∧ NoReinstall sm.log ∧
      CountersIncrease sm.log := by
  have hinv : KeyInv sm ∧ CounterInv sm := by
    refine Run.Reach.invariant (I := fun s => KeyInv s ∧ CounterInv s) ?_ ?_ h
    · refine ⟨h₀.keyInv, ?_, ?_, ?_⟩
      · rw [CountersIncrease, h₀.log]
        exact .nil
      · simp [h₀.log, verifiedCounters]
      · intro hs
        rw [h₀.counterSet] at hs
        cases hs
    · rintro s ⟨buf, env⟩ s' ⟨hk, hc⟩ hfresh hstep
      cases hstep
      exact ⟨hk.rx hfresh, hc.rx hk⟩
  exact ⟨hinv.1.named, hinv.1.noReinstall, hinv.2.increase⟩

/-! ## A handshake with a driver that refuses a key -/

def smallSupp : WpaSm where
  pmk := smallPmk
  proto := .rsn
  pairwiseCipher := .ccmp
  groupCipher := .ccmp
  keyMgmt := .psk
  ownAddr := [2, 0, 0, 0, 0, 1]
  bssid := [2, 0, 0, 0, 0, 0]
  assocWpaIe := some [48, 0]

def smallAnonce : Bytes := List.replicate 32 3

def smallSnonce : Bytes := List.replicate 32 4

def smallMsg1 : Bytes :=
  eapolKeyFrame 2
    { type := 2
      keyInfo := keyInfoOf verHmacSha1Aes 0 [kiKeyType, kiAck]
      keyLength := 16
      replayCounter := zeros 7 ++ [1]
      keyNonce := smallAnonce }
    16 []

def smallMsg3 (counter : UInt8) : Option Bytes :=
  (wpaPmkToPtk smallRsnLib smallPmk.octets [2, 0, 0, 0, 0, 1] [2, 0, 0, 0, 0, 0] smallSnonce
    smallAnonce .psk .ccmp).bind fun keys =>
      protectEapolKey smallRsnLib .psk 16 { kck := keys.kck } verHmacSha1Aes
        (eapolKeyFrame 2
          { type := 2
            keyInfo := keyInfoOf verHmacSha1Aes 0 [kiKeyType, kiInstall, kiAck, kiMic, kiSecure]
            keyLength := 16
            replayCounter := zeros 7 ++ [counter]
            keyNonce := smallAnonce }
          16 [])

def smallHandshake (takes : Bool) : List (Bytes × SuppEnv) :=
  [(smallMsg1, { random := some smallSnonce }),
    ((smallMsg3 2).getD [], { setKeyPtk := takes }),
    ((smallMsg3 3).getD [], {})]

def smallHandshakeEnd (takes : Bool) : WpaSm :=
  (smallHandshake takes).foldl (fun sm ev => (wpaSmRxEapol smallRsnLib ev.2 ev.1 sm).2) smallSupp

theorem smallHandshake_reach (takes : Bool) :
    Run.Reach (suppStep smallRsnLib) FreshDraws smallSupp (smallHandshake takes)
      (smallHandshakeEnd takes) := by
  have hnone : ∀ (sm : WpaSm) (buf : Bytes) (t : Bool), FreshDraws sm (buf, { setKeyPtk := t }) :=
    fun sm buf t n _ => ⟨by simp, by simp⟩
  have hfirst : FreshDraws smallSupp (smallMsg1, { random := some smallSnonce }) := by
    intro n hn
    cases hn
  exact .next (.next (.next .start hfirst rfl) (hnone _ _ _) rfl) (hnone _ _ _) rfl

theorem supp_no_reinstall_small :
    NoReinstall (smallHandshakeEnd true).log ∧
      (smallHandshakeEnd true).ptk.installed = true :=
  ⟨(supp_no_reinstall smallRsnLib ⟨rfl, rfl, rfl, rfl, rfl, rfl, rfl⟩
    (smallHandshake_reach true)).2.1, by decide +kernel⟩

/-- The same temporal key is passed to the driver twice when it refuses it the first time. -/
theorem refused_key_set_again :
    Associated smallSupp ∧
      Run.Reach (suppStep smallRsnLib) FreshDraws smallSupp (smallHandshake false)
        (smallHandshakeEnd false) ∧
      ¬ (smallHandshakeEnd false).log.Pairwise fun a b => ∀ o, a.Sets o → ¬ b.Sets o := by
  refine ⟨⟨rfl, rfl, rfl, rfl, rfl, rfl, rfl⟩, smallHandshake_reach false, ?_⟩
  intro honce
  let o : KeyOrigin := (smallPmk.octets, smallAnonce, smallSnonce)
  let tk : Bytes := (List.range 16).map fun i => UInt8.ofNat (229 + i)
  have htwice : List.Sublist
      [SuppObs.setPtk (some o) tk nullRsc false, .setPtk (some o) tk nullRsc true]
      (smallHandshakeEnd false).log := by
    decide +kernel
  exact pairwise_iff_forall_sublist.1 honce htwice o rfl rfl

end Hostap
