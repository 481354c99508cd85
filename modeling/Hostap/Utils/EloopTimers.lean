import Hostap.Lib.Run
import Hostap.Lib.SortedList
import Mathlib.Algebra.Ring.Int.Defs
import Mathlib.Algebra.Ring.Nat
import Mathlib.Order.Bounds.Basic
import Mathlib.Tactic.SplitIfs

/-!
# The timers of the event loop

The timers of `utils/eloop.c` are kept in a list, the next one to expire first. Every call reads the clock
once, and a handler that is called may make further calls, after its timer was taken out of the list.

A timer carries the number of its registration, which is not in the source: it says in what order those that
expire at the same time were registered.

`eloop_deplete_timeout()` and `eloop_replenish_timeout()` compare the time that is left, whose microseconds are
less than a second, with a request that is taken as it is given, and then cancel and register anew.
`Misjudged` is the case in which that goes wrong.
-/

namespace Hostap

open List

namespace EloopTimeout

/-- `struct os_reltime` -/
structure OsReltime where
  sec : Int
  usec : Int
  deriving DecidableEq, Repr

/-- `os_reltime_before()` -/
def osReltimeBefore (a b : OsReltime) : Bool := a.sec < b.sec || (a.sec == b.sec && a.usec < b.usec)

/-- `os_reltime_sub()` -/
def osReltimeSub (a b : OsReltime) : OsReltime :=
  let sec := a.sec - b.sec
  let usec := a.usec - b.usec
  if usec < 0 then ⟨sec - 1, usec + 1000000⟩ else ⟨sec, usec⟩

/-- What `os_get_reltime()` reads. The clock starts with the system. -/
structure Clock where
  time : OsReltime
  sec : 0 ≤ time.sec ∧ time.sec < 2 ^ 62
  usec : 0 ≤ time.usec ∧ time.usec < 1000000

/-- A handler and what it is called with. -/
structure Callback where
  handler : Nat
  eloopData : Nat
  userData : Nat
  deriving DecidableEq, Repr

/-- `struct eloop_timeout`, and the number of its registration. -/
structure Timeout where
  time : OsReltime
  callback : Callback
  number : Nat
  deriving DecidableEq, Repr

/-- The list of timers, and how many were registered. -/
structure Timeouts where
  timeout : List Timeout := []
  registered : Nat := 0
  deriving DecidableEq, Repr

/-- `ELOOP_ALL_CTX` -/
abbrev eloopAllCtx : Nat := 2 ^ 64 - 1

def carry (t : OsReltime) : OsReltime :=
  if t.usec ≥ 1000000 then carry ⟨t.sec + 1, t.usec - 1000000⟩ else t
termination_by t.usec.toNat

/-- The new timer stands in front of the first that expires later. -/
def addTimeout (timeout : Timeout) : List Timeout → List Timeout
  | [] => [timeout]
  | tmp :: l =>
    if osReltimeBefore timeout.time tmp.time then timeout :: tmp :: l else tmp :: addTimeout timeout l

/-- `eloop_register_timeout()`. `ok` says whether there is memory and a clock to read. -/
def eloopRegisterTimeout (ok : Bool) (now : Clock) (secs usecs : UInt32) (cb : Callback) (s : Timeouts) :
    Int × Timeouts :=
  if !ok then (-1, s)
  -- the sum of the seconds does not fit, and would be less than `now_sec`
  else if now.time.sec + secs.toNat ≥ 2 ^ 63 then (0, s)
  else
    let time := carry ⟨now.time.sec + secs.toNat, now.time.usec + usecs.toNat⟩
    (0, { timeout := addTimeout ⟨time, cb, s.registered⟩ s.timeout, registered := s.registered + 1 })

/-- The timers that `eloop_cancel_timeout()` takes out. -/
def isCancelled (cb : Callback) (t : Timeout) : Bool :=
  t.callback.handler == cb.handler &&
    (t.callback.eloopData == cb.eloopData || cb.eloopData == eloopAllCtx) &&
      (t.callback.userData == cb.userData || cb.userData == eloopAllCtx)

/-- `eloop_cancel_timeout()` -/
def eloopCancelTimeout (cb : Callback) (s : Timeouts) : Int × Timeouts :=
  ((s.timeout.countP (isCancelled cb) : Int), { s with timeout := s.timeout.filter fun t => !isCancelled cb t })

def isOf (cb : Callback) (t : Timeout) : Bool := t.callback == cb

/-- `eloop_cancel_timeout_one()`, with the time that remained. -/
def eloopCancelTimeoutOne (now : Clock) (cb : Callback) (s : Timeouts) : Int × OsReltime × Timeouts :=
  match s.timeout.find? (isOf cb) with
  | none => (0, ⟨0, 0⟩, s)
  | some t =>
    let remaining := if osReltimeBefore now.time t.time then osReltimeSub t.time now.time else ⟨0, 0⟩
    (1, remaining, { s with timeout := s.timeout.eraseP (isOf cb) })

/-- What the next two functions share: the first timer is registered anew where the request and the time that
remains are so. -/
def adjustTimeout (again : OsReltime → OsReltime → Bool) (ok : Bool) (now : Clock) (secs usecs : UInt32)
    (cb : Callback) (s : Timeouts) : Int × Timeouts :=
  match s.timeout.find? (isOf cb) with
  | none => (-1, s)
  | some tmp =>
    let requested : OsReltime := ⟨secs.toNat, usecs.toNat⟩
    let remaining := osReltimeSub tmp.time now.time
    if again requested remaining then
      (1, (eloopRegisterTimeout ok now secs usecs cb (eloopCancelTimeout cb s).2).2)
    else (0, s)

def depleteAgain (requested remaining : OsReltime) : Bool := osReltimeBefore requested remaining

def replenishAgain (requested remaining : OsReltime) : Bool := osReltimeBefore remaining requested

/-- `eloop_deplete_timeout()` -/
def eloopDepleteTimeout (ok : Bool) (now : Clock) (secs usecs : UInt32) (cb : Callback) (s : Timeouts) :
    Int × Timeouts :=
  adjustTimeout depleteAgain ok now secs usecs cb s

/-- `eloop_replenish_timeout()` -/
def eloopReplenishTimeout (ok : Bool) (now : Clock) (secs usecs : UInt32) (cb : Callback) (s : Timeouts) :
    Int × Timeouts :=
  adjustTimeout replenishAgain ok now secs usecs cb s

/-- `eloop_run()` takes out the first timer when it has expired, and calls its handler. -/
def fire (now : Clock) (s : Timeouts) : Timeouts :=
  match s.timeout with
  | [] => s
  | t :: l => if osReltimeBefore now.time t.time then s else { s with timeout := l }

/-- The calls, from the main program or from a handler, and the loop's own. -/
inductive Event where
  | register (ok : Bool) (secs usecs : UInt32) (cb : Callback)
  | cancel (cb : Callback)
  | cancelOne (cb : Callback)
  | deplete (ok : Bool) (secs usecs : UInt32) (cb : Callback)
  | replenish (ok : Bool) (secs usecs : UInt32) (cb : Callback)
  | fire
  deriving DecidableEq, Repr

def after (s : Timeouts) (now : Clock) : Event → Timeouts
  | .register ok secs usecs cb => (eloopRegisterTimeout ok now secs usecs cb s).2
  | .cancel cb => (eloopCancelTimeout cb s).2
  | .cancelOne cb => (eloopCancelTimeoutOne now cb s).2.2
  | .deplete ok secs usecs cb => (eloopDepleteTimeout ok now secs usecs cb s).2
  | .replenish ok secs usecs cb => (eloopReplenishTimeout ok now secs usecs cb s).2
  | .fire => EloopTimeout.fire now s

def step (s : Timeouts) (e : Clock × Event) : Except Empty Timeouts := .ok (after s e.1 e.2)

/-! ## What is wanted -/

def us (t : OsReltime) : Int := t.sec * 1000000 + t.usec

/-- The timers stand in the order in which they expire, and those that expire together in the order in which
they were registered. -/
def Ordered (l : List Timeout) : Prop :=
  l.Pairwise fun a b => us a.time < us b.time ∨ (us a.time = us b.time ∧ a.number < b.number)

def expiries (cb : Callback) (l : List Timeout) : Set Int := { x | ∃ t ∈ l, isOf cb t = true ∧ us t.time = x }

/-- Where such a timer exists, the earliest expires at the time that is picked from its own and the one that is
requested, and the other timers are untouched. -/
def Adjusted (pick : Int → Int → Int) (now : Clock) (secs usecs : UInt32) (cb : Callback)
    (l l' : List Timeout) : Prop :=
  ∀ old, IsLeast (expiries cb l) old →
    IsLeast (expiries cb l') (pick old (us now.time + us ⟨secs.toNat, usecs.toNat⟩)) ∧
      l'.filter (fun t => !isOf cb t) = l.filter fun t => !isOf cb t

/-- The list is in order afterwards, and a timer that is adjusted expires when it should. -/
def Behaves (s : Timeouts) (e : Clock × Event) : Prop :=
  Ordered (after s e.1 e.2).timeout ∧
    match e.2 with
    | .deplete _ secs usecs cb => Adjusted min e.1 secs usecs cb s.timeout (after s e.1 e.2).timeout
    | .replenish _ secs usecs cb => Adjusted max e.1 secs usecs cb s.timeout (after s e.1 e.2).timeout
    | _ => True

/-- The seconds of the request are less than those that remain, and the request is longer all the same. -/
def Misjudged (requested remaining : OsReltime) : Prop :=
  requested.sec < remaining.sec ∧ us remaining < us requested

/-- The first timer is not misjudged, and where it is registered anew that succeeds, and no other timer is
cancelled with it. -/
def Judged (again : OsReltime → OsReltime → Bool) (ok : Bool) (now : Clock) (secs usecs : UInt32)
    (cb : Callback) (s : Timeouts) : Prop :=
  ∀ t, s.timeout.find? (isOf cb) = some t →
    ¬ Misjudged ⟨secs.toNat, usecs.toNat⟩ (osReltimeSub t.time now.time) ∧
      (again ⟨secs.toNat, usecs.toNat⟩ (osReltimeSub t.time now.time) = true →
        ok = true ∧ ∀ t ∈ s.timeout, isCancelled cb t = true → isOf cb t = true)

def Met (s : Timeouts) (e : Clock × Event) : Prop :=
  match e.2 with
  | .deplete ok secs usecs cb => Judged depleteAgain ok e.1 secs usecs cb s
  | .replenish ok secs usecs cb => Judged replenishAgain ok e.1 secs usecs cb s
  | _ => True

/-! ## Times -/

variable {s : Timeouts} {a b t : OsReltime} {now : Clock} {cb : Callback} {l l' : List Timeout}

def Normal (t : OsReltime) : Prop := 0 ≤ t.usec ∧ t.usec < 1000000

theorem us_carry (t : OsReltime) : us (carry t) = us t := by
  induction t using carry.induct with
  | case1 t hge ih =>
    rw [carry, if_pos hge, ih]
    simp only [us]
    omega
  | case2 t hlt => rw [carry, if_neg hlt]

theorem normal_carry (h : 0 ≤ t.usec) : Normal (carry t) := by
  induction t using carry.induct with
  | case1 t hge ih =>
    rw [carry, if_pos hge]
    exact ih (show 0 ≤ t.usec - 1000000 by omega)
  | case2 t hlt =>
    rw [carry, if_neg hlt]
    exact ⟨h, not_le.1 hlt⟩

theorem osReltimeBefore_iff (ha : Normal a) (hb : Normal b) : osReltimeBefore a b = true ↔ us a < us b := by
  obtain ⟨ha₀, ha₁⟩ := ha
  obtain ⟨hb₀, hb₁⟩ := hb
  simp only [osReltimeBefore, us, Bool.or_eq_true, Bool.and_eq_true, decide_eq_true_eq, beq_iff_eq]
  omega

theorem us_osReltimeSub (a b : OsReltime) : us (osReltimeSub a b) = us a - us b := by
  simp only [osReltimeSub]
  split_ifs
  · simp only [us]
    omega
  · simp only [us]
    omega

theorem normal_osReltimeSub (ha : Normal a) (hb : Normal b) : Normal (osReltimeSub a b) := by
  obtain ⟨ha₀, ha₁⟩ := ha
  obtain ⟨hb₀, hb₁⟩ := hb
  simp only [osReltimeSub]
  split_ifs with hneg
  · exact ⟨show 0 ≤ a.usec - b.usec + 1000000 by omega, show a.usec - b.usec + 1000000 < 1000000 by omega⟩
  · exact ⟨show 0 ≤ a.usec - b.usec by omega, show a.usec - b.usec < 1000000 by omega⟩

theorem min_eq_iff (ha : 0 ≤ a.usec) (hb : Normal b) :
    min (us b) (us a) = (if depleteAgain a b then us a else us b) ↔ ¬ Misjudged a b := by
  obtain ⟨hb₀, hb₁⟩ := hb
  unfold Misjudged depleteAgain
  by_cases h : osReltimeBefore a b = true
  · rw [if_pos h]
    simp only [osReltimeBefore, us, Bool.or_eq_true, Bool.and_eq_true, decide_eq_true_eq, beq_iff_eq] at h ⊢
    omega
  · rw [if_neg h]
    simp only [osReltimeBefore, us, Bool.or_eq_true, Bool.and_eq_true, decide_eq_true_eq, beq_iff_eq] at h ⊢
    omega

theorem max_eq_iff (ha : 0 ≤ a.usec) (hb : Normal b) :
    max (us b) (us a) = (if replenishAgain a b then us a else us b) ↔ ¬ Misjudged a b := by
  obtain ⟨hb₀, hb₁⟩ := hb
  unfold Misjudged replenishAgain
  by_cases h : osReltimeBefore b a = true
  · rw [if_pos h]
    simp only [osReltimeBefore, us, Bool.or_eq_true, Bool.and_eq_true, decide_eq_true_eq, beq_iff_eq] at h ⊢
    omega
  · rw [if_neg h]
    simp only [osReltimeBefore, us, Bool.or_eq_true, Bool.and_eq_true, decide_eq_true_eq, beq_iff_eq] at h ⊢
    omega

/-! ## The list -/

structure Inv (s : Timeouts) : Prop where
  ordered : Ordered s.timeout
  normal : ∀ t ∈ s.timeout, Normal t.time
  numbers : ∀ t ∈ s.timeout, t.number < s.registered

theorem inv_start : Inv {} := by
  refine ⟨.nil, ?_, ?_⟩
  · intro t ht
    cases ht
  · intro t ht
    cases ht

theorem Inv.sublist (h : Inv s) (hl : List.Sublist l s.timeout) : Inv { s with timeout := l } :=
  ⟨h.ordered.sublist hl, fun t ht => h.normal t (hl.subset ht), fun t ht => h.numbers t (hl.subset ht)⟩

theorem Ordered.sorted (h : Ordered l) : SortedList.Sorted (fun t : Timeout => us t.time) l := by
  apply h.imp
  intro a b hab
  show us a.time ≤ us b.time
  omega

theorem addTimeout_eq (timeout : Timeout) (htime : Normal timeout.time) (hl : ∀ t ∈ l, Normal t.time) :
    addTimeout timeout l = SortedList.insert (fun t => us t.time) timeout l := by
  induction l with
  | nil => rfl
  | cons tmp l ih =>
    have hbefore := osReltimeBefore_iff htime (hl tmp (mem_cons_self ..))
    rw [addTimeout, SortedList.insert, ih fun t ht => hl t (mem_cons_of_mem _ ht)]
    simp only [hbefore]

theorem Inv.add (h : Inv s) (cb : Callback) (htime : Normal t) :
    Inv { timeout := addTimeout ⟨t, cb, s.registered⟩ s.timeout, registered := s.registered + 1 } := by
  have heq := addTimeout_eq ⟨t, cb, s.registered⟩ htime h.normal
  have hmem : ∀ x, x ∈ addTimeout ⟨t, cb, s.registered⟩ s.timeout ↔
      x = ⟨t, cb, s.registered⟩ ∨ x ∈ s.timeout := fun x => by rw [heq, SortedList.mem_insert]
  refine ⟨?_, ?_, ?_⟩
  · show Ordered (addTimeout _ _)
    obtain ⟨l₁, l₂, h₁, h₂, hbefore, hbehind⟩ :=
      SortedList.insert_split (a := ⟨t, cb, s.registered⟩) h.ordered.sorted
    have hord := h.ordered
    have hnum := h.numbers
    rw [h₂] at hord hnum
    obtain ⟨hord₁, hord₂, hord₁₂⟩ := pairwise_append.1 hord
    rw [heq, h₁]
    refine pairwise_append.2 ⟨hord₁, pairwise_cons.2 ⟨fun x hx => .inl (hbehind x hx), hord₂⟩, ?_⟩
    intro x hx y hy
    rcases mem_cons.1 hy with rfl | hy
    · have hle := hbefore x hx
      have hlt := hnum x (mem_append_left _ hx)
      rcases lt_or_eq_of_le hle with hlt' | heq'
      · exact .inl hlt'
      · exact .inr ⟨heq', hlt⟩
    · exact hord₁₂ x hx y hy
  · intro x hx
    rcases (hmem x).1 hx with rfl | hx
    · exact htime
    · exact h.normal x hx
  · intro x hx
    show x.number < s.registered + 1
    rcases (hmem x).1 hx with rfl | hx
    · exact Nat.lt_succ_self _
    · exact Nat.lt_succ_of_lt (h.numbers x hx)

theorem eloopRegisterTimeout_ok (now : Clock) (secs usecs : UInt32) (cb : Callback) (s : Timeouts) :
    ∃ t, Normal t ∧ us t = us now.time + us ⟨secs.toNat, usecs.toNat⟩ ∧
      (eloopRegisterTimeout true now secs usecs cb s).2 =
        { timeout := addTimeout ⟨t, cb, s.registered⟩ s.timeout, registered := s.registered + 1 } := by
  have hsecs := secs.toNat_lt
  have hsec := now.sec.2
  have hfits : ¬ now.time.sec + secs.toNat ≥ 2 ^ 63 := by omega
  refine ⟨carry ⟨now.time.sec + secs.toNat, now.time.usec + usecs.toNat⟩, normal_carry ?_, ?_, ?_⟩
  · show 0 ≤ now.time.usec + usecs.toNat
    have := now.usec.1
    omega
  · rw [us_carry]
    simp only [us]
    omega
  · unfold eloopRegisterTimeout
    rw [if_neg (show ¬ (!true) = true by decide), if_neg hfits]

theorem Inv.register (h : Inv s) (ok : Bool) (now : Clock) (secs usecs : UInt32) (cb : Callback) :
    Inv (eloopRegisterTimeout ok now secs usecs cb s).2 := by
  cases ok with
  | false => exact h
  | true =>
    obtain ⟨t, htime, -, heq⟩ := eloopRegisterTimeout_ok now secs usecs cb s
    rw [heq]
    exact h.add cb htime

theorem Inv.cancel (h : Inv s) (cb : Callback) : Inv (eloopCancelTimeout cb s).2 :=
  h.sublist filter_sublist

theorem Inv.adjust (h : Inv s) (again : OsReltime → OsReltime → Bool) (ok : Bool) (now : Clock)
    (secs usecs : UInt32) (cb : Callback) : Inv (adjustTimeout again ok now secs usecs cb s).2 := by
  unfold adjustTimeout
  cases s.timeout.find? (isOf cb) with
  | none => exact h
  | some tmp =>
    dsimp only
    split_ifs
    · exact (h.cancel cb).register ok now secs usecs cb
    · exact h

theorem Inv.after (h : Inv s) (now : Clock) (e : Event) : Inv (after s now e) := by
  cases e with
  | register ok secs usecs cb => exact h.register ok now secs usecs cb
  | cancel cb => exact h.cancel cb
  | cancelOne cb =>
    show Inv (eloopCancelTimeoutOne now cb s).2.2
    unfold eloopCancelTimeoutOne
    cases s.timeout.find? (isOf cb) with
    | none => exact h
    | some t => exact h.sublist eraseP_sublist
  | deplete ok secs usecs cb => exact h.adjust depleteAgain ok now secs usecs cb
  | replenish ok secs usecs cb => exact h.adjust replenishAgain ok now secs usecs cb
  | fire =>
    show Inv (fire now s)
    unfold EloopTimeout.fire
    cases hl : s.timeout with
    | nil => exact h
    | cons t l =>
      dsimp only
      split_ifs
      · exact h
      · exact h.sublist (hl ▸ sublist_cons_self t l)

/-! ## The timers that are adjusted -/

theorem mem_expiries {x : Int} : x ∈ expiries cb l ↔ ∃ t ∈ l, isOf cb t = true ∧ us t.time = x := Iff.rfl

theorem isLeast_of_find {tm : Timeout} (h : Ordered l) (hfind : l.find? (isOf cb) = some tm) :
    IsLeast (expiries cb l) (us tm.time) := by
  obtain ⟨hof, l₁, l₂, rfl, hnone⟩ := find?_eq_some_iff_append.1 hfind
  refine ⟨⟨tm, mem_append_right _ (mem_cons_self ..), hof, rfl⟩, ?_⟩
  rintro x ⟨t, ht, htof, rfl⟩
  have htail := (pairwise_append.1 h).2.1
  rcases mem_append.1 ht with ht | ht
  · have := hnone t ht
    rw [htof] at this
    cases this
  · rcases mem_cons.1 ht with rfl | ht
    · exact le_refl _
    · have := (pairwise_cons.1 htail).1 t ht
      omega

theorem isCancelled_of_isOf {t : Timeout} (h : isOf cb t = true) : isCancelled cb t = true := by
  have hcb : t.callback = cb := beq_iff_eq.1 h
  unfold isCancelled
  rw [hcb]
  simp

theorem filter_others_iff : ((l.filter fun t => !isCancelled cb t).filter fun t => !isOf cb t) =
    (l.filter fun t => !isOf cb t) ↔ ∀ t ∈ l, isCancelled cb t = true → isOf cb t = true := by
  constructor
  · intro heq t ht hcan
    by_contra hof
    have hmem : t ∈ l.filter fun t => !isOf cb t := by
      refine mem_filter.2 ⟨ht, ?_⟩
      rw [Bool.not_eq_true']
      exact eq_false_of_ne_true hof
    rw [← heq] at hmem
    have hstay := (mem_filter.1 (mem_filter.1 hmem).1).2
    rw [hcan] at hstay
    cases hstay
  · intro hall
    rw [filter_filter]
    apply filter_congr
    intro t ht
    cases hcan : isCancelled cb t with
    | false => exact Bool.and_true _
    | true => rw [hall t ht hcan]; rfl

theorem expiries_cancelled (cb : Callback) (l : List Timeout) :
    expiries cb (l.filter fun t => !isCancelled cb t) = ∅ := by
  apply Set.eq_empty_of_forall_notMem
  rintro x ⟨t, ht, hof, -⟩
  have hstay := (mem_filter.1 ht).2
  rw [isCancelled_of_isOf hof] at hstay
  cases hstay

theorem registered_anew (h : Inv s) (now : Clock) (secs usecs : UInt32) (cb : Callback) :
    ∃ l, (eloopRegisterTimeout true now secs usecs cb (eloopCancelTimeout cb s).2).2.timeout = l ∧
      expiries cb l = {us now.time + us ⟨secs.toNat, usecs.toNat⟩} ∧
      l.filter (fun t => !isOf cb t) =
        (s.timeout.filter fun t => !isCancelled cb t).filter fun t => !isOf cb t := by
  obtain ⟨t, htime, hus, heq⟩ := eloopRegisterTimeout_ok now secs usecs cb (eloopCancelTimeout cb s).2
  generalize hnew : (⟨t, cb, (eloopCancelTimeout cb s).2.registered⟩ : Timeout) = new at heq
  have hofnew : isOf cb new = true := by
    rw [← hnew]
    exact beq_self_eq_true cb
  have hnewtime : new.time = t := by rw [← hnew]
  have hlist := addTimeout_eq new (hnewtime ▸ htime) (h.cancel cb).normal
  refine ⟨_, by rw [heq], ?_, ?_⟩
  · ext x
    rw [Set.mem_singleton_iff, mem_expiries, hlist, ← hus]
    constructor
    · rintro ⟨t', ht', hof', rfl⟩
      rcases SortedList.mem_insert.1 ht' with rfl | ht'
      · rw [hnewtime]
      · have hin : us t'.time ∈ expiries cb (s.timeout.filter fun t => !isCancelled cb t) :=
          ⟨t', ht', hof', rfl⟩
        rw [expiries_cancelled] at hin
        cases hin
    · rintro rfl
      exact ⟨new, SortedList.mem_insert.2 (.inl rfl), hofnew, by rw [hnewtime]⟩
  · rw [hlist, SortedList.filter_insert_of_neg (by rw [hofnew]; rfl)]
    rfl

theorem adjusted_iff {again : OsReltime → OsReltime → Bool} {pick : Int → Int → Int}
    (hright : ∀ a b, 0 ≤ a.usec → Normal b →
      (pick (us b) (us a) = (if again a b then us a else us b) ↔ ¬ Misjudged a b))
    (hpick : ∀ x y z, pick (x + z) (y + z) = pick x y + z) (h : Inv s) (ok : Bool) (now : Clock)
    (secs usecs : UInt32) (cb : Callback) :
    Adjusted pick now secs usecs cb s.timeout (adjustTimeout again ok now secs usecs cb s).2.timeout ↔
      Judged again ok now secs usecs cb s := by
  unfold Adjusted Judged adjustTimeout
  cases hfind : s.timeout.find? (isOf cb) with
  | none =>
    refine ⟨fun _ t ht => (nomatch ht), fun _ old hold => ?_⟩
    obtain ⟨t, ht, hof, -⟩ := hold.1
    exact absurd hof (find?_eq_none.1 hfind t ht)
  | some tm =>
    have hleast := isLeast_of_find h.ordered hfind
    have hnormal := normal_osReltimeSub (h.normal tm (mem_of_find?_eq_some hfind)) now.usec
    have hreq : (0 : Int) ≤ (⟨secs.toNat, usecs.toNat⟩ : OsReltime).usec := Int.natCast_nonneg _
    have hchoice := hright _ _ hreq hnormal
    have hsub := us_osReltimeSub tm.time now.time
    have hanew := registered_anew h now secs usecs cb
    set req : OsReltime := ⟨secs.toNat, usecs.toNat⟩
    set rem := osReltimeSub tm.time now.time
    -- the pick among the times, from the pick among what remains of them
    have hshift : pick (us tm.time) (us now.time + us req) = pick (us rem) (us req) + us now.time := by
      rw [← hpick, hsub]
      congr 1 <;> omega
    have hold : ∀ P : Int → Prop, (∀ old, IsLeast (expiries cb s.timeout) old → P old) ↔ P (us tm.time) :=
      fun P => ⟨fun hall => hall _ hleast, fun hp old hold => hold.unique hleast ▸ hp⟩
    have hsome : ∀ P : Timeout → Prop, (∀ t, some tm = some t → P t) ↔ P tm :=
      fun P => ⟨fun hall => hall tm rfl, fun hp t ht => Option.some.inj ht ▸ hp⟩
    rw [hold, hsome, hshift]
    dsimp only
    by_cases hagain : again req rem = true
    · rw [if_pos hagain] at hchoice ⊢
      cases ok with
      | false =>
        -- every timer of the handler is cancelled, and none is registered
        refine ⟨fun hadj => ?_, fun hj => nomatch (hj.2 hagain).1⟩
        have hin := hadj.1.1
        rw [show (eloopRegisterTimeout false now secs usecs cb (eloopCancelTimeout cb s).2).2.timeout =
          s.timeout.filter fun t => !isCancelled cb t from rfl, expiries_cancelled] at hin
        cases hin
      | true =>
        obtain ⟨l, heq, hexp, hothers⟩ := hanew
        have hleast' : IsLeast {us now.time + us req} (pick (us rem) (us req) + us now.time) ↔
            pick (us rem) (us req) = us req := by
          constructor
          · intro hl
            have := Set.mem_singleton_iff.1 hl.1
            omega
          · intro heq
            rw [heq, Int.add_comm]
            exact isLeast_singleton
        dsimp only
        rw [heq, hexp, hothers, filter_others_iff, hleast', hchoice]
        exact and_congr_right fun _ => ⟨fun hall _ => ⟨rfl, hall⟩, fun hall => (hall hagain).2⟩
    · -- the timers stay as they are
      rw [if_neg hagain] at hchoice ⊢
      rw [← hchoice]
      constructor
      · rintro ⟨hl, -⟩
        have := hl.unique hleast
        exact ⟨by omega, fun hyes => absurd hyes hagain⟩
      · rintro ⟨heq, -⟩
        have : pick (us rem) (us req) + us now.time = us tm.time := by omega
        rw [this]
        exact ⟨hleast, rfl⟩

/-! ## Runs -/

theorem behaves_iff (h : Inv s) (e : Clock × Event) : Behaves s e ↔ Met s e := by
  obtain ⟨now, e⟩ := e
  have hord := (h.after now e).ordered
  unfold Behaves Met
  rw [and_iff_right hord]
  cases e with
  | deplete ok secs usecs cb =>
    exact adjusted_iff (fun a b => min_eq_iff) (fun x y z => by omega) h ok now secs usecs cb
  | replenish ok secs usecs cb =>
    exact adjusted_iff (fun a b => max_eq_iff) (fun x y z => by omega) h ok now secs usecs cb
  | register | cancel | cancelOne | fire => exact Iff.rfl

/-- After every sequence of events the list is in order, and every timer that is adjusted is adjusted as it
should be just when each is judged right. -/
theorem eloop_timeout_run_iff (es : List (Clock × Event)) :
    (∀ s, Run.Reach step Run.always {} es s → Ordered s.timeout) ∧
    (Run.Every step Behaves {} es ↔ Run.Every step Met {} es) := by
  have hkeep : ∀ s e s', Inv s → step s e = .ok s' → Inv s' := by
    intro s e s' h hstep
    cases hstep
    exact h.after e.1 e.2
  refine ⟨fun s hreach => ?_, ?_⟩
  · exact (hreach.invariant (I := Inv) inv_start fun s e s' h _ hstep => hkeep s e s' h hstep).ordered
  · exact Run.every_congr (I := Inv) (fun s e h => behaves_iff h e)
      (fun s e s' h _ hstep => hkeep s e s' h hstep) inv_start es

/-- A timer of two seconds that is depleted to three million microseconds expires a second later than it did. -/
theorem eloop_deplete_timeout_later :
    ¬ ∀ now cb, Run.Every step Behaves {}
        [(now, .register true 2 0 cb), (now, .deplete true 0 3000000 cb)] := by
  intro h
  let now : Clock := { time := ⟨0, 0⟩, sec := by decide, usec := by decide }
  have hrun := (eloop_timeout_run_iff _).2.1 (h now ⟨1, 2, 3⟩)
  have hjudged := (hrun.2 _ rfl).1
  have hcarry : carry ⟨2, 0⟩ = ⟨2, 0⟩ := by
    rw [carry]
    rfl
  have hfirst : (after {} now (.register true 2 0 ⟨1, 2, 3⟩)).timeout.find? (isOf ⟨1, 2, 3⟩) =
      some ⟨⟨2, 0⟩, ⟨1, 2, 3⟩, 0⟩ := by
    show List.find? _ [(⟨carry ⟨2, 0⟩, ⟨1, 2, 3⟩, 0⟩ : Timeout)] = _
    rw [hcarry]
    rfl
  have hright := (hjudged _ hfirst).1
  exact hright (show Misjudged ⟨0, 3000000⟩ ⟨2, 0⟩ from ⟨by decide, by decide⟩)

end EloopTimeout

end Hostap
