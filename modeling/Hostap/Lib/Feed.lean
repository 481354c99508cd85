import Hostap.Lib.Bounded

/-!
# Machines that are fed

A machine is given one thing after another, and says after each whether it wants more. `feed` is a run up to the
first thing after which it does not.

A machine may be given pieces of what another one is given one by one. Where it does with each piece what the
other does with what is in it (`Refines`, for pieces that are `clean` in its state), it does with all of them
what the other does with the whole, however the whole is cut into pieces (`feed_pieces`).
-/

namespace Feed

open Bounded

variable {ε σ ρ ι τ κ ν : Type} [DecidableEq ν]

/-- A run, up to the first thing after which the machine does not want `more`. -/
def feed (step : σ → ι → Except ε (σ × ν)) (more : ν) : σ → List ι → Except ε (σ × ν)
  | s, [] => .ok (s, more)
  | s, x :: xs => do
    let r ← step s x
    if r.2 = more then feed step more r.1 xs else return r

section

variable {step : σ → ι → Except ε (σ × ν)} {more : ν} {s s' : σ} {x : ι} {xs ys : List ι}

theorem feed_cons : feed step more s (x :: xs) = step s x >>= fun r =>
    if r.2 = more then feed step more r.1 xs else return r := rfl

theorem feed_more (h : step s x = .ok (s', more)) : feed step more s (x :: xs) = feed step more s' xs := by
  rw [feed_cons, h]
  exact if_pos rfl

theorem feed_stop {n : ν} (h : step s x = .ok (s', n)) (hn : n ≠ more) :
    feed step more s (x :: xs) = .ok (s', n) := by
  rw [feed_cons, h]
  exact if_neg hn

theorem feed_singleton : feed step more s [x] = step s x := by
  rw [feed_cons]
  rcases step s x with e | ⟨t, n⟩
  · rfl
  · by_cases hn : n = more
    · subst hn
      exact if_pos rfl
    · exact if_neg hn

/-- A run that goes on has gone on after the first thing. -/
theorem feed_cons_more (h : feed step more s (x :: xs) = .ok (s', more)) :
    ∃ t, step s x = .ok (t, more) ∧ feed step more t xs = .ok (s', more) := by
  obtain ⟨⟨t, n⟩, hstep, hrest⟩ := except_bind_ok h
  by_cases hn : n = more
  · subst hn
    exact ⟨t, hstep, (feed_more hstep).symm.trans h⟩
  · rw [if_neg hn] at hrest
    cases hrest
    exact absurd rfl hn

theorem feed_append : feed step more s (xs ++ ys) = do
    let r ← feed step more s xs
    if r.2 = more then feed step more r.1 ys else return r := by
  induction xs generalizing s with
  | nil =>
    show feed step more s ys = if more = more then feed step more s ys else _
    rw [if_pos rfl]
  | cons x xs ih =>
    rw [List.cons_append]
    rcases hstep : step s x with e | ⟨s', n⟩
    · rw [feed_cons, feed_cons, hstep]
      rfl
    · by_cases hn : n = more
      · subst hn
        rw [feed_more hstep, feed_more hstep, ih]
      · rw [feed_stop hstep hn, feed_stop hstep hn]
        exact (if_neg hn).symm

theorem feed_append_more (h : feed step more s xs = .ok (s', more)) :
    feed step more s (xs ++ ys) = feed step more s' ys := by
  rw [feed_append, h]
  exact if_pos rfl

theorem feed_append_stop {n : ν} (h : feed step more s xs = .ok (s', n)) (hn : n ≠ more) :
    feed step more s (xs ++ ys) = .ok (s', n) := by
  rw [feed_append, h]
  exact if_neg hn

/-- Where the machine stops there is a thing that it stops at. -/
theorem feed_stops {n : ν} (h : feed step more s xs = .ok (s', n)) (hn : n ≠ more) :
    ∃ front x rest s'', xs = front ++ x :: rest ∧ feed step more s front = .ok (s'', more) ∧
      step s'' x = .ok (s', n) := by
  induction xs generalizing s with
  | nil =>
    cases h
    exact absurd rfl hn
  | cons x xs ih =>
    rcases hstep : step s x with e | ⟨t, m⟩
    · rw [feed_cons, hstep] at h
      cases h
    · by_cases hm : m = more
      · subst hm
        rw [feed_more hstep] at h
        obtain ⟨front, y, rest, s'', rfl, hfront, hlast⟩ := ih h
        exact ⟨x :: front, y, rest, s'', rfl, (feed_more hstep).trans hfront, hlast⟩
      · rw [feed_stop hstep hm] at h
        cases h
        exact ⟨[], x, xs, s, rfl, rfl, hstep⟩

theorem feed_map (f : κ → ι) (ks : List κ) :
    feed step more s (ks.map f) = feed (fun s k => step s (f k)) more s ks := by
  induction ks generalizing s with
  | nil => rfl
  | cons k ks ih =>
    simp only [List.map_cons, feed, ih]

/-- What holds of every state that the run comes to and of what the machine is given there. -/
def Throughout (P : σ → ι → Prop) (step : σ → ι → Except ε (σ × ν)) (more : ν) : σ → List ι → Prop
  | _, [] => True
  | s, x :: xs => P s x ∧ ∀ s', step s x = .ok (s', more) → Throughout P step more s' xs

omit [DecidableEq ν] in
theorem throughout_mem {P : σ → ι → Prop} {Q : ι → Prop} (hQ : ∀ x ∈ xs, Q x)
    (h : Throughout P step more s xs) : Throughout (fun s x => Q x ∧ P s x) step more s xs := by
  induction xs generalizing s with
  | nil => trivial
  | cons x xs ih =>
    obtain ⟨hx, hrest⟩ := h
    refine ⟨⟨hQ x List.mem_cons_self, hx⟩, fun s' hs' => ih (fun y hy => ?_) (hrest s' hs')⟩
    exact hQ y (List.mem_cons_of_mem _ hy)

omit [DecidableEq ν] in
theorem Throughout.mono {P Q : σ → ι → Prop} (h : Throughout P step more s xs) (hQ : ∀ s x, P s x → Q s x) :
    Throughout Q step more s xs := by
  induction xs generalizing s with
  | nil => trivial
  | cons x xs ih => exact ⟨hQ s x h.1, fun s' hs' => ih (h.2 s' hs')⟩

theorem throughout_concat {P : σ → ι → Prop} (hxs : Throughout P step more s xs)
    (hx : ∀ s', feed step more s xs = .ok (s', more) → P s' x) : Throughout P step more s (xs ++ [x]) := by
  induction xs generalizing s with
  | nil => exact ⟨hx s rfl, fun _ _ => trivial⟩
  | cons y ys ih =>
    refine ⟨hxs.1, fun s' hs' => ih (hxs.2 s' hs') fun t ht => hx t ?_⟩
    rw [feed_more hs']
    exact ht

/-- Of a run that ends with `n`, everything up to there ends with it or goes on. -/
theorem throughout_of_feed {P : σ → ι → Prop} {n : ν} (h : feed step more s xs = .ok (s', n))
    (hP : Throughout P step more s xs) :
    Throughout (fun s x => P s x ∧ ∃ t m, step s x = .ok (t, m) ∧ (m = more ∨ m = n)) step more s xs := by
  induction xs generalizing s with
  | nil => trivial
  | cons x xs ih =>
    obtain ⟨⟨t, m⟩, hstep, hrest⟩ := except_bind_ok h
    by_cases hm : m = more
    · subst hm
      refine ⟨⟨hP.1, t, m, hstep, .inl rfl⟩, fun u hu => ?_⟩
      obtain rfl : t = u := (Prod.mk.inj (Except.ok.inj (hstep.symm.trans hu))).1
      exact ih ((feed_more hstep).symm.trans h) (hP.2 t hstep)
    · rw [if_neg hm] at hrest
      cases hrest
      refine ⟨⟨hP.1, _, _, hstep, .inr rfl⟩, fun u hu => ?_⟩
      exact absurd (Prod.mk.inj (Except.ok.inj (hstep.symm.trans hu))).2 hm

theorem throughout_append {P : σ → ι → Prop} (h : Throughout P step more s (xs ++ ys)) :
    Throughout P step more s xs ∧
      ∀ s', feed step more s xs = .ok (s', more) → Throughout P step more s' ys := by
  induction xs generalizing s with
  | nil =>
    refine ⟨trivial, fun s' hs' => ?_⟩
    cases hs'
    exact h
  | cons x xs ih =>
    obtain ⟨hx, hrest⟩ := h
    refine ⟨⟨hx, fun s' hs' => (ih (hrest s' hs')).1⟩, fun s' hs' => ?_⟩
    obtain ⟨t, hstep, hfeed⟩ := feed_cons_more hs'
    exact (ih (hrest t hstep)).2 s' hfeed

end

/-! ## Pieces -/

section

variable {coarse : ρ → ι → Except ε (ρ × ν)} {fine : σ → τ → Except ε (σ × ν)} {more : ν} {abs : ρ → σ}
  {content : ι → List τ} {inv : ρ → Prop} {clean : ρ → ι → Prop} {h : ρ} {ps : List ι}

/-- Both machines do the same: the one with the piece, and the other with what is in it. -/
def Refines (coarse : ρ → ι → Except ε (ρ × ν)) (fine : σ → τ → Except ε (σ × ν)) (more : ν) (abs : ρ → σ)
    (content : ι → List τ) (inv : ρ → Prop) (clean : ρ → ι → Prop) : Prop :=
  ∀ h p, inv h → clean h p → ∃ h' n, coarse h p = .ok (h', n) ∧
    feed fine more (abs h) (content p) = .ok (abs h', n) ∧ (n = more → inv h')

theorem feed_pieces (hrefines : Refines coarse fine more abs content inv clean) (hinv : inv h)
    (hclean : Throughout clean coarse more h ps) :
    ∃ h' n, feed coarse more h ps = .ok (h', n) ∧
      feed fine more (abs h) (ps.flatMap content) = .ok (abs h', n) ∧ (n = more → inv h') := by
  induction ps generalizing h with
  | nil => exact ⟨h, more, rfl, rfl, fun _ => hinv⟩
  | cons p ps ih =>
    obtain ⟨hp, hrest⟩ := hclean
    obtain ⟨t, n, hcoarse, hfine, ht⟩ := hrefines h p hinv hp
    rw [List.flatMap_cons]
    by_cases hn : n = more
    · subst hn
      rw [feed_more hcoarse, feed_append_more hfine]
      exact ih (ht rfl) (hrest t hcoarse)
    · exact ⟨t, n, feed_stop hcoarse hn, feed_append_stop hfine hn, fun h => absurd h hn⟩

/-- The pieces are clean if each is in every state that the other machine comes to with what is before it. -/
theorem throughout_of_reached (hrefines : Refines coarse fine more abs content inv clean) (hinv : inv h)
    (hclean : ∀ front p rest h', ps = front ++ p :: rest → inv h' →
      feed fine more (abs h) (front.flatMap content) = .ok (abs h', more) → clean h' p) :
    Throughout clean coarse more h ps := by
  induction ps generalizing h with
  | nil => trivial
  | cons p ps ih =>
    have hp := hclean [] p ps h rfl hinv rfl
    refine ⟨hp, fun h' hh' => ?_⟩
    obtain ⟨t, n, hcoarse, hfine, ht⟩ := hrefines h p hinv hp
    obtain ⟨rfl, rfl⟩ : t = h' ∧ n = more := Prod.mk.inj (Except.ok.inj (hcoarse.symm.trans hh'))
    refine ih (ht rfl) fun front q rest h'' heq hinv' hfeed => ?_
    refine hclean (p :: front) q rest h'' (by rw [heq]; rfl) hinv' ?_
    rw [List.flatMap_cons, feed_append_more hfine]
    exact hfeed

end

end Feed
