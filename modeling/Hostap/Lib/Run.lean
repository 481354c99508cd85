/-!
# Runs of a step function

A component is a step function `step : σ → α → Except φ σ` on its state: an event is processed
to a new state or stops the component with a fault. `Reach step C s₀ evs s` says that the
events `evs`, taken from `s₀` with every step meeting the condition `C`, lead to `s`. The
unconditioned runs are those of `fun _ _ => True`.

`Reach.invariant` is the induction every safety result over runs uses; `reach_of_runFrom` and
`reach_of_runWhile` turn an evaluated run into a `Reach`.
-/

namespace Run

variable {σ α φ : Type}

/-- The states reached from `s₀` by runs all of whose steps meet `C`. -/
inductive Reach (step : σ → α → Except φ σ) (C : σ → α → Prop) (s₀ : σ) :
    List α → σ → Prop
  | start : Reach step C s₀ [] s₀
  | next {evs : List α} {s s' : σ} {a : α} : Reach step C s₀ evs s → C s a →
      step s a = .ok s' → Reach step C s₀ (evs ++ [a]) s'

/-- The condition every run meets. -/
def always : σ → α → Prop := fun _ _ => True

instance (s : σ) (a : α) : Decidable (always s a) := .isTrue trivial

variable {step : σ → α → Except φ σ} {C : σ → α → Prop} {s₀ : σ}

/-- An invariant that holds at the start and is kept by every step that meets the condition
holds in every state reached. -/
theorem Reach.invariant {I : σ → Prop} (hstart : I s₀)
    (hstep : ∀ s a s', I s → C s a → step s a = .ok s' → I s')
    {evs : List α} {s : σ} (h : Reach step C s₀ evs s) : I s := by
  induction h with
  | start => exact hstart
  | next _ hc hs ih => exact hstep _ _ _ ih hc hs

/-- A run under a stronger condition is a run under a weaker one. -/
theorem Reach.mono {C' : σ → α → Prop} (hC : ∀ s a, C s a → C' s a)
    {evs : List α} {s : σ} (h : Reach step C s₀ evs s) : Reach step C' s₀ evs s := by
  induction h with
  | start => exact .start
  | next _ hc hs ih => exact .next ih (hC _ _ hc) hs

theorem Reach.trans {evs evs' : List α} {s t : σ} (h : Reach step C s₀ evs s)
    (h' : Reach step C s evs' t) : Reach step C s₀ (evs ++ evs') t := by
  induction h' with
  | start => simpa using h
  | next _ hc hs ih =>
    rw [← List.append_assoc]
    exact .next ih hc hs

/-- Executes a list of events. -/
def runFrom (step : σ → α → Except φ σ) (s : σ) : List α → Except φ σ
  | [] => .ok s
  | a :: as =>
    match step s a with
    | .ok s' => runFrom step s' as
    | .error e => .error e

theorem reach_of_runFrom {evs : List α} {s : σ} (h : runFrom step s₀ evs = .ok s) :
    Reach step always s₀ evs s := by
  induction evs generalizing s₀ with
  | nil =>
    simp only [runFrom, Except.ok.injEq] at h
    subst h
    exact .start
  | cons a as ih =>
    simp only [runFrom] at h
    split at h
    · rename_i s' hs
      exact (Reach.next .start trivial hs).trans (ih h)
    · cases h

/-- Executes a list of events as long as every step meets the condition. -/
def runWhile (step : σ → α → Except φ σ) (C : σ → α → Prop) [∀ s a, Decidable (C s a)] (s : σ) :
    List α → Option σ
  | [] => some s
  | a :: as =>
    if C s a then
      match step s a with
      | .ok s' => runWhile step C s' as
      | .error _ => none
    else
      none

theorem reach_of_runWhile [∀ s a, Decidable (C s a)] {evs : List α} {s : σ}
    (h : runWhile step C s₀ evs = some s) : Reach step C s₀ evs s := by
  induction evs generalizing s₀ with
  | nil =>
    simp only [runWhile, Option.some.injEq] at h
    subst h
    exact .start
  | cons a as ih =>
    simp only [runWhile] at h
    split at h
    · rename_i hc
      split at h
      · rename_i s' hs
        exact (Reach.next .start hc hs).trans (ih h)
      · cases h
    · cases h

theorem reach_of_runWhile_any (step : σ → α → Except φ σ) (C : σ → α → Prop)
    [∀ s a, Decidable (C s a)] (s₀ : σ) (evs : List α) (p : σ → Bool)
    (h : (runWhile step C s₀ evs).any p = true) : ∃ s, Reach step C s₀ evs s ∧ p s = true := by
  cases hrun : runWhile step C s₀ evs with
  | none =>
    rw [hrun] at h
    cases h
  | some s =>
    rw [hrun] at h
    exact ⟨s, reach_of_runWhile hrun, h⟩

/-- Every step of the run has the property in the state it is taken in. -/
def Every (step : σ → α → Except φ σ) (P : σ → α → Prop) : σ → List α → Prop
  | _, [] => True
  | s, a :: as => P s a ∧ ∀ s', step s a = .ok s' → Every step P s' as

/-- Two properties that are the same under an invariant, which each step with them keeps. -/
theorem every_congr {I : σ → Prop} {P Q : σ → α → Prop} (hpq : ∀ s a, I s → (P s a ↔ Q s a))
    (hkeep : ∀ s a s', I s → Q s a → step s a = .ok s' → I s') {s : σ} (hi : I s) (as : List α) :
    Every step P s as ↔ Every step Q s as := by
  induction as generalizing s with
  | nil => exact Iff.rfl
  | cons a as ih =>
    rw [Every, Every, hpq s a hi]
    refine and_congr_right fun hq => forall_congr' fun s' => forall_congr' fun hs => ?_
    exact ih (hkeep s a s' hi hq hs)

end Run
