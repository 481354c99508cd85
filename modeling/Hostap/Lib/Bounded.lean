import Hostap.Lib.Except

/-!
# Readers that may read too far

A reader is given a piece of the input, and stops in one of three ways: it does not take what it finds, it
reads outside of its piece, or it is still running when its turns are used up. `Avoids` says of a reader that it
does not stop in one of these ways; a sequence of two avoids it if the first does and, where the first has a
result, the second.

`pieces` is the loop that takes one thing after the other off the front of a piece until nothing is left. It
ends as each turn leaves less than it found, and it stays inside if every turn that it comes to does.
-/

namespace Bounded

inductive Stop
  | invalid
  | outside
  | running
deriving DecidableEq

variable {α β σ τ : Type}

/-- A test that what is found has to pass. -/
def require (c : Prop) [Decidable c] : Except Stop Unit := if c then .ok () else .error .invalid

/-- What is found has to be something. -/
def ofOption : Option α → Except Stop α
  | none => .error .invalid
  | some a => .ok a

/-- It does not stop in this way. -/
def Avoids (stop : Stop) (m : Except Stop α) : Prop := m ≠ .error stop

section

variable {stop : Stop} {c : Prop} [Decidable c]

@[simp] theorem avoids_ok (a : α) : Avoids stop (.ok a) := nofun

@[simp] theorem avoids_pure (a : α) : Avoids stop (pure a) := avoids_ok a

@[simp] theorem avoids_error {s : Stop} : Avoids (α := α) stop (.error s) ↔ s ≠ stop := by
  simp [Avoids]

@[simp] theorem avoids_map {m : Except Stop α} {f : α → β} : Avoids stop (m.map f) ↔ Avoids stop m := by
  cases m with
  | error s => exact (avoids_error (α := β)).trans avoids_error.symm
  | ok a => exact ⟨fun _ => avoids_ok a, fun _ => avoids_ok (f a)⟩

theorem require_ok {u : Unit} : require c = .ok u ↔ c := by
  unfold require
  by_cases h : c
  · simp [h]
  · simp [h]

theorem require_of (h : c) : require c = .ok () := if_pos h

theorem avoids_require (hstop : stop ≠ .invalid) : Avoids stop (require c) := by
  unfold require
  by_cases h : c
  · simp [h]
  · simpa [h] using hstop.symm

theorem ofOption_ok {o : Option α} {a : α} : ofOption o = .ok a ↔ o = some a := by
  cases o with
  | none => simp [ofOption]
  | some b => simp [ofOption]

theorem avoids_ofOption (hstop : stop ≠ .invalid) (o : Option α) : Avoids stop (ofOption o) := by
  cases o with
  | none => exact avoids_error.mpr hstop.symm
  | some b => exact avoids_ok b

theorem avoids_bind {m : Except Stop α} {f : α → Except Stop β} :
    Avoids stop (m >>= f) ↔ Avoids stop m ∧ ∀ a, m = .ok a → Avoids stop (f a) := by
  cases m with
  | error s =>
    refine ⟨fun h => ⟨fun heq => ?_, fun a ha => by cases ha⟩, fun h heq => ?_⟩
    · cases heq
      exact h rfl
    · cases heq
      exact h.1 rfl
  | ok a =>
    refine ⟨fun h => ⟨avoids_ok a, fun b hb => ?_⟩, fun h => h.2 a rfl⟩
    cases hb
    exact h

theorem avoids_then {m : Except Stop α} {f : α → Except Stop β} (hm : Avoids stop m)
    (hf : ∀ a, Avoids stop (f a)) : Avoids stop (m >>= f) := avoids_bind.mpr ⟨hm, fun a _ => hf a⟩

theorem avoids_require_bind {f : Unit → Except Stop β} (hstop : stop ≠ .invalid) :
    Avoids stop (require c >>= f) ↔ (c → Avoids stop (f ())) := by
  rw [avoids_bind]
  exact ⟨fun h hc => h.2 () (require_ok.mpr hc), fun h =>
    ⟨avoids_require hstop, fun _ hu => h (require_ok.mp hu)⟩⟩

end

/-! ## Results -/

/-- It has a result, of which `P` holds: it stops in none of these ways. -/
def Returns (m : Except Stop α) (P : α → Prop) : Prop := ∃ a, m = .ok a ∧ P a

section

variable {P : α → Prop} {Q : β → Prop} {m : Except Stop α}

theorem returns_ok {a : α} (h : P a) : Returns (.ok a) P := ⟨a, rfl, h⟩

theorem returns_pure {a : α} (h : P a) : Returns (pure a) P := ⟨a, rfl, h⟩

theorem returns_bind {f : α → Except Stop β} (hm : Returns m P) (hf : ∀ a, P a → Returns (f a) Q) :
    Returns (m >>= f) Q := by
  obtain ⟨a, rfl, ha⟩ := hm
  exact hf a ha

theorem Returns.mono {P' : α → Prop} (h : Returns m P) (hP : ∀ a, P a → P' a) : Returns m P' := by
  obtain ⟨a, ha, hpost⟩ := h
  exact ⟨a, ha, hP a hpost⟩

/-- A conditional has a result if the branch does that is taken. -/
theorem returns_ite {c : Prop} [Decidable c] {m' : Except Stop α} (hpos : c → Returns m P)
    (hneg : ¬ c → Returns m' P) : Returns (if c then m else m') P := by
  by_cases h : c
  · rw [if_pos h]
    exact hpos h
  · rw [if_neg h]
    exact hneg h

theorem Returns.avoids {stop : Stop} (h : Returns m P) : Avoids stop m := by
  obtain ⟨a, rfl, -⟩ := h
  exact avoids_ok a

end

/-! ## One thing after the other -/

/-- The loop, with a number of turns. -/
def pieces (step : σ → List τ → Except Stop (σ × List τ)) : Nat → σ → List τ → Except Stop σ
  | _, s, [] => .ok s
  | 0, _, _ :: _ => .error .running
  | n + 1, s, x :: xs => do
    let r ← step s (x :: xs)
    pieces step n r.1 r.2

/-- The loop comes from one state and piece to another. -/
inductive Comes (step : σ → List τ → Except Stop (σ × List τ)) : σ → List τ → σ → List τ → Prop
  | here (s : σ) (w : List τ) : Comes step s w s w
  | next {s s' s'' : σ} {w rest w'' : List τ} (hw : w ≠ []) (hstep : step s w = .ok (s', rest))
      (hcomes : Comes step s' rest s'' w'') : Comes step s w s'' w''

variable {step : σ → List τ → Except Stop (σ × List τ)}

/-- Every turn leaves less than it found. -/
def Shortens (step : σ → List τ → Except Stop (σ × List τ)) : Prop :=
  ∀ ⦃s w s' rest⦄, step s w = .ok (s', rest) → rest.length < w.length

theorem pieces_ends (hshort : Shortens step) (hstep : ∀ s w, Avoids .running (step s w)) {n : Nat} {s : σ}
    {w : List τ} (hn : w.length ≤ n) : Avoids .running (pieces step n s w) := by
  induction n generalizing s w with
  | zero =>
    rw [List.length_eq_zero_iff.mp (Nat.le_zero.mp hn)]
    exact avoids_ok s
  | succ n ih =>
    cases w with
    | nil => exact avoids_ok s
    | cons x xs =>
      refine avoids_bind.mpr ⟨hstep s (x :: xs), fun r hr => ih ?_⟩
      have hless := hshort hr
      rw [List.length_cons] at hn hless
      omega

/-- The loop stays inside if and only if all turns do that it comes to. -/
theorem pieces_inside (hshort : Shortens step) {n : Nat} {s : σ} {w : List τ} (hn : w.length ≤ n) :
    Avoids .outside (pieces step n s w) ↔
      ∀ s' w', Comes step s w s' w' → w' ≠ [] → Avoids .outside (step s' w') := by
  induction n generalizing s w with
  | zero =>
    rw [List.length_eq_zero_iff.mp (Nat.le_zero.mp hn)]
    refine ⟨fun _ s' w' hcomes hne => ?_, fun _ => avoids_ok s⟩
    cases hcomes with
    | here => exact absurd rfl hne
    | next hw _ _ => exact absurd rfl hw
  | succ n ih =>
    cases w with
    | nil =>
      refine ⟨fun _ s' w' hcomes hne => ?_, fun _ => avoids_ok s⟩
      cases hcomes with
      | here => exact absurd rfl hne
      | next hw _ _ => exact absurd rfl hw
    | cons x xs =>
      have hrest : ∀ r, step s (x :: xs) = .ok r → r.2.length ≤ n := fun r hr => by
        have hless := hshort hr
        rw [List.length_cons] at hn hless
        omega
      rw [show pieces step (n + 1) s (x :: xs) = step s (x :: xs) >>= fun r => pieces step n r.1 r.2 from rfl,
        avoids_bind]
      constructor
      · rintro ⟨hhere, hthere⟩ s' w' hcomes hne
        cases hcomes with
        | here => exact hhere
        | next _ hstep hcomes => exact (ih (hrest _ hstep)).mp (hthere _ hstep) s' w' hcomes hne
      · intro h
        refine ⟨h s (x :: xs) (.here _ _) (List.cons_ne_nil _ _), fun r hr => (ih (hrest r hr)).mpr ?_⟩
        intro s' w' hcomes hne
        exact h s' w' (.next (List.cons_ne_nil _ _) hr hcomes) hne

theorem pieces_keeps {f : σ → α} (hstep : ∀ ⦃s w s' rest⦄, step s w = .ok (s', rest) → f s' = f s) {n : Nat}
    {s s' : σ} {w : List τ} (h : pieces step n s w = .ok s') : f s' = f s := by
  induction n generalizing s w with
  | zero =>
    cases w with
    | nil => cases h; rfl
    | cons x xs => cases h
  | succ n ih =>
    cases w with
    | nil => cases h; rfl
    | cons x xs =>
      obtain ⟨r, hr, h⟩ := except_bind_ok h
      rw [ih h]
      exact hstep hr

end Bounded
