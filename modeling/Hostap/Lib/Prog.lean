/-!
# Programs with a state and a fault

A C function that reads and writes shared state and may run into undefined behaviour is
embedded as `Prog σ φ α`: a state transformer that either returns a value and a new state or
stops with a fault. This module owns the rules of pre- and postconditions for such programs.

* `wp m Q E s`: from `s`, the program `m` either returns with `Q` or faults with `E`;
* one rule per construct (`wp_pure`, `wp_bind`, `wp_get`, `wp_set`, `wp_modify`, `wp_callPure`),
  all simp lemmas, so that a specification of a function unfolds to obligations on its calls;
* `wp_mono` weakens a specification, which is how a caller uses the one of its callee;
* `Stable I m`: the program `m` keeps the invariant `I`, with a rule per construct again.
-/

namespace Prog

/-- A program over the state `σ` that may stop with a fault of type `φ`. -/
abbrev Prog (σ φ α : Type) := StateT σ (Except φ) α

variable {σ φ α β : Type}

/-- Weakest precondition: `m` started in `s` returns with `Q` or faults with `E`. -/
def wp (m : Prog σ φ α) (Q : α → σ → Prop) (E : φ → Prop) (s : σ) : Prop :=
  match m s with
  | .ok (a, s') => Q a s'
  | .error e => E e

/-- What `wp` says of a run that returned. -/
theorem wp_ok {m : Prog σ φ α} {Q : α → σ → Prop} {E : φ → Prop} {s s' : σ} {a : α}
    (h : wp m Q E s) (hrun : m s = .ok (a, s')) : Q a s' := by
  simpa only [wp, hrun] using h

/-- What `wp` says of a run that faulted. -/
theorem wp_error {m : Prog σ φ α} {Q : α → σ → Prop} {E : φ → Prop} {s : σ} {e : φ}
    (h : wp m Q E s) (hrun : m s = .error e) : E e := by
  simpa only [wp, hrun] using h

/-- A specification may be weakened in both postconditions. -/
theorem wp_mono {m : Prog σ φ α} {Q Q' : α → σ → Prop} {E E' : φ → Prop} {s : σ}
    (h : wp m Q E s) (hQ : ∀ a s', Q a s' → Q' a s') (hE : ∀ e, E e → E' e) :
    wp m Q' E' s := by
  unfold wp at *
  split at h
  · exact hQ _ _ h
  · exact hE _ h

theorem bind_ok {m : Prog σ φ α} {f : α → Prog σ φ β} {s s' : σ} {a : α} (h : m s = .ok (a, s')) :
    (m >>= f) s = f a s' := by
  show (m s >>= fun r => f r.1 r.2) = _
  rw [h]
  rfl

theorem bind_error {m : Prog σ φ α} {f : α → Prog σ φ β} {s : σ} {e : φ} (h : m s = .error e) :
    (m >>= f) s = .error e := by
  show (m s >>= fun r => f r.1 r.2) = _
  rw [h]
  rfl

@[simp] theorem wp_pure (a : α) (Q : α → σ → Prop) (E : φ → Prop) (s : σ) :
    wp (pure a) Q E s ↔ Q a s := Iff.rfl

@[simp] theorem wp_bind (m : Prog σ φ α) (f : α → Prog σ φ β) (Q : β → σ → Prop)
    (E : φ → Prop) (s : σ) :
    wp (m >>= f) Q E s ↔ wp m (fun a s' => wp (f a) Q E s') E s := by
  simp only [wp, bind, StateT.bind, Except.bind]
  cases m s <;> rfl

@[simp] theorem wp_get (Q : σ → σ → Prop) (E : φ → Prop) (s : σ) :
    wp (get : Prog σ φ σ) Q E s ↔ Q s s := Iff.rfl

@[simp] theorem wp_set (t : σ) (Q : PUnit → σ → Prop) (E : φ → Prop) (s : σ) :
    wp (set t : Prog σ φ PUnit) Q E s ↔ Q ⟨⟩ t := Iff.rfl

@[simp] theorem wp_modify (f : σ → σ) (Q : PUnit → σ → Prop) (E : φ → Prop) (s : σ) :
    wp (modify f : Prog σ φ PUnit) Q E s ↔ Q ⟨⟩ (f s) := Iff.rfl

/-- A computation that reads or faults without touching the state. -/
def callPure (x : Except φ α) : Prog σ φ α := fun s =>
  match x with
  | .ok a => .ok (a, s)
  | .error e => .error e

@[simp] theorem wp_callPure (x : Except φ α) (Q : α → σ → Prop) (E : φ → Prop) (s : σ) :
    wp (callPure x) Q E s ↔ (∀ a, x = .ok a → Q a s) ∧ (∀ e, x = .error e → E e) := by
  cases x <;> simp [wp, callPure]

/-! ## Invariants of programs -/

/-- From a state with `I` the program returns to one with `I`, or faults. -/
def Stable (I : σ → Prop) (m : Prog σ φ α) : Prop := ∀ s, I s → wp m (fun _ s' => I s') (fun _ => True) s

namespace Stable

variable {I : σ → Prop} {m m' : Prog σ φ α} {f : α → Prog σ φ β}

theorem pure (a : α) : Stable I (pure a : Prog σ φ α) := fun _ h => h

theorem bind (hm : Stable I m) (hf : ∀ a, Stable I (f a)) : Stable I (m >>= f) := by
  intro s h
  rw [wp_bind]
  exact wp_mono (hm s h) (fun a s' h' => hf a s' h') fun _ _ => trivial

theorem get {f : σ → Prog σ φ β} (hf : ∀ s, I s → wp (f s) (fun _ s' => I s') (fun _ => True) s) :
    Stable I ((MonadState.get : Prog σ φ σ) >>= f) := by
  intro s h
  rw [wp_bind]
  exact hf s h

theorem callPure (x : Except φ α) : Stable I (callPure x) := by
  intro s h
  rw [wp_callPure]
  exact ⟨fun _ _ => h, fun _ _ => trivial⟩

theorem modify {g : σ → σ} (hg : ∀ s, I s → I (g s)) : Stable I (modify g : Prog σ φ PUnit) := hg

theorem ite {p : Prop} [Decidable p] (hm : Stable I m) (hm' : Stable I m') : Stable I (if p then m else m') := by
  split
  · exact hm
  · exact hm'

end Stable

end Prog
