/-!
# Functions that give up half-way

A C function that writes to a structure through a pointer and returns an error in the middle leaves
behind what it has written so far. `Attempt σ α` embeds such a function: it takes the structure, and
gives back the structure together with a result, or without one if it gave up. The program goes on with
the next step only where there is a result.

* `give` takes a value that may be absent, `require` checks a condition; both give up without writing;
* `Returns m s a s'` says that a program started on `s` gets to its end. There is one rule per construct,
  and `Returns.bind` puts a whole function together from its steps;
* `Fails m s s'` says that it gives up, with `Fails.bind` for a step that is not reached;
* `Within μ n m` bounds what a program adds to a measure of the structure, whether it gives up or not;
* `Keeps F m` says that a program changes the structure only as the frame `F` allows, whether it gives up or
  not;
* `completed` is a program whose structure is thrown away if it gives up.
-/

namespace Attempt

/-- A program on the structure `σ` that may give up. -/
def Attempt (σ α : Type) : Type := σ → Option α × σ

variable {σ α β : Type}

/-- What follows a step. -/
def andThen (r : Option α × σ) (f : α → Attempt σ β) : Option β × σ :=
  match r.1 with
  | none => (none, r.2)
  | some a => f a r.2

instance : Monad (Attempt σ) where
  pure a := fun s => (some a, s)
  bind m f := fun s => andThen (m s) f

/-- The structure as it is. -/
def look : Attempt σ σ := fun s => (some s, s)

/-- Writes to the structure. -/
def write (f : σ → σ) : Attempt σ Unit := fun s => (some (), f s)

/-- Goes on with a value, if there is one. -/
def give (o : Option α) : Attempt σ α := fun s => (o, s)

/-- Goes on if the condition holds. -/
def require (p : Prop) [Decidable p] : Attempt σ Unit := fun s => (if p then some () else none, s)

/-- The program gets to its end. -/
def Returns (m : Attempt σ α) (s : σ) (a : α) (s' : σ) : Prop := m s = (some a, s')

/-- The program gives up. -/
def Fails (m : Attempt σ α) (s s' : σ) : Prop := m s = (none, s')

theorem Returns.pure (a : α) (s : σ) : Returns (Pure.pure a : Attempt σ α) s a s := rfl

theorem Returns.bind {m : Attempt σ α} {f : α → Attempt σ β} {s s' s'' : σ} {a : α} {b : β}
    (hm : Returns m s a s') (hf : Returns (f a) s' b s'') : Returns (m >>= f) s b s'' := by
  show andThen (m s) f = _
  rw [show m s = _ from hm]
  exact hf

theorem Returns.look (s : σ) : Returns look s s s := rfl

theorem Returns.give {o : Option α} {a : α} (h : o = some a) (s : σ) : Returns (give o) s a s := by
  rw [h]
  rfl

theorem Returns.require {p : Prop} [Decidable p] (h : p) (s : σ) : Returns (require p) s () s := by
  show (if p then some () else none, s) = _
  rw [if_pos h]

theorem Fails.bind_left {m : Attempt σ α} {f : α → Attempt σ β} {s s' : σ} (hm : Fails m s s') :
    Fails (m >>= f) s s' := by
  show andThen (m s) f = _
  rw [show m s = _ from hm]
  rfl

theorem Fails.bind {m : Attempt σ α} {f : α → Attempt σ β} {s s' s'' : σ} {a : α} (hm : Returns m s a s')
    (hf : Fails (f a) s' s'') : Fails (m >>= f) s s'' := by
  show andThen (m s) f = _
  rw [show m s = _ from hm]
  exact hf

theorem Fails.require {p : Prop} [Decidable p] (h : ¬ p) (s : σ) :
    Fails (Attempt.require p) s s := by
  show (if p then some () else none, s) = _
  rw [if_neg h]

/-- It does not matter which of two values is missing first. -/
theorem give_comm {γ : Type} (o : Option α) (p : Option β) (f : α → β → Attempt σ γ) :
    (give o >>= fun a => give p >>= fun b => f a b) = give p >>= fun b => give o >>= fun a => f a b := by
  cases o with
  | none => cases p <;> rfl
  | some a => rfl

theorem give_bind (o : Option α) (f : α → Option β) :
    (give (o >>= f) : Attempt σ β) = give o >>= fun a => give (f a) := by
  cases o with
  | none => rfl
  | some a => rfl

theorem give_bind_assoc {γ : Type} (o : Option α) (f : α → Attempt σ β) (g : β → Attempt σ γ) :
    (give o >>= f) >>= g = give o >>= fun a => f a >>= g := by
  cases o with
  | none => rfl
  | some a => rfl

theorem give_ite {p : Prop} [Decidable p] (o o' : Option α) :
    (give (if p then o else o') : Attempt σ α) = if p then give o else give o' := by
  split <;> rfl

theorem Returns.bind_inv {m : Attempt σ α} {f : α → Attempt σ β} {s s'' : σ} {b : β}
    (h : Returns (m >>= f) s b s'') : ∃ a s', Returns m s a s' ∧ Returns (f a) s' b s'' := by
  have heq : andThen (m s) f = (some b, s'') := h
  rcases hm : m s with ⟨a, s'⟩
  rw [hm] at heq
  cases a with
  | none => cases heq
  | some a => exact ⟨a, s', hm, heq⟩

theorem Returns.pure_inv {a b : α} {s s' : σ} (h : Returns (Pure.pure a : Attempt σ α) s b s') :
    b = a ∧ s' = s := by
  cases h
  exact ⟨rfl, rfl⟩

theorem Returns.look_inv {s t s' : σ} (h : Returns Attempt.look s t s') : t = s ∧ s' = s := by
  cases h
  exact ⟨rfl, rfl⟩

theorem Returns.write_inv {f : σ → σ} {s s' : σ} {u : Unit} (h : Returns (Attempt.write f) s u s') :
    s' = f s := by
  cases h
  rfl

theorem Returns.give_inv {o : Option α} {a : α} {s s' : σ} (h : Returns (Attempt.give o) s a s') :
    o = some a ∧ s' = s := by
  have heq : (o, s) = (some a, s') := h
  cases heq
  exact ⟨rfl, rfl⟩

theorem Returns.require_inv {p : Prop} [Decidable p] {s s' : σ} {u : Unit}
    (h : Returns (Attempt.require p) s u s') : p ∧ s' = s := by
  have heq : (if p then some () else none, s) = (some u, s') := h
  by_cases hp : p
  · rw [if_pos hp] at heq
    cases heq
    exact ⟨hp, rfl⟩
  · rw [if_neg hp] at heq
    cases heq

/-! A step of a program that got to its end is taken off its front. -/

theorem Returns.of_look {f : σ → Attempt σ β} {s s' : σ} {b : β}
    (h : Returns (Attempt.look >>= f) s b s') : Returns (f s) s b s' := h

theorem Returns.of_write {g : σ → σ} {f : Unit → Attempt σ β} {s s' : σ} {b : β}
    (h : Returns (Attempt.write g >>= f) s b s') : Returns (f ()) (g s) b s' := h

theorem Returns.of_give {o : Option α} {f : α → Attempt σ β} {s s' : σ} {b : β}
    (h : Returns (Attempt.give o >>= f) s b s') : ∃ a, o = some a ∧ Returns (f a) s b s' := by
  obtain ⟨a, t, ha, hf⟩ := h.bind_inv
  obtain ⟨rfl, rfl⟩ := ha.give_inv
  exact ⟨a, rfl, hf⟩

theorem Returns.of_require {p : Prop} [Decidable p] {f : Unit → Attempt σ β} {s s' : σ} {b : β}
    (h : Returns (Attempt.require p >>= f) s b s') : p ∧ Returns (f ()) s b s' := by
  obtain ⟨_, t, ht, hf⟩ := h.bind_inv
  obtain ⟨hp, rfl⟩ := ht.require_inv
  exact ⟨hp, hf⟩

/-! ## Bounds -/

/-- The program adds at most `n` to the measure. -/
def Within (μ : σ → Nat) (n : Nat) (m : Attempt σ α) : Prop := ∀ s, μ (m s).2 ≤ μ s + n

variable {μ : σ → Nat}

theorem Within.pure (a : α) : Within μ 0 (Pure.pure a : Attempt σ α) := fun _ => Nat.le_refl _

theorem Within.look : Within μ 0 (look : Attempt σ σ) := fun _ => Nat.le_refl _

theorem Within.give (o : Option α) : Within μ 0 (give o : Attempt σ α) := fun _ => Nat.le_refl _

theorem Within.require (p : Prop) [Decidable p] : Within μ 0 (require p : Attempt σ Unit) :=
  fun _ => Nat.le_refl _

theorem Within.write {f : σ → σ} {n : Nat} (h : ∀ s, μ (f s) ≤ μ s + n) : Within μ n (write f) := h

theorem Within.bind {m : Attempt σ α} {f : α → Attempt σ β} {i j : Nat} (hm : Within μ i m)
    (hf : ∀ a, Within μ j (f a)) : Within μ (i + j) (m >>= f) := by
  intro s
  have hs := hm s
  show μ (andThen (m s) f).2 ≤ _
  rcases hr : m s with ⟨a, s'⟩
  rw [hr] at hs
  dsimp only at hs
  cases a with
  | none =>
    show μ s' ≤ _
    omega
  | some a =>
    have hfa := hf a s'
    show μ (f a s').2 ≤ _
    omega

theorem Within.mono {m : Attempt σ α} {i j : Nat} (h : Within μ i m) (hij : i ≤ j) : Within μ j m := by
  intro s
  have hs := h s
  omega

/-! ## Frames -/

/-- How a structure may change from one step to the next, and so over any number of steps. -/
structure Frame (σ : Type) where
  rel : σ → σ → Prop
  refl : ∀ s, rel s s
  trans : ∀ {s t u}, rel s t → rel t u → rel s u

/-- What `f` reads stays as it is. -/
def Frame.same {γ : Type} (f : σ → γ) : Frame σ where
  rel s s' := f s' = f s
  refl _ := rfl
  trans h h' := h'.trans h

/-- The program changes the structure only as the frame allows. -/
def Keeps (F : Frame σ) (m : Attempt σ α) : Prop := ∀ s, F.rel s (m s).2

variable {F : Frame σ}

theorem Keeps.pure (a : α) : Keeps F (Pure.pure a : Attempt σ α) := F.refl

theorem Keeps.look : Keeps F (look : Attempt σ σ) := F.refl

theorem Keeps.give (o : Option α) : Keeps F (give o : Attempt σ α) := F.refl

theorem Keeps.require (p : Prop) [Decidable p] : Keeps F (require p : Attempt σ Unit) := F.refl

theorem Keeps.write {f : σ → σ} (h : ∀ s, F.rel s (f s)) : Keeps F (write f) := h

theorem Keeps.bind {m : Attempt σ α} {f : α → Attempt σ β} (hm : Keeps F m) (hf : ∀ a, Keeps F (f a)) :
    Keeps F (m >>= f) := by
  intro s
  have hs := hm s
  show F.rel s (andThen (m s) f).2
  rcases hr : m s with ⟨a, s'⟩
  rw [hr] at hs
  cases a with
  | none => exact hs
  | some a => exact F.trans hs (hf a s')

theorem Keeps.ite {p : Prop} [Decidable p] {m n : Attempt σ α} (hm : Keeps F m) (hn : Keeps F n) :
    Keeps F (if p then m else n) := by
  by_cases h : p
  · rw [if_pos h]
    exact hm
  · rw [if_neg h]
    exact hn

theorem Keeps.returns {m : Attempt σ α} (h : Keeps F m) {s s' : σ} {a : α} (hr : Returns m s a s') :
    F.rel s s' := by
  have hs := h s
  rw [show m s = _ from hr] at hs
  exact hs

/-- Nothing is left of the structure of a program that gave up. -/
def completed (m : Attempt σ α) (s : σ) : Option σ := (m s).1.map fun _ => (m s).2

theorem returns_of_completed {m : Attempt σ α} {s s' : σ} (h : completed m s = some s') :
    ∃ a, Returns m s a s' := by
  obtain ⟨a, ha, rfl⟩ := Option.map_eq_some_iff.mp h
  exact ⟨a, Prod.ext ha rfl⟩

end Attempt
