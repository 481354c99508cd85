import Hostap.Lib.Attempt

/-!
# Functions that dereference what may be absent

`Access σ α` is a program of `Attempt` that does not survive a dereference of something absent: `pointee` is
such a dereference, and `lift` is a part without one. Giving up is a result; the fault is none.

* `Safe m s` says that the program started on `s` dereferences nothing absent. The rules for its steps are
  equivalences, so that a whole function comes down to the condition under which it is safe;
* `Follows m n` says that where nothing absent is dereferenced, the program does what the program `n` does,
  which takes what is absent for a reason to give up.
-/

namespace Access

open Attempt

/-- What a program does not survive. -/
inductive NullPointer
  | dereferenced
  deriving DecidableEq

/-- A program on the structure `σ` that may give up, or dereference something absent. -/
def Access (σ α : Type) : Type := σ → Except NullPointer (Option α × σ)

variable {σ α β : Type}

/-- What follows a step. -/
def andThen (r : Except NullPointer (Option α × σ)) (f : α → Access σ β) : Except NullPointer (Option β × σ) :=
  match r with
  | .error e => .error e
  | .ok (none, s) => .ok (none, s)
  | .ok (some a, s) => f a s

instance : Monad (Access σ) where
  pure a := fun s => .ok (some a, s)
  bind m f := fun s => andThen (m s) f

/-- A part that dereferences nothing. -/
def lift (m : Attempt σ α) : Access σ α := fun s => .ok (m s)

/-- The pointer is dereferenced. -/
def pointee (o : Option α) : Access σ α := fun s =>
  match o with
  | none => .error .dereferenced
  | some a => .ok (some a, s)

/-! ## Safety -/

/-- Nothing absent is dereferenced. -/
def Safe (m : Access σ α) (s : σ) : Prop := ∃ r, m s = .ok r

instance (m : Access σ α) (s : σ) : Decidable (Safe m s) :=
  match h : m s with
  | .ok r => .isTrue ⟨r, h⟩
  | .error _ => .isFalse fun hsafe => by
    obtain ⟨_, hr⟩ := hsafe
    rw [h] at hr
    cases hr

variable {s : σ}

theorem safe_lift (m : Attempt σ α) : Safe (lift m) s := ⟨_, rfl⟩

theorem safe_pure (a : α) : Safe (pure a : Access σ α) s := ⟨_, rfl⟩

theorem safe_bind {m : Access σ α} {f : α → Access σ β} :
    Safe (m >>= f) s ↔ Safe m s ∧ ∀ a s', m s = .ok (some a, s') → Safe (f a) s' := by
  show (∃ r, andThen (m s) f = .ok r) ↔ _
  unfold Safe
  rcases m s with e | ⟨_ | a, s'⟩
  · constructor
    · rintro ⟨_, h⟩
      cases h
    · rintro ⟨⟨_, h⟩, _⟩
      cases h
  · refine ⟨fun _ => ⟨⟨_, rfl⟩, fun _ _ h => ?_⟩, fun _ => ⟨_, rfl⟩⟩
    cases h
  · refine ⟨fun h => ⟨⟨_, rfl⟩, fun _ _ heq => ?_⟩, fun h => h.2 a s' rfl⟩
    cases heq
    exact h

theorem safe_lift_bind {m : Attempt σ α} {f : α → Access σ β} :
    Safe (lift m >>= f) s ↔ ∀ a s', Returns m s a s' → Safe (f a) s' := by
  refine safe_bind.trans ⟨fun h a s' hm => h.2 a s' ?_, fun h => ⟨safe_lift m, fun a s' hm => h a s' ?_⟩⟩
  · exact congrArg Except.ok hm
  · exact Except.ok.inj hm

theorem safe_look {f : σ → Access σ β} : Safe (lift look >>= f) s ↔ Safe (f s) s := Iff.rfl

theorem safe_write {g : σ → σ} {f : Unit → Access σ β} : Safe (lift (write g) >>= f) s ↔ Safe (f ()) (g s) :=
  Iff.rfl

theorem safe_give {o : Option α} {f : α → Access σ β} :
    Safe (lift (give o) >>= f) s ↔ ∀ a, o = some a → Safe (f a) s := by
  refine safe_lift_bind.trans ⟨fun h a ho => h a s (Returns.give ho s), fun h a s' hm => ?_⟩
  obtain ⟨ho, rfl⟩ := hm.give_inv
  exact h a ho

theorem safe_require {p : Prop} [Decidable p] {f : Unit → Access σ β} :
    Safe (lift (require p) >>= f) s ↔ (p → Safe (f ()) s) := by
  refine safe_lift_bind.trans ⟨fun h hp => h () s (Returns.require hp s), fun h _ s' hm => ?_⟩
  obtain ⟨hp, rfl⟩ := hm.require_inv
  exact h hp

theorem safe_pointee_bind {o : Option α} {f : α → Access σ β} :
    Safe (pointee o >>= f) s ↔ ∃ a, o = some a ∧ Safe (f a) s := by
  cases o with
  | none =>
    constructor
    · rintro ⟨_, h⟩
      cases h
    · rintro ⟨_, h, _⟩
      cases h
  | some a =>
    refine ⟨fun h => ⟨a, rfl, h⟩, ?_⟩
    rintro ⟨_, h, hf⟩
    cases h
    exact hf

theorem safe_pointee_some {o : Option α} {a : α} (h : o = some a) {f : α → Access σ β} :
    Safe (pointee o >>= f) s ↔ Safe (f a) s := by
  subst h
  exact Iff.rfl

theorem safe_ite {p : Prop} [Decidable p] {m n : Access σ α} :
    Safe (if p then m else n) s ↔ (p → Safe m s) ∧ (¬ p → Safe n s) := by
  by_cases h : p
  · rw [if_pos h]
    exact ⟨fun hm => ⟨fun _ => hm, fun hp => absurd h hp⟩, fun hm => hm.1 h⟩
  · rw [if_neg h]
    exact ⟨fun hn => ⟨fun hp => absurd hp h, fun _ => hn⟩, fun hn => hn.2 h⟩

/-! ## What a program does where it is safe -/

/-- Where nothing absent is dereferenced, the program does what the other does. -/
def Follows (m : Access σ α) (n : Attempt σ α) (s : σ) : Prop := ∀ r, m s = .ok r → n s = r

theorem follows_lift (n : Attempt σ α) (s : σ) : Follows (lift n) n s := fun _ h => Except.ok.inj h

theorem follows_pure (a : α) (s : σ) : Follows (pure a : Access σ α) (pure a) s := fun _ h => Except.ok.inj h

theorem Follows.bind {m : Access σ α} {n : Attempt σ α} {f : α → Access σ β} {g : α → Attempt σ β}
    (hm : Follows m n s) (hf : ∀ a s', Returns n s a s' → Follows (f a) (g a) s') :
    Follows (m >>= f) (n >>= g) s := by
  intro r h
  have h : andThen (m s) f = .ok r := h
  show Attempt.andThen (n s) g = r
  rcases hr : m s with e | ⟨_ | a, s'⟩
  · rw [hr] at h
    cases h
  · rw [hr] at h
    rw [hm _ hr]
    exact Except.ok.inj h
  · rw [hr] at h
    have hn : Returns n s a s' := hm _ hr
    rw [show n s = _ from hn]
    exact hf a s' hn r h

theorem Follows.look_left {f : σ → Access σ β} {n : Attempt σ β} (h : Follows (f s) n s) :
    Follows (lift Attempt.look >>= f) n s := h

theorem Follows.look {f : σ → Access σ β} {g : σ → Attempt σ β} (h : Follows (f s) (g s) s) :
    Follows (lift Attempt.look >>= f) (Attempt.look >>= g) s := h

theorem Follows.write {w : σ → σ} {f : Unit → Access σ β} {g : Unit → Attempt σ β}
    (h : Follows (f ()) (g ()) (w s)) : Follows (lift (Attempt.write w) >>= f) (Attempt.write w >>= g) s := h

theorem Follows.give {o : Option α} {f : α → Access σ β} {g : α → Attempt σ β}
    (h : ∀ a, o = some a → Follows (f a) (g a) s) :
    Follows (lift (Attempt.give o) >>= f) (Attempt.give o >>= g) s := by
  refine (follows_lift _ s).bind fun a s' hn => ?_
  obtain ⟨ho, rfl⟩ := hn.give_inv
  exact h a ho

theorem Follows.require {p : Prop} [Decidable p] {f : Unit → Access σ β} {g : Unit → Attempt σ β}
    (h : p → Follows (f ()) (g ()) s) :
    Follows (lift (Attempt.require p) >>= f) (Attempt.require p >>= g) s := by
  refine (follows_lift _ s).bind fun _ s' hn => ?_
  obtain ⟨hp, rfl⟩ := hn.require_inv
  exact h hp

/-- What is absent is a reason to give up for the other program. -/
theorem Follows.pointee {o : Option α} {f : α → Access σ β} {g : α → Attempt σ β}
    (h : ∀ a, o = some a → Follows (f a) (g a) s) :
    Follows (Access.pointee o >>= f) (Attempt.give o >>= g) s := by
  cases o with
  | none =>
    intro r hr
    cases hr
  | some a => exact h a rfl

theorem Follows.ite {p : Prop} [Decidable p] {m m' : Access σ α} {n n' : Attempt σ α} (hm : p → Follows m n s)
    (hm' : ¬ p → Follows m' n' s) : Follows (if p then m else m') (if p then n else n') s := by
  by_cases h : p
  · rw [if_pos h, if_pos h]
    exact hm h
  · rw [if_neg h, if_neg h]
    exact hm' h

theorem Follows.returns {m : Access σ α} {n : Attempt σ α} (h : Follows m n s) {s' : σ} {a : α}
    (hm : m s = .ok (some a, s')) : Returns n s a s' := h _ hm

end Access
