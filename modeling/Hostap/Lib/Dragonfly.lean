import Mathlib.Algebra.Field.ZMod
import Mathlib.Algebra.Group.Basic
import Mathlib.Algebra.Module.NatInt
import Mathlib.Algebra.Module.ZMod
import Mathlib.Algebra.Polynomial.Roots
import Mathlib.GroupTheory.OrderOfElement
import Mathlib.GroupTheory.SpecificGroups.Cyclic
import Mathlib.Tactic.ComputeDegree
import Mathlib.Tactic.LinearCombination

/-!
# The masked exchange of a password element

Two parties that share an element `g` of an abelian group commit to each other and end up with
a common element. A party draws `rand` and `mask`, sends the scalar `(rand + mask) % r` and the
element `-(mask • g)`, and raises what it receives to its own `rand`. Everything here is over an
arbitrary abelian group in which `r • g = 0`; nothing is said about which group it is.

* `shared_comm`: both parties compute the same element;
* `element_ne_zero`: in a group element of prime order a commit never sends the identity;
* `ncard_fitting_le`: for what is sent and the common element there are at most two shared elements `g`.
-/

namespace Dragonfly

variable {G : Type*} [AddCommGroup G]

/-- The scalar a party commits to. -/
def scalar (r rand mask : ℕ) : ℕ := (rand + mask) % r

/-- The element a party commits to. -/
def element (g : G) (mask : ℕ) : G := -(mask • g)

/-- The element a party computes from the other one's commit. -/
def shared (g : G) (rand peerScalar : ℕ) (peerElement : G) : G :=
  rand • (peerScalar • g + peerElement)

theorem mod_nsmul_eq {g : G} {r : ℕ} (hr : r • g = 0) (n : ℕ) : (n % r) • g = n • g := by
  conv_rhs => rw [← Nat.mod_add_div n r]
  rw [add_nsmul, mul_comm, mul_nsmul', hr, nsmul_zero, add_zero]

/-- The mask cancels: what is raised to `rand` is the other party's `rand • g`. -/
theorem scalar_nsmul_add_element {g : G} {r : ℕ} (hr : r • g = 0) (rand mask : ℕ) :
    scalar r rand mask • g + element g mask = rand • g := by
  rw [scalar, element, mod_nsmul_eq hr, add_nsmul]
  exact add_neg_cancel_right _ _

/-- **Agreement.** Each party's commit gives the other one the same element. -/
theorem shared_comm {g : G} {r : ℕ} (hr : r • g = 0) (randA maskA randB maskB : ℕ) :
    shared g randA (scalar r randB maskB) (element g maskB) =
      shared g randB (scalar r randA maskA) (element g maskA) := by
  unfold shared
  rw [scalar_nsmul_add_element hr, scalar_nsmul_add_element hr, ← mul_nsmul', ← mul_nsmul',
    mul_comm]

/-- A mask below a prime order does not take the group element to the identity. -/
theorem element_ne_zero {g : G} {r mask : ℕ} (hr : r • g = 0) (hp : r.Prime) (hg : g ≠ 0)
    (hpos : 0 < mask) (hlt : mask < r) : element g mask ≠ 0 := by
  intro h
  have hmask : mask • g = 0 := neg_eq_zero.1 h
  have hord : addOrderOf g = r := by
    have : Fact r.Prime := ⟨hp⟩
    exact addOrderOf_eq_prime hr hg
  have hdvd : r ∣ mask := by
    rw [← hord]
    exact addOrderOf_dvd_of_nsmul_eq_zero hmask
  exact absurd (Nat.le_of_dvd hpos hdvd) (by omega)

/-! ## Guesses -/

section Guesses

open Polynomial

/-- The elements from which a commit and the shared element can have come. -/
def fitting (r ownScalar : ℕ) (ownElement : G) (peerScalar : ℕ) (peerElement k : G) : Set G :=
  {g | ∃ rand mask, scalar r rand mask = ownScalar ∧ element g mask = ownElement ∧
    shared g rand peerScalar peerElement = k}

/-- With every element written as a multiple of the peer's, what fits solves a quadratic equation. Its
constant coefficient is the own element. -/
noncomputable def fittingPoly {r : ℕ} (σ s e κ : ZMod r) : (ZMod r)[X] :=
  C (σ * s) * X ^ 2 + C (σ + e * s - κ) * X + C e

theorem fittingPoly_ne_zero {r : ℕ} {σ s e κ : ZMod r} (he : e ≠ 0) : fittingPoly σ s e κ ≠ 0 := by
  intro h
  have hcoeff : (fittingPoly σ s e κ).coeff 0 = e := by simp [fittingPoly]
  rw [h, coeff_zero] at hcoeff
  exact he hcoeff.symm

section Module

variable {r : ℕ} [Fact r.Prime] [Module (ZMod r) G]

theorem isRoot_of_mem_fitting {ownScalar peerScalar : ℕ} {peerElement : G} (hpeer : peerElement ≠ 0)
    {x e κ : ZMod r}
    (h : x • peerElement ∈
      fitting r ownScalar (e • peerElement) peerScalar peerElement (κ • peerElement)) :
    (fittingPoly (ownScalar : ZMod r) peerScalar e κ).IsRoot x := by
  obtain ⟨rand, mask, hs, hel, hsh⟩ := h
  have hinj := smul_left_injective (ZMod r) hpeer
  have hscalar : (ownScalar : ZMod r) = rand + mask := by
    rw [← hs, scalar, ZMod.natCast_mod, Nat.cast_add]
  have hmask : (mask : ZMod r) * x = -e := by
    apply hinj
    show ((mask : ZMod r) * x) • peerElement = (-e) • peerElement
    rw [mul_smul, neg_smul, ← hel, element, neg_neg, Nat.cast_smul_eq_nsmul]
  have hshared : (rand : ZMod r) * (peerScalar * x + 1) = κ := by
    apply hinj
    show ((rand : ZMod r) * (peerScalar * x + 1)) • peerElement = κ • peerElement
    rw [mul_smul, add_smul, mul_smul, one_smul, ← hsh, shared, Nat.cast_smul_eq_nsmul,
      Nat.cast_smul_eq_nsmul]
  rw [IsRoot.def]
  simp only [fittingPoly, eval_add, eval_mul, eval_C, eval_pow, eval_X]
  linear_combination (peerScalar * x + 1) * hmask + x * hshared + (peerScalar * x ^ 2 + x) * hscalar

end Module

/-- **A guess at a time.** In a group of prime order at most two elements fit a commit, the one of the
peer and the shared element. -/
theorem ncard_fitting_le {r : ℕ} (hcard : Nat.card G = r) (hp : r.Prime) (ownScalar peerScalar : ℕ)
    {ownElement peerElement : G} (hown : ownElement ≠ 0) (hpeer : peerElement ≠ 0) (k : G) :
    (fitting r ownScalar ownElement peerScalar peerElement k).ncard ≤ 2 := by
  have : Fact r.Prime := ⟨hp⟩
  let _ : Module (ZMod r) G := AddCommGroup.zmodModule fun g => by
    rw [← hcard]
    exact card_nsmul_eq_zero'
  -- the peer's element generates the group
  have hgen : ∀ g : G, ∃ x : ZMod r, x • peerElement = g := by
    intro g
    have hmem : g ∈ AddSubgroup.zmultiples peerElement := mem_zmultiples_of_prime_card hcard hpeer
    obtain ⟨n, hn⟩ := AddSubgroup.mem_zmultiples_iff.1 hmem
    exact ⟨n, by rw [Int.cast_smul_eq_zsmul, hn]⟩
  obtain ⟨e, rfl⟩ := hgen ownElement
  obtain ⟨κ, rfl⟩ := hgen k
  have he : e ≠ 0 := by
    rintro rfl
    exact hown (zero_smul _ _)
  let p := fittingPoly (ownScalar : ZMod r) peerScalar e κ
  have hsub : fitting r ownScalar (e • peerElement) peerScalar peerElement (κ • peerElement) ⊆
      (fun x : ZMod r => x • peerElement) '' (p.roots.toFinset : Set (ZMod r)) := by
    intro g hg
    obtain ⟨x, rfl⟩ := hgen g
    refine ⟨x, ?_, rfl⟩
    rw [Finset.mem_coe, Multiset.mem_toFinset, mem_roots (fittingPoly_ne_zero he)]
    exact isRoot_of_mem_fitting hpeer hg
  calc (fitting r ownScalar (e • peerElement) peerScalar peerElement (κ • peerElement)).ncard
      ≤ ((fun x : ZMod r => x • peerElement) '' (p.roots.toFinset : Set (ZMod r))).ncard :=
        Set.ncard_le_ncard hsub (Set.Finite.image _ (Finset.finite_toSet _))
    _ ≤ (p.roots.toFinset : Set (ZMod r)).ncard := Set.ncard_image_le (Finset.finite_toSet _)
    _ = p.roots.toFinset.card := Set.ncard_coe_finset _
    _ ≤ p.natDegree := (Multiset.toFinset_card_le _).trans (card_roots' p)
    _ ≤ 2 := by
      unfold p fittingPoly
      compute_degree

end Guesses

end Dragonfly
