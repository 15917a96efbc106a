import Mathlib.Order.Preorder.Finite

/-! The front of a finite family measured in an order, when each is compared with every other and what
another so much as matches is left out: two that stand at one point leave each other out. -/
namespace AetherHF.Pareto

variable {ι P : Type*} [PartialOrder P] {s : Finset ι} {f : ι → P} {a : ι}

/-- In the family, and matched by no other of it. -/
def Alone (s : Finset ι) (f : ι → P) (a : ι) : Prop := a ∈ s ∧ ∀ o ∈ s, f a ≤ f o → o = a

/-- No two at one point that nothing is past. -/
def Apart (s : Finset ι) (f : ι → P) : Prop :=
  ∀ a b, MaximalFor (· ∈ s) f a → MaximalFor (· ∈ s) f b → f a = f b → a = b

theorem Alone.maximal (alone : Alone s f a) : MaximalFor (· ∈ s) f a :=
  ⟨alone.1, fun o member le => (congrArg f (alone.2 o member le)).le⟩

/-- Nothing of the family is past a maximal one. -/
theorem maximalFor_iff : MaximalFor (· ∈ s) f a ↔ a ∈ s ∧ ∀ o ∈ s, ¬f a < f o := by
  refine and_congr_right fun _ => forall₂_congr fun o _ => ?_
  rw [lt_iff_le_not_ge, not_and_not_right]

/-- Climbing from any of a finite family ends. -/
theorem exists_maximal (member : a ∈ s) : ∃ m, MaximalFor (· ∈ s) f m ∧ f a ≤ f m := by
  classical
  obtain ⟨m, ⟨among, last⟩⟩ := (s.filter (f a ≤ f ·)).exists_maximalFor f ⟨a, by simp [member]⟩
  obtain ⟨inside, above⟩ := Finset.mem_filter.mp among
  refine ⟨m, ⟨inside, fun o other le => last ?_ le⟩, above⟩
  exact Finset.mem_filter.mpr ⟨other, above.trans le⟩

/-- What stands alone covers the family just where no two of its maximal ones stand at one point. -/
theorem covers_iff : (∀ a ∈ s, ∃ m, Alone s f m ∧ f a ≤ f m) ↔ Apart s f := by
  constructor
  · intro covers a b first second same
    obtain ⟨m, alone, above⟩ := covers a first.1
    have at_ : f m ≤ f a := first.2 alone.1 above
    rw [alone.2 a first.1 at_, alone.2 b second.1 (at_.trans same.le)]
  · intro apart a member
    obtain ⟨m, maximal, above⟩ := exists_maximal (f := f) member
    refine ⟨m, ⟨maximal.1, fun o other le => ?_⟩, above⟩
    have same : f m = f o := le.antisymm (maximal.2 other le)
    exact (apart m o maximal ⟨other, fun x member' past => same ▸ maximal.2 member' (le.trans past)⟩ same).symm

end AetherHF.Pareto
