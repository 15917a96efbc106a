import Mathlib.Algebra.Order.Field.Rat
import Mathlib.Data.List.GetD
import Mathlib.Data.Rat.Floor
import Mathlib.Tactic.Linarith
import Mathlib.Tactic.NormNum
import AetherHF.Base.Stride

/-! The interleaver's stride: of the numbers with no factor in common with the coded bits, one nearest to their
golden section. -/
namespace AetherHF.Phy.Coding

open Stride

def phi : ℚ := 1618033988749895 / 10 ^ 15

/-- The number nearest to the golden section, one at least. -/
def idealStride (e : Nat) : Nat := max (e / phi + 1 / 2).floor.toNat 1

/-- The places as far from the ideal: below it, round the machine word, and above. -/
def candidates (e delta : Nat) : List Nat := [(idealStride e + 2 ^ 64 - delta) % 2 ^ 64, idealStride e + delta]

/-- The stride nearest to the ideal that is coprime with `e`, searching outward. -/
def coprimeStride (e : Nat) : Nat :=
  if e ≤ 1 then 1
  else ((List.range e).findSome? fun delta =>
    (candidates e delta).find? fun candidate => 1 ≤ candidate ∧ candidate < e ∧ Nat.gcd candidate e = 1).getD 1

/-- The ideal is within the bits. -/
theorem idealStride_le {e : Nat} (some_ : 1 ≤ e) : idealStride e ≤ e := by
  refine max_le ?_ some_
  rw [Int.toNat_le]
  have large : (1 : ℚ) ≤ phi := by norm_num [phi]
  have less : (e : ℚ) / phi ≤ e := div_le_self (Nat.cast_nonneg e) large
  have floor : (((e : ℚ) / phi + 1 / 2).floor : ℚ) ≤ (e : ℚ) / phi + 1 / 2 := Int.floor_le _
  have below : (((e : ℚ) / phi + 1 / 2).floor : ℚ) < (e : ℚ) + 1 := by linarith
  have cast : ((e : ℤ) : ℚ) = (e : ℚ) := Int.cast_natCast e
  rw [← cast] at below
  exact Int.lt_add_one_iff.mp (by exact_mod_cast below)

/-- A stride with no factor in common with the bits, and so far from the ideal. -/
def Strides (e delta p : Nat) : Prop :=
  1 ≤ p ∧ p < e ∧ Nat.gcd p e = 1 ∧ (p + delta = idealStride e ∨ p = idealStride e + delta)

/-- So far from the ideal are the candidates within the bits: what wraps round the word is not among them. -/
theorem strides_iff {e delta p : Nat} (word : e ≤ 2 ^ 63) (inside : delta < e) :
    Strides e delta p ↔ p ∈ candidates e delta ∧ 1 ≤ p ∧ p < e ∧ Nat.gcd p e = 1 := by
  have most := idealStride_le (e := e) (by omega)
  unfold Strides candidates
  rw [List.mem_cons, List.mem_singleton]
  rcases Nat.lt_or_ge (idealStride e) delta with past | within
  · have wrapped : (idealStride e + 2 ^ 64 - delta) % 2 ^ 64 = idealStride e + 2 ^ 64 - delta := Nat.mod_eq_of_lt (by omega)
    rw [wrapped]
    omega
  · have back : (idealStride e + 2 ^ 64 - delta) % 2 ^ 64 = idealStride e - delta := by
      rw [Nat.add_comm, Nat.add_sub_assoc within, Nat.add_mod_left, Nat.mod_eq_of_lt (by omega)]
    rw [back]
    omega

/-- The search ends, at the first distance there is a stride at. -/
theorem coprimeStride_strides {e : Nat} (more : 2 ≤ e) (word : e ≤ 2 ^ 63) :
    ∃ delta < e, Strides e delta (coprimeStride e) ∧ ∀ nearer < delta, ∀ p, ¬Strides e nearer p := by
  have found {delta p : Nat} (inside : delta < e) :
      (candidates e delta).find? (fun candidate => 1 ≤ candidate ∧ candidate < e ∧ Nat.gcd candidate e = 1) = some p →
        Strides e delta p := by
    intro is
    have matched := List.find?_some is
    exact (strides_iff word inside).mpr ⟨List.mem_of_find?_eq_some is, of_decide_eq_true matched⟩
  have none_ {delta : Nat} (inside : delta < e) :
      (candidates e delta).find? (fun candidate => 1 ≤ candidate ∧ candidate < e ∧ Nat.gcd candidate e = 1) = none →
        ∀ p, ¬Strides e delta p := by
    intro is p strides
    obtain ⟨member, holds⟩ := (strides_iff word inside).mp strides
    exact of_decide_eq_false (Bool.not_eq_true _ ▸ List.find?_eq_none.mp is p member) holds
  rw [coprimeStride, if_neg (by omega)]
  cases run : (List.range e).findSome? fun delta =>
      (candidates e delta).find? fun candidate => 1 ≤ candidate ∧ candidate < e ∧ Nat.gcd candidate e = 1 with
  | none =>
    -- one is a stride, as far from the ideal as it is
    have most := idealStride_le (e := e) (by omega)
    have least : 1 ≤ idealStride e := le_max_right ..
    have inside : idealStride e - 1 < e := by omega
    refine absurd ⟨le_rfl, by omega, Nat.gcd_one_left e, .inl (by omega)⟩ (none_ inside ?_ 1)
    exact List.findSome?_eq_none_iff.mp run _ (List.mem_range.mpr inside)
  | some p =>
    obtain ⟨front, delta, back, split, is, before⟩ := List.findSome?_eq_some_iff.mp run
    have place : delta = front.length := by
      have here := congrArg (·[front.length]?) split
      simp only [List.getElem?_append_right (Nat.le_refl _), Nat.sub_self, List.getElem?_cons_zero] at here
      obtain ⟨short, is⟩ := List.getElem?_eq_some_iff.mp here
      rw [← is, List.getElem_range]
    have inside : delta < e := by
      refine List.mem_range.mp (split ▸ List.mem_append_right _ List.mem_cons_self)
    refine ⟨delta, inside, found inside is, fun nearer less p => ?_⟩
    refine none_ (less.trans inside) (before nearer ?_) p
    have at_ : (List.range e)[nearer]? = some nearer := List.getElem?_range (less.trans inside)
    rw [split, List.getElem?_append_left (place ▸ less)] at at_
    exact List.mem_of_getElem? at_

theorem coprimeStride_coprime {e : Nat} (word : e ≤ 2 ^ 63) : Nat.Coprime e (coprimeStride e) := by
  by_cases more : 2 ≤ e
  · obtain ⟨delta, -, ⟨-, -, coprime, -⟩, -⟩ := coprimeStride_strides more word
    exact Nat.coprime_comm.mp coprime
  · have one_ : coprimeStride e = 1 := if_pos (by omega)
    rw [one_]
    exact Nat.coprime_one_right e

end AetherHF.Phy.Coding
