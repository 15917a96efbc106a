import Mathlib.Algebra.Field.ZMod
import Mathlib.Algebra.Polynomial.Div
import Mathlib.Algebra.Polynomial.RingDivision
import Mathlib.Data.Nat.Bitwise
import Mathlib.RingTheory.Coprime.Lemmas
import Mathlib.Tactic.LinearCombination

/-! Polynomials by their coefficients, the highest first, and division by a monic one taken
coefficient after coefficient; over two elements, a number's bits as the coefficients. -/
namespace AetherHF.Remainder

open Polynomial

section
variable {R : Type*} [CommRing R]

/-- The polynomial of a list of coefficients, the highest first. -/
noncomputable def ofCoeffs (cs : List R) : R[X] := cs.foldl (fun p c => p * X + C c) 0

@[simp] theorem ofCoeffs_nil : ofCoeffs ([] : List R) = 0 := rfl

@[simp] theorem ofCoeffs_concat (cs : List R) (c : R) : ofCoeffs (cs ++ [c]) = ofCoeffs cs * X + C c := by
  simp [ofCoeffs]

theorem ofCoeffs_append (cs ds : List R) : ofCoeffs (cs ++ ds) = ofCoeffs cs * X ^ ds.length + ofCoeffs ds := by
  induction ds using List.reverseRecOn with
  | nil => simp
  | append_singleton ds d ih =>
    rw [← List.append_assoc, ofCoeffs_concat, ofCoeffs_concat, ih, List.length_append, List.length_singleton, pow_succ]
    ring

@[simp] theorem ofCoeffs_zeros (n : ℕ) : ofCoeffs (List.replicate n (0 : R)) = 0 := by
  induction n with
  | zero => rfl
  | succ n ih => rw [List.replicate_succ', ofCoeffs_concat, ih, C_0, zero_mul, add_zero]

theorem degree_ofCoeffs_lt (cs : List R) : (ofCoeffs cs).degree < cs.length := by
  induction cs using List.reverseRecOn with
  | nil => simp
  | append_singleton cs c ih =>
    rw [ofCoeffs_concat, List.length_append, List.length_singleton]
    refine (degree_lt_iff_coeff_zero _ _).mpr fun i beyond => ?_
    obtain ⟨i, rfl⟩ : ∃ j, i = j + 1 := ⟨i - 1, by omega⟩
    rw [coeff_add, coeff_mul_X, coeff_C_succ, add_zero]
    exact (degree_lt_iff_coeff_zero _ _).mp ih i (by omega)

theorem ofCoeffs_zipWith {cs ds : List R} (same : cs.length = ds.length) :
    ofCoeffs (List.zipWith (· + ·) cs ds) = ofCoeffs cs + ofCoeffs ds := by
  induction cs using List.reverseRecOn generalizing ds with
  | nil => simp [List.length_eq_zero_iff.mp same.symm]
  | append_singleton cs c ih =>
    obtain ⟨ds, d, rfl⟩ : ∃ front d, ds = front ++ [d] :=
      (List.eq_nil_or_concat' ds).resolve_left (by rintro rfl; simp at same)
    have fronts : cs.length = ds.length := by simpa using same
    rw [List.zipWith_append fronts, List.zipWith_cons_cons, List.zipWith_nil_left, ofCoeffs_concat, ofCoeffs_concat,
      ofCoeffs_concat, ih fronts, C_add]
    ring

/-- As many coefficients of the same polynomial are the same. -/
theorem ofCoeffs_injective {cs ds : List R} (same : cs.length = ds.length) (eq : ofCoeffs cs = ofCoeffs ds) : cs = ds := by
  induction cs using List.reverseRecOn generalizing ds with
  | nil => exact (List.length_eq_zero_iff.mp same.symm).symm
  | append_singleton cs c ih =>
    obtain ⟨ds, d, rfl⟩ : ∃ front d, ds = front ++ [d] :=
      (List.eq_nil_or_concat' ds).resolve_left (by rintro rfl; simp at same)
    rw [ofCoeffs_concat, ofCoeffs_concat] at eq
    have last : c = d := by simpa using congrArg (coeff · 0) eq
    have front : ofCoeffs cs = ofCoeffs ds := by
      ext i
      simpa using congrArg (coeff · (i + 1)) eq
    rw [ih (by simpa using same) front, last]

variable {g : R[X]}

/-- A polynomial is divided by taking its coefficients one after another. -/
theorem foldl_modByMonic (monic : g.Monic) (cs : List R) :
    cs.foldl (fun p c => (p * X + C c) %ₘ g) 0 = ofCoeffs cs %ₘ g := by
  induction cs using List.reverseRecOn with
  | nil => simp
  | append_singleton cs c ih =>
    rw [List.foldl_append, List.foldl_cons, List.foldl_nil, ih, ofCoeffs_concat]
    refine modByMonic_eq_of_dvd_sub monic ⟨-(ofCoeffs cs /ₘ g) * X, ?_⟩
    have divided := modByMonic_add_div (ofCoeffs cs) g
    linear_combination X * divided

/-- Coefficients after others are the remainder of those before, shifted by their count, when
the whole is a multiple. -/
theorem dvd_append_iff (monic : g.Monic) (cs : List R) {ds : List R} (width : (ofCoeffs ds).degree < g.degree) :
    g ∣ ofCoeffs (cs ++ ds) ↔ -ofCoeffs ds = (ofCoeffs cs * X ^ ds.length) %ₘ g := by
  have divided := modByMonic_add_div (ofCoeffs cs * X ^ ds.length) g
  rw [ofCoeffs_append]
  constructor
  · rintro ⟨q, whole⟩
    refine (div_modByMonic_unique q (-ofCoeffs ds) monic ⟨?_, by rwa [degree_neg]⟩).2.symm
    linear_combination -whole
  · intro parity
    refine ⟨ofCoeffs cs * X ^ ds.length /ₘ g, ?_⟩
    linear_combination -divided - parity

/-- A multiple of a polynomial with a constant term to divide by is no shorter one shifted. -/
theorem not_dvd_burst [IsDomain R] (unit : IsUnit (g.coeff 0)) {p : R[X]} (short : p.degree < g.degree) (some_ : p ≠ 0) (k : ℕ) :
    ¬ g ∣ p * X ^ k := by
  intro divides
  obtain ⟨u, inverse⟩ := unit
  have apart : IsCoprime g X := by
    refine ⟨C (↑u⁻¹ : R), -(C (↑u⁻¹ : R) * g.divX), ?_⟩
    have split := divX_mul_X_add g
    have one_ : (C (↑u⁻¹ : R) * C (g.coeff 0)) = 1 := by rw [← C_mul, ← inverse, Units.inv_mul, C_1]
    linear_combination -C (↑u⁻¹ : R) * split + one_
  exact some_ (eq_zero_of_dvd_of_degree_lt (apart.pow_right.dvd_of_dvd_mul_right divides) short)

end

/-! ### Bits -/

/-- The polynomial of a number's bits. -/
noncomputable def ofBits (n : ℕ) : (ZMod 2)[X] := ∑ i ∈ Finset.range n, if n.testBit i then X ^ i else 0

theorem coeff_ofBits (n i : ℕ) : (ofBits n).coeff i = if n.testBit i then 1 else 0 := by
  have each (j : ℕ) : (if n.testBit j then (X : (ZMod 2)[X]) ^ j else 0).coeff i =
      if i = j then (if n.testBit j then 1 else 0) else 0 := by
    split <;> simp [coeff_X_pow]
  simp only [ofBits, finsetSum_coeff, each, Finset.sum_ite_eq, Finset.mem_range]
  by_cases set_ : n.testBit i = true
  · have small : i < n := (Nat.lt_two_pow_self).trans_le (Nat.ge_two_pow_of_testBit set_)
    rw [if_pos small]
  · simp [set_]

theorem ofBits_xor (m n : ℕ) : ofBits (m ^^^ n) = ofBits m + ofBits n := by
  ext i
  rw [coeff_add, coeff_ofBits, coeff_ofBits, coeff_ofBits, Nat.testBit_xor]
  cases m.testBit i <;> cases n.testBit i <;> decide

theorem ofBits_bit (b : Bool) (n : ℕ) : ofBits (Nat.bit b n) = ofBits n * X + C (if b then 1 else 0) := by
  ext i
  cases i with
  | zero => cases b <;> simp [coeff_ofBits]
  | succ i => rw [coeff_add, coeff_mul_X, coeff_ofBits, coeff_ofBits, Nat.testBit_bit_succ, coeff_C_succ, add_zero]

theorem degree_ofBits_lt {n w : ℕ} (small : n < 2 ^ w) : (ofBits n).degree < w := by
  refine (degree_lt_iff_coeff_zero _ _).mpr fun i beyond => ?_
  have clear : n.testBit i = false := Nat.testBit_lt_two_pow (small.trans_le (Nat.pow_le_pow_right (by omega) beyond))
  rw [coeff_ofBits, clear, if_neg (by simp)]

theorem ofBits_two_pow (w : ℕ) : ofBits (2 ^ w) = X ^ w := by
  ext i
  rw [coeff_ofBits, coeff_X_pow, Nat.testBit_two_pow]
  simp [eq_comm]

theorem ofCoeffs_testBit {n w : ℕ} (small : n < 2 ^ w) :
    ofCoeffs ((List.range w).map fun i => if n.testBit (w - 1 - i) then (1 : ZMod 2) else 0) = ofBits n := by
  induction w generalizing n with
  | zero =>
    obtain rfl : n = 0 := by simpa using small
    simp [ofBits]
  | succ w ih =>
    have half : n / 2 < 2 ^ w := by omega
    have front : ((List.range w).map fun i => if n.testBit (w + 1 - 1 - i) then (1 : ZMod 2) else 0) =
        (List.range w).map fun i => if (n / 2).testBit (w - 1 - i) then (1 : ZMod 2) else 0 := by
      refine List.map_congr_left fun i below => ?_
      have below := List.mem_range.mp below
      have place : w + 1 - 1 - i = w - 1 - i + 1 := by omega
      rw [place, Nat.testBit_add_one]
    have whole : n = Nat.bit (n.testBit 0) (n / 2) := n.bit_testBit_zero_shiftRight_one.symm
    rw [List.range_succ, List.map_append, front, List.map_singleton, ofCoeffs_concat, ih half]
    conv_rhs => rw [whole, ofBits_bit]
    simp

end AetherHF.Remainder
