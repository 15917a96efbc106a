import Mathlib.Algebra.BigOperators.Group.Finset.Basic
import Mathlib.Algebra.Module.Basic
import Mathlib.Data.List.GetD

/-! Streams filtered by a list of taps over a zero past, and every so many of their samples
kept. -/
namespace AetherHF.Filtering

section
variable {T : Type*}

/-- The first samples of a stream given by its places. -/
def firstOf (n : ℕ) (x : ℕ → T) : List T := (List.range n).map x

@[simp] theorem length_firstOf (n : ℕ) (x : ℕ → T) : (firstOf n x).length = n := by simp [firstOf]

theorem firstOf_add (m n : ℕ) (x : ℕ → T) : firstOf (m + n) x = firstOf m x ++ firstOf n fun i => x (m + i) := by
  rw [firstOf, List.range_add, List.map_append, List.map_map]
  rfl

theorem firstOf_succ (n : ℕ) (x : ℕ → T) : firstOf (n + 1) x = x 0 :: firstOf n fun i => x (i + 1) := by
  rw [firstOf, List.range_succ_eq_map, List.map_cons, List.map_map]
  rfl

theorem mapIdx_firstOf {S : Type*} (f : ℕ → T → S) (n : ℕ) (x : ℕ → T) :
    (firstOf n x).mapIdx f = firstOf n fun i => f i (x i) := by
  refine List.ext_getElem (by simp) fun i inside inside' => ?_
  simp [firstOf]

theorem firstOf_congr {n : ℕ} {x y : ℕ → T} (same : ∀ i < n, x i = y i) : firstOf n x = firstOf n y :=
  List.map_congr_left fun i inside => same i (List.mem_range.mp inside)

end

section
variable {T : Type*} [Zero T]

/-- A stream's samples, zero past its end. -/
def sample (xs : List T) (n : ℕ) : T := xs.getD n 0

@[simp] theorem sample_nil (n : ℕ) : sample ([] : List T) n = 0 := rfl

theorem sample_append (xs ys : List T) (n : ℕ) :
    sample (xs ++ ys) n = if n < xs.length then sample xs n else sample ys (n - xs.length) := by
  unfold sample
  split
  · exact List.getD_append _ _ _ _ (by assumption)
  · exact List.getD_append_right _ _ _ _ (by omega)

theorem sample_ended {xs : List T} {n : ℕ} (past : xs.length ≤ n) : sample xs n = 0 :=
  List.getD_eq_default _ _ past

@[simp] theorem sample_replicate (m n : ℕ) : sample (List.replicate m (0 : T)) n = 0 := by
  by_cases inside : n < m
  · exact List.getD_replicate _ inside
  · exact sample_ended (by simpa using inside)

theorem sample_append_zeros (xs : List T) (m : ℕ) : sample (xs ++ List.replicate m 0) = sample xs := by
  funext n
  rw [sample_append]
  split
  · rfl
  · rw [sample_replicate, sample_ended (by omega)]

theorem sample_firstOf (n : ℕ) (x : ℕ → T) (i : ℕ) : sample (firstOf n x) i = if i < n then x i else 0 := by
  split
  · rename_i inside
    rw [sample, List.getD_eq_getElem _ _ (by simpa using inside)]
    simp [firstOf]
  · exact sample_ended (by rw [length_firstOf]; omega)

theorem firstOf_sample (xs : List T) : firstOf xs.length (sample xs) = xs := by
  refine List.ext_getElem (length_firstOf ..) fun i inside inside' => ?_
  simp [firstOf, sample, List.getElem?_eq_getElem inside']

end

section
variable {K T : Type*} [Semiring K] [AddCommMonoid T] [Module K T]

/-- What a filter of these taps gives at a place. -/
def convolve (taps : List K) (x : ℕ → T) (n : ℕ) : T :=
  ∑ k ∈ Finset.range taps.length, if k ≤ n then taps.getD k 0 • x (n - k) else 0

/-- A filter reads no sample past its place. -/
theorem convolve_congr {x y : ℕ → T} {n : ℕ} (same : ∀ i ≤ n, x i = y i) (taps : List K) :
    convolve taps x n = convolve taps y n := by
  refine Finset.sum_congr rfl fun k _ => ?_
  rw [same (n - k) (Nat.sub_le ..)]

/-- A filter is done with a stream that has ended by its own length. -/
theorem convolve_ended {x : ℕ → T} {m : ℕ} (ended : ∀ i, m ≤ i → x i = 0) (taps : List K) {n : ℕ}
    (past : m + taps.length ≤ n + 1) : convolve taps x n = 0 := by
  refine Finset.sum_eq_zero fun k inside => ?_
  have inside := Finset.mem_range.mp inside
  rw [ended (n - k) (by omega), smul_zero, ite_self]

/-- A stream and the filtered stream, as long. -/
def filtered (taps : List K) (xs : List T) : List T := firstOf xs.length (convolve taps (sample xs))

@[simp] theorem length_filtered (taps : List K) (xs : List T) : (filtered taps xs).length = xs.length := length_firstOf ..

theorem filtered_firstOf (taps : List K) (n : ℕ) (x : ℕ → T) : filtered taps (firstOf n x) = firstOf n (convolve taps x) := by
  rw [filtered, length_firstOf]
  refine firstOf_congr fun m inside => convolve_congr (fun i before => ?_) taps
  rw [sample_firstOf, if_pos (by omega)]

/-- What more of a stream adds, filtered. -/
theorem filtered_append (taps : List K) (xs ys : List T) : filtered taps (xs ++ ys) =
    filtered taps xs ++ firstOf ys.length fun n => convolve taps (sample (xs ++ ys)) (xs.length + n) := by
  rw [filtered, List.length_append, firstOf_add]
  congr 1
  refine firstOf_congr fun n inside => convolve_congr (fun i before => ?_) taps
  rw [sample_append, if_pos (by omega)]

end

/-! ### One sample of every so many -/

/-- How many of `n` samples are the first of every `r`: the quotient, rounded up. -/
def divCeil (n r : ℕ) : ℕ := (n + (r - 1)) / r

section
variable {r : ℕ} (positive : 0 < r)
include positive

theorem lt_divCeil {m n : ℕ} : m < divCeil n r ↔ m * r < n := by
  rw [divCeil, ← Nat.succ_le_iff, Nat.le_div_iff_mul_le positive, Nat.succ_mul]
  omega

theorem divCeil_le {m n : ℕ} : divCeil n r ≤ m ↔ n ≤ m * r := by
  rw [← Nat.not_lt, lt_divCeil positive, Nat.not_lt]

theorem divCeil_mul_add (m n : ℕ) : divCeil (m * r + n) r = m + divCeil n r := by
  have rearranged : m * r + n + (r - 1) = n + (r - 1) + m * r := by omega
  rw [divCeil, rearranged, Nat.add_mul_div_right _ _ positive, Nat.add_comm]
  rfl

theorem divCeil_succ {n : ℕ} (some_ : 0 < n) : divCeil n r = divCeil (n - r) r + 1 := by
  refine le_antisymm ((divCeil_le positive).mpr ?_) (Nat.succ_le_iff.mpr ((lt_divCeil positive).mpr ?_))
  · have fits := (divCeil_le positive).mp (le_refl (divCeil (n - r) r))
    rw [Nat.succ_mul]
    omega
  · by_contra short
    have last : ∀ m, m + 1 = divCeil (n - r) r → False := fun m is => by
      have := (lt_divCeil positive (m := m) (n := n - r)).mp (by omega)
      rw [← is, Nat.succ_mul] at short
      omega
    cases count : divCeil (n - r) r with
    | zero => rw [count] at short; omega
    | succ m => exact last m count.symm

theorem divCeil_mul (m : ℕ) : divCeil (m * r) r = m := by
  have none_ : divCeil 0 r = 0 := Nat.le_zero.mp ((divCeil_le positive).mpr (Nat.zero_le _))
  rw [← Nat.add_zero (m * r), divCeil_mul_add positive, none_, Nat.add_zero]

end

end AetherHF.Filtering
