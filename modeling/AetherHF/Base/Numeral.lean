import Mathlib.Data.List.Induction
import Mathlib.Tactic.Ring

/-! Numbers written in a base with a fixed count of digits, the most significant first. -/
namespace AetherHF.Numeral

variable {b : ℕ}

/-- The number the digits write. -/
def value (b : ℕ) (digits : List ℕ) : ℕ := digits.foldl (fun v d => v * b + d) 0

/-- The last `n` digits of a number. -/
def digits (b n v : ℕ) : List ℕ := (List.range n).map fun i => v / b ^ (n - 1 - i) % b

@[simp] theorem value_nil : value b [] = 0 := rfl

@[simp] theorem value_concat (ds : List ℕ) (d : ℕ) : value b (ds ++ [d]) = value b ds * b + d := by
  simp [value]

@[simp] theorem digits_zero (v : ℕ) : digits b 0 v = [] := rfl

@[simp] theorem length_digits (n v : ℕ) : (digits b n v).length = n := by simp [digits]

theorem digits_succ (n v : ℕ) : digits b (n + 1) v = digits b n (v / b) ++ [v % b] := by
  unfold digits
  rw [List.range_succ, List.map_append]
  congr 1
  · refine List.map_congr_left fun i below => ?_
    have below := List.mem_range.mp below
    have place : n + 1 - 1 - i = n - 1 - i + 1 := by omega
    rw [place, Nat.pow_succ', ← Nat.div_div_eq_div_mul]
  · simp

theorem value_lt {ds : List ℕ} (small : ∀ d ∈ ds, d < b) : value b ds < b ^ ds.length := by
  induction ds using List.reverseRecOn with
  | nil => simp
  | append_singleton ds d ih =>
    have first := ih fun x member => small x (List.mem_append_left _ member)
    have last := small d (by simp)
    have carry : (value b ds + 1) * b ≤ b ^ ds.length * b := Nat.mul_le_mul_right b first
    rw [value_concat, List.length_append, List.length_singleton, Nat.pow_succ]
    calc value b ds * b + d < value b ds * b + b := Nat.add_lt_add_left last _
      _ = (value b ds + 1) * b := by ring
      _ ≤ b ^ ds.length * b := carry

/-- Digits below the base are those of their number. -/
theorem digits_value {ds : List ℕ} (small : ∀ d ∈ ds, d < b) : digits b ds.length (value b ds) = ds := by
  induction ds using List.reverseRecOn with
  | nil => rfl
  | append_singleton ds d ih =>
    have first := ih fun x member => small x (List.mem_append_left _ member)
    have last := small d (by simp)
    have whole : (value b ds * b + d) / b = value b ds := by
      rw [Nat.add_comm, Nat.add_mul_div_right _ _ (Nat.zero_lt_of_lt last), Nat.div_eq_of_lt last, Nat.zero_add]
    have rest : (value b ds * b + d) % b = d := by
      rw [Nat.add_comm, Nat.add_mul_mod_self_right, Nat.mod_eq_of_lt last]
    rw [List.length_append, List.length_singleton, digits_succ, value_concat, whole, rest, first]

/-- A number with no more digits than asked for is the one they write. -/
theorem value_digits {n v : ℕ} (fits : v < b ^ n) : value b (digits b n v) = v := by
  induction n generalizing v with
  | zero =>
    have none_ : v = 0 := by simpa using fits
    rw [none_]
    rfl
  | succ n ih =>
    have base : 0 < b := by
      rcases Nat.eq_zero_or_pos b with rfl | pos
      · simp at fits
      · exact pos
    have high : v / b < b ^ n := (Nat.div_lt_iff_lt_mul base).mpr (by rwa [← Nat.pow_succ])
    rw [digits_succ, value_concat, ih high, Nat.mul_comm, Nat.div_add_mod]

theorem digits_lt (base : 0 < b) {n v d : ℕ} (member : d ∈ digits b n v) : d < b := by
  obtain ⟨i, _, rfl⟩ := List.mem_map.mp member
  exact Nat.mod_lt _ base

end AetherHF.Numeral
