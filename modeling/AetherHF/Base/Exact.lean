import Mathlib.Data.Rat.Floor

/-! Seconds, decibels and ratios are exact rationals: the source's `f64` sums,
products and comparisons without their last bit. What the source rounds by
intent (whole frames in a room, ties to even on the wire) is rounded here by the
same rule. -/
namespace AetherHF

/-- The `f64` library functions the rate controller calls. Nothing proved in
this development depends on their values past their range. -/
class Libm where
  exp : ℚ → ℚ
  powf : ℚ → ℚ → ℚ
  log10 : ℚ → ℚ

namespace Coarse

/-- Functions of their kind, for runs on fixed inputs. -/
scoped instance libm : Libm where
  exp x := max 0 (1 + x)
  powf base x := if base = 1 ∨ x = 0 then 1 else base
  log10 x := (x - 1) / (x + 1)

end Coarse

/-- `f64::round_ties_even`. -/
def roundTiesEven (x : ℚ) : ℤ :=
  let low := ⌊x⌋
  let rest := x - low
  if rest < 1 / 2 then low
  else if 1 / 2 < rest then low + 1
  else if low % 2 = 0 then low else low + 1

theorem roundTiesEven_intCast (k : ℤ) : roundTiesEven (k : ℚ) = k := by
  simp [roundTiesEven]

theorem le_roundTiesEven {k : ℤ} {x : ℚ} (atLeast : (k : ℚ) ≤ x) : k ≤ roundTiesEven x := by
  have low : k ≤ ⌊x⌋ := Int.le_floor.mpr atLeast
  unfold roundTiesEven
  dsimp only
  split
  · exact low
  · split
    · omega
    · split
      · exact low
      · omega

theorem roundTiesEven_le {k : ℤ} {x : ℚ} (atMost : x ≤ k) : roundTiesEven x ≤ k := by
  have floor : ⌊x⌋ ≤ k := by
    have := Int.floor_le x
    exact_mod_cast this.trans atMost
  by_cases whole : ⌊x⌋ = k
  · -- then `x` is `k`
    have same : x = k := le_antisymm atMost (whole ▸ Int.floor_le x)
    rw [same, roundTiesEven_intCast]
  · have below : ⌊x⌋ + 1 ≤ k := by omega
    unfold roundTiesEven
    dsimp only
    split
    · exact floor
    · split
      · exact below
      · split
        · exact floor
        · exact below

/-- `f64::clamp` on integers already rounded. -/
def clampInt (low high x : ℤ) : ℤ := max low (min high x)

/-- Whole steps in `x`, a hair over counted as whole: `whole` of the engine. -/
def whole (x : ℚ) : ℕ := ⌊x + 1 / 10 ^ 9⌋.toNat

/-- The engine's comparisons of instants allow this much. -/
def nano : ℚ := 1 / 10 ^ 9

/-- And its comparisons of transmissions' ends this much. -/
def micro : ℚ := 1 / 10 ^ 6

theorem nano_pos : 0 < nano := by norm_num [nano]

theorem micro_pos : 0 < micro := by norm_num [micro]

theorem whole_le {x : ℚ} (positive : 0 < whole x) : (whole x : ℚ) ≤ x + nano := by
  have floor_pos : 0 < ⌊x + 1 / 10 ^ 9⌋ := by
    unfold whole at positive
    omega
  have cast : ((whole x : ℕ) : ℤ) = ⌊x + 1 / 10 ^ 9⌋ := Int.toNat_of_nonneg floor_pos.le
  calc (whole x : ℚ) = ((⌊x + 1 / 10 ^ 9⌋ : ℤ) : ℚ) := by rw [← cast]; simp
    _ ≤ x + 1 / 10 ^ 9 := Int.floor_le _

/-- Whole frames in a room fill it to a billionth of a frame at the most. -/
theorem whole_div_mul_le {room frame : ℚ} (positive : 0 < whole (room / frame))
    (length : 0 < frame) : (whole (room / frame) : ℚ) * frame ≤ room + nano * frame := by
  have bound := mul_le_mul_of_nonneg_right (whole_le positive) length.le
  rwa [add_mul, div_mul_cancel₀ _ length.ne'] at bound

end AetherHF
