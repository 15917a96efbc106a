import Mathlib.Data.List.DropRight

/-! A memory of the last few of a sequence. -/
namespace AetherHF.Recent

variable {α : Type}

/-- One more remembered, and the oldest forgotten where there are then more than `n`. -/
def remember (n : Nat) (memory : List α) (x : α) : List α :=
  let memory := memory ++ [x]
  if n < memory.length then memory.tail else memory

/-- Two places of one value are more than `n` apart. -/
def Apart (n : Nat) (xs : List α) : Prop :=
  ∀ i j x, i < j → xs[i]? = some x → xs[j]? = some x → i + n < j

variable {n : Nat} {xs : List α}

/-- What is remembered is the last `n`. -/
theorem remember_rtake (x : α) : remember n (xs.rtake n) x = (xs ++ [x]).rtake n := by
  have tail : xs.rtake n ++ [x] = (xs ++ [x]).drop (xs.length - n) := by
    rw [List.rtake, List.drop_append_of_le_length (Nat.sub_le ..)]
  simp only [remember, tail]
  by_cases full : n ≤ xs.length
  · rw [if_pos (by simp; omega), List.tail_drop, List.rtake, List.length_append, List.length_singleton]
    congr 1
    omega
  · rw [if_neg (by simp; omega), List.rtake, List.length_append, List.length_singleton]
    congr 1
    omega

theorem apart_nil : Apart n ([] : List α) := by
  intro i j x _ here
  simp at here

/-- A value that is not remembered keeps the places apart. -/
theorem Apart.concat (apart : Apart n xs) {x : α} (new : x ∉ xs.rtake n) : Apart n (xs ++ [x]) := by
  intro i j y before here there
  by_cases earlier : j < xs.length
  · rw [List.getElem?_append_left earlier] at there
    rw [List.getElem?_append_left (by omega)] at here
    exact apart i j y before here there
  · rw [List.getElem?_append_right (by omega)] at there
    obtain ⟨last, is⟩ : j = xs.length ∧ x = y := by
      rw [List.getElem?_singleton] at there
      split at there
      · exact ⟨by omega, Option.some.inj there⟩
      · cases there
    subst is
    rw [List.getElem?_append_left (by omega)] at here
    by_contra near
    refine new (List.mem_of_getElem? (i := i - (xs.length - n)) ?_)
    rw [List.rtake, List.getElem?_drop, ← here]
    congr 1
    omega

end AetherHF.Recent
