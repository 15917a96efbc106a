import Mathlib.Algebra.BigOperators.Group.List.Basic
import Mathlib.Data.List.GetD

/-! Circular buffers: the places visited on the way round one, some of them passed over,
and values added at places. -/
namespace AetherHF.Circular

/-! ### Walks -/

/-- The places of a walk of `t` steps from `k`, round a buffer of `n`. -/
def walk (n k t : ℕ) : List ℕ := (List.range t).map fun i => (k + i) % n

theorem walk_mod (n k t : ℕ) : walk n (k + n) t = walk n k t :=
  List.map_congr_left fun i _ => by rw [Nat.add_right_comm, Nat.add_mod_right]

theorem walk_add (n k t u : ℕ) : walk n k (t + u) = walk n k t ++ walk n (k + t) u := by
  unfold walk
  rw [List.range_add, List.map_append, List.map_map]
  simp only [Function.comp_def, Nat.add_assoc]

/-- Once round: to the end, and from the beginning. -/
theorem walk_round {n k : ℕ} (within : k ≤ n) : walk n k n = List.range' k (n - k) ++ List.range k := by
  have front : walk n k (n - k) = List.range' k (n - k) := by
    unfold walk
    rw [List.range'_eq_map_range]
    refine List.map_congr_left fun i member => Nat.mod_eq_of_lt ?_
    have := List.mem_range.mp member
    omega
  have back : walk n (k + (n - k)) k = List.range k := by
    unfold walk
    conv_rhs => rw [← List.map_id (List.range k)]
    refine List.map_congr_left fun i member => ?_
    have below := List.mem_range.mp member
    rw [show k + (n - k) + i = i + n by omega, Nat.add_mod_right, Nat.mod_eq_of_lt (by omega), id]
  calc walk n k n = walk n k (n - k + k) := by rw [Nat.sub_add_cancel within]
    _ = walk n k (n - k) ++ walk n (k + (n - k)) k := walk_add ..
    _ = List.range' k (n - k) ++ List.range k := by rw [front, back]

/-- Round and round. -/
theorem walk_rounds (n k m : ℕ) : walk n k (m * n) = (List.replicate m (walk n k n)).flatten := by
  induction m generalizing k with
  | zero => simp [walk]
  | succ m ih =>
    have turned : walk n (k + n) n = walk n k n := walk_mod ..
    rw [Nat.succ_mul, Nat.add_comm, walk_add, ih, turned, List.replicate_succ, List.flatten_cons]

theorem mem_walk {n k t i : ℕ} (positive : 0 < n) (member : i ∈ walk n k t) : i < n := by
  obtain ⟨j, _, rfl⟩ := List.mem_map.mp member
  exact Nat.mod_lt _ positive

theorem take_walk {n k t u : ℕ} (within : u ≤ t) : (walk n k t).take u = walk n k u := by
  unfold walk
  rw [← List.map_take, List.take_range, Nat.min_eq_left within]

/-- The first of those kept are those kept of the first. -/
theorem take_filter {α : Type*} (p : α → Bool) (xs : List α) (e : ℕ) :
    ∃ t ≤ xs.length, (xs.filter p).take e = (xs.take t).filter p := by
  induction xs generalizing e with
  | nil => exact ⟨0, Nat.zero_le _, by simp⟩
  | cons x rest ih =>
    cases e with
    | zero => exact ⟨0, Nat.zero_le _, by simp⟩
    | succ e =>
      cases kept : p x with
      | true =>
        obtain ⟨t, within, same⟩ := ih e
        exact ⟨t + 1, Nat.succ_le_succ within, by simp [kept, same]⟩
      | false =>
        obtain ⟨t, within, same⟩ := ih (e + 1)
        exact ⟨t + 1, Nat.succ_le_succ within, by simp [kept, same]⟩

/-! ### Values added at places -/

variable {A : Type*}

/-- The values for a place. -/
def valuesAt (pairs : List (ℕ × A)) (i : ℕ) : List A := (pairs.filter fun pair => pair.1 = i).map Prod.snd

theorem valuesAt_eq_nil {pairs : List (ℕ × A)} {i : ℕ} (none_ : ∀ pair ∈ pairs, pair.1 ≠ i) : valuesAt pairs i = [] := by
  unfold valuesAt
  rw [List.filter_eq_nil_iff.mpr fun pair member => by simpa using none_ pair member, List.map_nil]

theorem mem_valuesAt {pairs : List (ℕ × A)} {i : ℕ} {value : A} : value ∈ valuesAt pairs i ↔ (i, value) ∈ pairs := by
  simp [valuesAt]

/-- Every value added at its place. -/
def scatter [Add A] (buffer : List A) (pairs : List (ℕ × A)) : List A :=
  pairs.foldl (fun buffer pair => buffer.modify pair.1 (· + pair.2)) buffer

variable [AddCommMonoid A]

@[simp] theorem length_scatter (buffer : List A) (pairs : List (ℕ × A)) :
    (scatter buffer pairs).length = buffer.length := by
  induction pairs generalizing buffer with
  | nil => rfl
  | cons pair rest ih => exact (ih _).trans (List.length_modify ..)

theorem getD_scatter {buffer : List A} (pairs : List (ℕ × A)) {i : ℕ} (inside : i < buffer.length) :
    (scatter buffer pairs).getD i 0 = buffer.getD i 0 + (valuesAt pairs i).sum := by
  induction pairs generalizing buffer with
  | nil => simp [scatter, valuesAt]
  | cons pair rest ih =>
    have inside' : i < (buffer.modify pair.1 (· + pair.2)).length := by rwa [List.length_modify]
    have later := ih inside'
    rw [List.getD_eq_getElem _ _ inside', List.getElem_modify, ← List.getD_eq_getElem buffer 0 inside] at later
    refine later.trans ?_
    by_cases here : pair.1 = i
    · simp only [valuesAt, List.filter_cons, here, decide_true, if_true, List.map_cons, List.sum_cons,
        add_assoc]
    · simp only [valuesAt, List.filter_cons, here, decide_false, Bool.false_eq_true, if_false]

end AetherHF.Circular
