import Mathlib.Algebra.BigOperators.Group.Finset.Basic
import Mathlib.Algebra.Group.Pi.Basic
import Mathlib.Algebra.Group.Subgroup.Basic
import Mathlib.Algebra.Group.Submonoid.BigOperators
import Mathlib.Algebra.Ring.Parity

/-! Parity checks whose blocks are cyclic shifts, over a group in which every element is
its own inverse. A word is solved a column at a time: a row that has one column not known
yet, unshifted, gives that column. -/
namespace AetherHF.QuasiCyclic

/-- A block row: the columns of its non-zero blocks and their shifts. -/
abbrev Row := List (ℕ × ℕ)

/-- A word: `z` elements in each column. -/
abbrev Word (z : ℕ) (A : Type*) := ℕ → Fin z → A

variable {z : ℕ}

/-- The place `s` further on. -/
def shift (r : Fin z) (s : ℕ) : Fin z := ⟨(r + s) % z, Nat.mod_lt _ r.pos⟩

@[simp] theorem shift_zero (r : Fin z) : shift r 0 = r := Fin.ext (Nat.mod_eq_of_lt r.isLt)

@[simp] theorem shift_mod (r : Fin z) (s : ℕ) : shift r (s % z) = shift r s := Fin.ext (by simp [shift])

theorem shift_shift (r : Fin z) (s t : ℕ) : shift (shift r s) t = shift r (s + t) :=
  Fin.ext (by simp [shift, Nat.add_assoc])

/-- A shift and the rest of the way round. -/
theorem shift_back (r : Fin z) (s : ℕ) : shift (shift r s) (z - s % z) = r := by
  have below := Nat.mod_lt s r.pos
  rw [← shift_mod r s, shift_shift, show s % z + (z - s % z) = z by omega, ← shift_mod, Nat.mod_self, shift_zero]

variable {A : Type*} [AddCommGroup A]

/-- A row's sum at each place. -/
def check (row : Row) (c : Word z A) (r : Fin z) : A := (row.map fun e => c e.1 (shift r e.2)).sum

theorem check_append (row row' : Row) (c : Word z A) (r : Fin z) :
    check (row ++ row') c r = check row c r + check row' c r := by
  simp [check]

theorem check_cons (e : ℕ × ℕ) (row : Row) (c : Word z A) (r : Fin z) :
    check (e :: row) c r = c e.1 (shift r e.2) + check row c r := by
  simp [check]

theorem check_congr {row : Row} {c d : Word z A} (same : ∀ e ∈ row, c e.1 = d e.1) (r : Fin z) :
    check row c r = check row d r := by
  unfold check
  rw [List.map_congr_left fun e member => by rw [same e member]]

theorem check_add (row : Row) (c d : Word z A) (r : Fin z) :
    check row (c + d) r = check row c r + check row d r :=
  List.sum_map_add

/-- The shifts count modulo the size. -/
theorem check_mod (row : Row) (c : Word z A) (r : Fin z) :
    check (row.map fun e => (e.1, e.2 % z)) c r = check row c r := by
  unfold check
  rw [List.map_map]
  simp only [Function.comp_def, shift_mod]

/-- The entries of a kind, and the others. -/
theorem check_split (p : ℕ × ℕ → Bool) (row : Row) (c : Word z A) (r : Fin z) :
    check row c r = check (row.filter p) c r + check (row.filter fun e => !p e) c r := by
  induction row with
  | nil => simp [check]
  | cons e rest ih =>
    rw [check_cons, ih]
    cases kind : p e with
    | true => simp [kind, check_cons, add_assoc]
    | false => simp [kind, check_cons, add_left_comm]

theorem check_flatten (rows : List Row) (c : Word z A) (r : Fin z) :
    (rows.map fun row => check row c r).sum = check rows.flatten c r := by
  induction rows with
  | nil => rfl
  | cons row rest ih => rw [List.map_cons, List.sum_cons, ih, List.flatten_cons, check_append]

theorem check_mem (H : AddSubgroup A) {row : Row} {c : Word z A} (all : ∀ col r, c col r ∈ H) (r : Fin z) :
    check row c r ∈ H := by
  refine list_sum_mem fun x member => ?_
  obtain ⟨e, _, rfl⟩ := List.mem_map.mp member
  exact all _ _

/-! ### Entries in pairs -/

/-- Every entry stands an even number of times. -/
def Paired (row : Row) : Prop := ∀ e ∈ row, Even (row.count e)

instance (row : Row) : Decidable (Paired row) := inferInstanceAs (Decidable (∀ e ∈ row, _))

theorem Paired.filter {row : Row} (paired : Paired row) (p : ℕ × ℕ → Bool) : Paired (row.filter p) :=
  fun e member => by
    obtain ⟨inside, kind⟩ := List.mem_filter.mp member
    rw [List.count_filter kind]
    exact paired e inside

section
variable (double : ∀ a : A, a + a = 0)
include double

/-- Entries in pairs cancel. -/
theorem Paired.check_eq_zero {row : Row} (paired : Paired row) (c : Word z A) (r : Fin z) : check row c r = 0 := by
  unfold check
  rw [Finset.sum_list_map_count]
  refine Finset.sum_eq_zero fun e member => ?_
  obtain ⟨n, twice⟩ := paired e (List.mem_toFinset.mp member)
  have zero : (n + n) • c e.1 (shift r e.2) = 0 := by rw [add_nsmul, ← nsmul_add, double, nsmul_zero]
  rw [← twice] at zero
  convert zero

/-- All but one of them in pairs. -/
theorem check_unpaired {e : ℕ × ℕ} {row : Row} (paired : Paired (e :: row)) (c : Word z A) (r : Fin z) :
    check row c r = c e.1 (shift r e.2) := by
  have none_ := paired.check_eq_zero double c r
  rw [check_cons] at none_
  calc check row c r = c e.1 (shift r e.2) + c e.1 (shift r e.2) + check row c r := by rw [double, zero_add]
    _ = c e.1 (shift r e.2) := by rw [add_assoc, none_, add_zero]

end

/-! ### Solving for a column -/

/-- A row and the column it is solved for. -/
abbrev Step := Row × ℕ

/-- Past the columns before it, the row has its own, unshifted. -/
def Solves (s : Step) : Prop := (s.1.filter fun e => !decide (e.1 < s.2)) = [(s.2, 0)]

instance (s : Step) : Decidable (Solves s) := inferInstanceAs (Decidable (_ = _))

/-- The column takes the sum of those before it. -/
def solve (c : Word z A) (s : Step) : Word z A :=
  Function.update c s.2 (check (s.1.filter fun e => decide (e.1 < s.2)) c)

def solveAll (c : Word z A) (steps : List Step) : Word z A := steps.foldl solve c

theorem solveAll_cons (c : Word z A) (s : Step) (rest : List Step) :
    solveAll c (s :: rest) = solveAll (solve c s) rest := rfl

theorem solveAll_append (c : Word z A) (first rest : List Step) :
    solveAll c (first ++ rest) = solveAll (solveAll c first) rest :=
  List.foldl_append

/-- The columns no step is for stay. -/
theorem solveAll_other {steps : List Step} {col : ℕ} (other : ∀ s ∈ steps, col ≠ s.2) (c : Word z A) :
    solveAll c steps col = c col := by
  induction steps generalizing c with
  | nil => rfl
  | cons s rest ih =>
    obtain ⟨away, later⟩ := List.forall_mem_cons.mp other
    rw [solveAll_cons, ih later]
    exact Function.update_of_ne away _ _

theorem solveAll_add (steps : List Step) (c d : Word z A) :
    solveAll (c + d) steps = solveAll c steps + solveAll d steps := by
  induction steps generalizing c d with
  | nil => rfl
  | cons s rest ih =>
    have step : solve (c + d) s = solve c s + solve d s := by
      unfold solve
      rw [show check _ (c + d) = _ + _ from funext fun r => check_add _ c d r]
      exact Function.update_add c d s.2 _ _
    rw [solveAll_cons, solveAll_cons, solveAll_cons, step, ih]

theorem solveAll_mem (H : AddSubgroup A) (steps : List Step) {c : Word z A} (all : ∀ col r, c col r ∈ H) (col : ℕ)
    (r : Fin z) : solveAll c steps col r ∈ H := by
  induction steps generalizing c with
  | nil => exact all col r
  | cons s rest ih =>
    refine ih fun col r => ?_
    unfold solve
    by_cases here : col = s.2
    · subst here
      rw [Function.update_self]
      exact check_mem H all r
    · rw [Function.update_of_ne here]
      exact all col r

section
variable (double : ∀ a : A, a + a = 0)
include double

/-- A row solved holds. -/
theorem solve_holds {s : Step} (solves : Solves s) (c : Word z A) (r : Fin z) : check s.1 (solve c s) r = 0 := by
  have before : check (s.1.filter fun e => decide (e.1 < s.2)) (solve c s) r =
      check (s.1.filter fun e => decide (e.1 < s.2)) c r := by
    refine check_congr (fun e member => ?_) r
    have below : e.1 < s.2 := of_decide_eq_true (List.mem_filter.mp member).2
    exact Function.update_of_ne below.ne _ _
  have own : check (s.1.filter fun e => !decide (e.1 < s.2)) (solve c s) r =
      check (s.1.filter fun e => decide (e.1 < s.2)) c r := by
    rw [show (s.1.filter fun e => !decide (e.1 < s.2)) = [(s.2, 0)] from solves, check_cons]
    simp [check, solve]
  rw [check_split (fun e => decide (e.1 < s.2)) s.1, before, own, double]

/-- Solved for columns one after the other, every row holds at the end. -/
theorem solveAll_holds {steps : List Step} (solves : ∀ s ∈ steps, Solves s)
    (ascending : steps.Pairwise fun s t => s.2 < t.2) (c : Word z A) :
    ∀ s ∈ steps, ∀ r, check s.1 (solveAll c steps) r = 0 := by
  induction steps generalizing c with
  | nil => exact nofun
  | cons s rest ih =>
    obtain ⟨first, later⟩ := List.forall_mem_cons.mp solves
    obtain ⟨above, rest_⟩ := List.pairwise_cons.mp ascending
    refine List.forall_mem_cons.mpr ⟨fun r => ?_, ih later rest_ (solve c s)⟩
    -- the steps after it are for columns past its own
    have upTo : ∀ e ∈ s.1, e.1 ≤ s.2 := fun e member => by
      by_cases below : e.1 < s.2
      · exact below.le
      · have beyond : e ∈ s.1.filter fun e => !decide (e.1 < s.2) := by simp [member, below]
        rw [show (s.1.filter fun e => !decide (e.1 < s.2)) = [(s.2, 0)] from first, List.mem_singleton] at beyond
        rw [beyond]
    have kept : check s.1 (solveAll (solve c s) rest) r = check s.1 (solve c s) r :=
      check_congr (fun e member => solveAll_other (fun t among => by
        have := above t among
        have := upTo e member
        omega) _) r
    rw [solveAll_cons, kept, solve_holds double first]

end

end AetherHF.QuasiCyclic
