import Mathlib.Data.List.Basic

/-! Machines that read a stream symbol by symbol and put something out now and then, and
streams cut at a delimiter. -/
namespace AetherHF.Stream

variable {σ α β : Type*} (step : σ → α → σ × List β)

/-- Read a piece of the stream: the state after it, and what was put out, in order. -/
def run : σ → List α → σ × List β
  | s, [] => (s, [])
  | s, x :: rest =>
    let (s, out) := step s x
    let (s, later) := run s rest
    (s, out ++ later)

@[simp] theorem run_nil (s : σ) : run step s [] = (s, []) := rfl

theorem run_cons (s : σ) (x : α) (rest : List α) :
    run step s (x :: rest) = ((run step (step s x).1 rest).1, (step s x).2 ++ (run step (step s x).1 rest).2) := rfl

/-- A piece cut in two. -/
theorem run_append (s : σ) (xs ys : List α) :
    run step s (xs ++ ys) = ((run step (run step s xs).1 ys).1, (run step s xs).2 ++ (run step (run step s xs).1 ys).2) := by
  induction xs generalizing s with
  | nil => rfl
  | cons x rest ih => simp only [List.cons_append, run_cons, ih, List.append_assoc]

/-- Pieces one after another are the whole: a run is a step on pieces. -/
theorem run_pieces (s : σ) (pieces : List (List α)) : run (run step) s pieces = run step s pieces.flatten := by
  induction pieces generalizing s with
  | nil => rfl
  | cons piece rest ih => rw [run_cons, ih, List.flatten_cons, run_append]

/-- A relation of the symbols read and the state, kept by each symbol that puts nothing
out. -/
theorem run_silent {R : List α → σ → Prop} {p : α → Prop}
    (kept : ∀ {xs s x}, R xs s → p x → R (xs ++ [x]) (step s x).1 ∧ (step s x).2 = []) {before : List α} {s : σ}
    (related : R before s) {xs : List α} (all : ∀ x ∈ xs, p x) :
    R (before ++ xs) (run step s xs).1 ∧ (run step s xs).2 = [] := by
  induction xs generalizing before s with
  | nil => exact ⟨by simpa using related, rfl⟩
  | cons x rest ih =>
    obtain ⟨here, later⟩ := List.forall_mem_cons.mp all
    obtain ⟨related', silent⟩ := kept related here
    obtain ⟨end_, silent'⟩ := ih related' later
    rw [run_cons, silent, silent']
    exact ⟨by simpa using end_, rfl⟩

/-- A machine fed a stream in blocks, that gives what `f` makes of the stream so far. -/
theorem run_gives {step : σ → List α → σ × List β} {R : List α → σ → Prop} {f : List α → List β}
    (gives : ∀ {xs s} block, R xs s → R (xs ++ block) (step s block).1 ∧ f xs ++ (step s block).2 = f (xs ++ block))
    {before : List α} {s : σ} (related : R before s) (blocks : List (List α)) :
    R (before ++ blocks.flatten) (run step s blocks).1 ∧
      f before ++ (run step s blocks).2 = f (before ++ blocks.flatten) := by
  induction blocks generalizing before s with
  | nil => exact ⟨by simpa using related, by simp⟩
  | cons block rest ih =>
    obtain ⟨related', given⟩ := gives block related
    obtain ⟨end_, whole⟩ := ih related'
    rw [run_cons, List.flatten_cons, ← List.append_assoc before]
    refine ⟨end_, ?_⟩
    rw [← List.append_assoc, given, whole]

/-- Something put out that leaves a state in which it is not put out again comes once at most, as
long as nothing read undoes that. -/
theorem run_once {step : σ → α → σ × List β} {hit : β → Bool} (Spent : σ → Prop) {p : α → Prop}
    (silent : ∀ {s x}, p x → Spent s → Spent (step s x).1 ∧ (step s x).2.countP hit = 0)
    (spends : ∀ {s x}, p x → (step s x).2.countP hit = 0 ∨ (step s x).2.countP hit = 1 ∧ Spent (step s x).1)
    {xs : List α} (all : ∀ x ∈ xs, p x) (s : σ) :
    (Spent s → (run step s xs).2.countP hit = 0) ∧ (run step s xs).2.countP hit ≤ 1 := by
  induction xs generalizing s with
  | nil => exact ⟨fun _ => rfl, Nat.zero_le _⟩
  | cons x rest ih =>
    obtain ⟨here, later⟩ := List.forall_mem_cons.mp all
    obtain ⟨never, once⟩ := ih later (step s x).1
    rw [run_cons, List.countP_append]
    refine ⟨fun spent => ?_, ?_⟩
    · obtain ⟨spent', none_⟩ := silent here spent
      rw [none_, never spent']
    · rcases spends (s := s) here with none_ | ⟨one_, spent'⟩
      · omega
      · have := never spent'
        omega

variable [BEq α] [LawfulBEq α]

/-- The runs between two delimiters. -/
def between (d : α) (xs : List α) : List (List α) := ((xs.splitOn d).drop 1).dropLast

theorem between_nil {d : α} {xs : List α} (none_ : d ∉ xs) : between d xs = [] := by
  simp [between, List.splitOn_eq_singleton none_]

/-- From the first delimiter on. -/
theorem between_cons {d : α} {noise : List α} (none_ : d ∉ noise) (rest : List α) :
    between d (noise ++ d :: rest) = (rest.splitOn d).dropLast := by
  rw [between, List.splitOn_append_cons_self_of_not_mem none_]
  rfl

/-- Before the first delimiter. -/
theorem splitOn_append_of_not_mem {d : α} {xs : List α} (none_ : d ∉ xs) (rest : List α) :
    (xs ++ rest).splitOn d = (rest.splitOn d).modifyHead (xs ++ ·) := by
  induction xs with
  | nil => cases split : rest.splitOn d <;> simp [split]
  | cons x xs ih =>
    obtain ⟨other, none_⟩ := not_or.mp (List.mem_cons.not.mp none_)
    rw [List.cons_append, List.splitOn_cons_eq_if_modifyHead, if_neg (by simpa using Ne.symm other), ih none_,
      List.modifyHead_modifyHead]
    rfl

/-- A run closed by a delimiter, and those after it. -/
theorem dropLast_splitOn {d : α} {xs : List α} (none_ : d ∉ xs) (rest : List α) :
    ((xs ++ d :: rest).splitOn d).dropLast = xs :: (rest.splitOn d).dropLast := by
  rw [List.splitOn_append_cons_self_of_not_mem none_, List.dropLast_cons_of_ne_nil (List.splitOn_ne_nil d rest)]

end AetherHF.Stream
