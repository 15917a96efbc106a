import AetherHF.Base.Keyed

/-! Directories whose names a file system may compare by a fold of them: two names of one
fold are one file's. -/
namespace AetherHF

/-- How a file system compares names, and what a file is listed as once another name of
its fold is written over it. -/
structure FileNames (κ φ : Type*) where
  fold : κ → φ
  renamed : κ → κ → κ
  fold_renamed : ∀ {old new}, fold old = fold new → fold (renamed old new) = fold new

/-- Names told apart as they are. -/
def FileNames.exact (κ : Type*) : FileNames κ κ where
  fold := id
  renamed _ new := new
  fold_renamed _ := rfl

namespace Directory

variable {κ φ ν : Type*} [DecidableEq φ] (names : FileNames κ φ)

def lookup (dir : Keyed κ ν) (name : κ) : Option (κ × ν) := dir.find? fun file => names.fold file.1 = names.fold name

def remove (dir : Keyed κ ν) (name : κ) : Keyed κ ν := dir.filter fun file => names.fold file.1 ≠ names.fold name

/-- A file renamed over whatever its name is the file of. -/
def place (dir : Keyed κ ν) (name : κ) (file : ν) : Keyed κ ν :=
  ((lookup names dir name).elim name fun old => names.renamed old.1 name, file) :: remove names dir name

/-- No two names are one file's. -/
def Proper (dir : Keyed κ ν) : Prop := dir.Pairwise fun a b => names.fold a.1 ≠ names.fold b.1

variable {names} {dir : Keyed κ ν} {name other : κ} {file : ν} {entry : κ × ν}

theorem lookup_fold (found : lookup names dir name = some entry) : names.fold entry.1 = names.fold name := by
  simpa using List.find?_some found

theorem lookup_mem (found : lookup names dir name = some entry) : entry ∈ dir := List.mem_of_find?_eq_some found

theorem Proper.lookup (proper : Proper names dir) (member : entry ∈ dir) (same : names.fold entry.1 = names.fold name) :
    lookup names dir name = some entry := by
  induction dir with
  | nil => exact absurd member List.not_mem_nil
  | cons first rest ih =>
    obtain ⟨apart, proper⟩ := List.pairwise_cons.mp proper
    rcases List.mem_cons.mp member with rfl | later
    · simp [Directory.lookup, same]
    · have unlike : names.fold first.1 ≠ names.fold name := same ▸ apart entry later
      rw [Directory.lookup, List.find?_cons_of_neg (by simpa using unlike)]
      exact ih proper later

theorem Proper.unique (proper : Proper names dir) {a b : κ × ν} (inA : a ∈ dir) (inB : b ∈ dir)
    (same : names.fold a.1 = names.fold b.1) : a = b := by
  have first := proper.lookup inA same
  exact Option.some.inj (first.symm.trans (proper.lookup inB rfl))

theorem lookup_eq_none : lookup names dir name = none ↔ ∀ entry ∈ dir, names.fold entry.1 ≠ names.fold name := by
  simp [lookup]

theorem mem_remove : entry ∈ remove names dir name ↔ entry ∈ dir ∧ names.fold entry.1 ≠ names.fold name := by
  simp [remove]

theorem fold_placed : names.fold ((lookup names dir name).elim name fun old => names.renamed old.1 name) = names.fold name := by
  cases found : lookup names dir name with
  | none => rfl
  | some old => exact names.fold_renamed (lookup_fold found)

theorem mem_place : entry ∈ place names dir name file ↔
    entry = ((lookup names dir name).elim name fun old => names.renamed old.1 name, file) ∨
      entry ∈ dir ∧ names.fold entry.1 ≠ names.fold name := by
  rw [place, List.mem_cons, mem_remove]

theorem exists_placed (names : FileNames κ φ) (dir : Keyed κ ν) (name : κ) (file : ν) :
    ∃ entry ∈ place names dir name file, names.fold entry.1 = names.fold name :=
  ⟨_, mem_place.mpr (.inl rfl), fold_placed⟩

theorem Proper.remove (proper : Proper names dir) : Proper names (remove names dir name) :=
  proper.sublist List.filter_sublist

theorem Proper.place (proper : Proper names dir) : Proper names (place names dir name file) := by
  refine List.pairwise_cons.mpr ⟨fun entry member => ?_, proper.remove⟩
  rw [fold_placed]
  exact (mem_remove.mp member).2.symm

theorem lookup_remove_same (same : names.fold other = names.fold name) : lookup names (remove names dir name) other = none := by
  rw [lookup_eq_none]
  intro entry member
  rw [same]
  exact (mem_remove.mp member).2

theorem lookup_remove_other (apart : names.fold other ≠ names.fold name) :
    lookup names (remove names dir name) other = lookup names dir other := by
  induction dir with
  | nil => rfl
  | cons first rest ih =>
    unfold remove at ih ⊢
    by_cases dropped : names.fold first.1 = names.fold name
    · have unlike : names.fold first.1 ≠ names.fold other := dropped ▸ apart.symm
      rw [List.filter_cons_of_neg (by simpa using dropped), ih]
      exact (List.find?_cons_of_neg (by simpa using unlike)).symm
    · rw [List.filter_cons_of_pos (by simpa using dropped)]
      unfold lookup at ih ⊢
      simp only [List.find?_cons, ih]

theorem lookup_place_same (same : names.fold other = names.fold name) :
    lookup names (place names dir name file) other =
      some ((lookup names dir name).elim name fun old => names.renamed old.1 name, file) := by
  unfold place
  rw [lookup, List.find?_cons_of_pos (by simpa [same] using fold_placed)]

theorem lookup_place_other (apart : names.fold other ≠ names.fold name) :
    lookup names (place names dir name file) other = lookup names dir other := by
  have unlike : names.fold ((lookup names dir name).elim name fun old => names.renamed old.1 name) ≠ names.fold other := by
    rw [fold_placed]
    exact apart.symm
  unfold place
  rw [lookup, List.find?_cons_of_neg (by simpa using unlike)]
  exact lookup_remove_other apart

/-- What is moved may be placed first or last. -/
theorem remove_place (apart : names.fold name ≠ names.fold other) :
    remove names (place names dir name file) other = place names (remove names dir other) name file := by
  unfold place
  rw [lookup_remove_other apart]
  have kept : names.fold ((lookup names dir name).elim name fun old => names.renamed old.1 name) ≠ names.fold other := by
    rw [fold_placed]
    exact apart
  unfold remove
  rw [List.filter_cons_of_pos (by simpa using kept), List.filter_filter, List.filter_filter]
  simp only [Bool.and_comm]

end Directory

/-- Where names are told apart as they are, a directory is a map of them. -/
theorem Directory.place_exact {κ ν : Type*} [DecidableEq κ] (dir : Keyed κ ν) (name : κ) (file : ν) :
    place (.exact κ) dir name file = dir.insert name file := by
  have listed : ((lookup (.exact κ) dir name).elim name fun old => (FileNames.exact κ).renamed old.1 name) = name := by
    cases lookup (.exact κ) dir name with
    | none => rfl
    | some old => rfl
  rw [place, listed]
  rfl

theorem Directory.lookup_exact {κ ν : Type*} [DecidableEq κ] (dir : Keyed κ ν) (name : κ) :
    (lookup (.exact κ) dir name).map Prod.snd = dir.get? name := rfl

end AetherHF
