import Mathlib.Data.List.Sort
import AetherHF.Base.Text

/-! The dial list: frequencies worth remembering, each with a name. -/
namespace AetherHF.Daemon

/-- One remembered dial. -/
structure Memory where
  hz : Nat
  name : Text
  deriving DecidableEq, Repr

namespace Memory

/-- The most entries kept. -/
def limit : Nat := 200

def lowestHz : Nat := 100000
def highestHz : Nat := 1300000000
def nameChars : Nat := 60

/-- The frequency plan's proposals. -/
def defaults : List Memory :=
  [(3590000, "80 m — Aether calling (proposed)"), (7101000, "40 m — Aether calling (proposed)"),
   (10141000, "30 m — Aether calling at 500 Hz (proposed)"), (14107000, "20 m — Aether calling (proposed)"),
   (18107000, "17 m — Aether calling (proposed)"), (21094000, "15 m — Aether calling (proposed)"),
   (24926000, "12 m — Aether calling (proposed)"), (28126000, "10 m — Aether calling (proposed)"),
   (50690000, "6 m — Aether calling (proposed)")].map fun plan => ⟨plan.1, plan.2.toList⟩

/-- An entry into the tidy list: the name of the one with its dial, or another at the end. -/
def put (entry : Memory) : List Memory → List Memory
  | [] => [entry]
  | m :: rest => if m.hz = entry.hz then { m with name := entry.name } :: rest else m :: put entry rest

def tidy (entries : List Memory) : List Memory :=
  ((entries.foldl (fun tidied entry => put ⟨entry.hz, Text.trim entry.name⟩ tidied) []).insertionSort
    fun a b => a.hz ≤ b.hz).take limit

/-- Why an entry cannot be kept. -/
def refusal (entry : Memory) : Option String :=
  if ¬(lowestHz ≤ entry.hz ∧ entry.hz ≤ highestHz) then some s!"{entry.hz} Hz is not a dial frequency"
  else if (Text.trim entry.name).length > nameChars then some s!"a name is at most {nameChars} characters"
  else none

/-- What the list becomes when it is replaced. -/
def replace (entries : List Memory) : Except String (List Memory) :=
  match entries.findSome? refusal with
  | some reason => .error reason
  | none => .ok (tidy entries)

/-! ### A list that is tidy -/

/-- By frequency, one of each, with no blanks about the names. -/
structure Tidy (entries : List Memory) : Prop where
  rising : entries.Pairwise fun a b => a.hz < b.hz
  trimmed : ∀ m ∈ entries, Text.trim m.name = m.name
  few : entries.length ≤ limit

theorem hz_put (entry : Memory) (tidied : List Memory) : (put entry tidied).map Memory.hz =
    if entry.hz ∈ tidied.map Memory.hz then tidied.map Memory.hz else tidied.map Memory.hz ++ [entry.hz] := by
  induction tidied with
  | nil => rfl
  | cons m rest ih =>
    by_cases same : m.hz = entry.hz
    · simp [put, same]
    · have other : entry.hz ≠ m.hz := fun h => same h.symm
      simp only [put, if_neg same, List.map_cons, ih, List.mem_cons, other, false_or]
      split <;> rfl

theorem mem_put {entry m : Memory} {tidied : List Memory} (member : m ∈ put entry tidied) :
    m ∈ tidied ∨ m = entry := by
  induction tidied with
  | nil => exact .inr (by simpa [put] using member)
  | cons first rest ih =>
    by_cases same : first.hz = entry.hz
    · rw [put, if_pos same] at member
      rcases List.mem_cons.mp member with rfl | inRest
      · exact .inr (by cases entry; cases first; simp_all)
      · exact .inl (List.mem_cons_of_mem _ inRest)
    · rw [put, if_neg same] at member
      rcases List.mem_cons.mp member with rfl | inRest
      · exact .inl List.mem_cons_self
      · exact (ih inRest).imp_left (List.mem_cons_of_mem _)

theorem put_new {entry : Memory} {tidied : List Memory} (new : ∀ m ∈ tidied, m.hz ≠ entry.hz) :
    put entry tidied = tidied ++ [entry] := by
  induction tidied with
  | nil => rfl
  | cons m rest ih =>
    rw [put, if_neg (new m List.mem_cons_self), ih fun m member => new m (List.mem_cons_of_mem _ member)]
    rfl

/-- What the loop has gathered so far. -/
structure Gathered (entries tidied : List Memory) : Prop where
  apart : (tidied.map Memory.hz).Nodup
  from_ : ∀ m ∈ tidied, ∃ entry ∈ entries, m = ⟨entry.hz, Text.trim entry.name⟩

theorem gathered_foldl {entries before tidied : List Memory} (gathered : Gathered before tidied) :
    Gathered (before ++ entries)
      (entries.foldl (fun tidied entry => put ⟨entry.hz, Text.trim entry.name⟩ tidied) tidied) := by
  induction entries generalizing before tidied with
  | nil => simpa using gathered
  | cons entry rest ih =>
    have next : Gathered (before ++ [entry]) (put ⟨entry.hz, Text.trim entry.name⟩ tidied) := by
      refine ⟨?_, fun m member => ?_⟩
      · rw [hz_put]
        split
        · exact gathered.apart
        · rename_i new
          exact gathered.apart.append (List.nodup_singleton _) (by simpa using new)
      · rcases mem_put member with earlier | rfl
        · obtain ⟨e, inBefore, eq⟩ := gathered.from_ m earlier
          exact ⟨e, List.mem_append_left _ inBefore, eq⟩
        · exact ⟨entry, by simp, rfl⟩
    have := ih next
    rwa [List.append_assoc, List.singleton_append] at this

theorem gathered_nil (entries : List Memory) : Gathered entries
    (entries.foldl (fun tidied entry => put ⟨entry.hz, Text.trim entry.name⟩ tidied) []) :=
  gathered_foldl (show Gathered [] [] from ⟨List.nodup_nil, fun _ member => absurd member List.not_mem_nil⟩)

theorem tidy_tidy (entries : List Memory) : Tidy (tidy entries) := by
  have gathered := gathered_nil entries
  set all := entries.foldl (fun tidied entry => put ⟨entry.hz, Text.trim entry.name⟩ tidied) []
  have sorted := List.pairwise_insertionSort (fun a b : Memory => a.hz ≤ b.hz) all
  have apart : ((all.insertionSort fun a b => a.hz ≤ b.hz).map Memory.hz).Nodup :=
    ((List.perm_insertionSort _ all).map _).nodup_iff.mpr gathered.apart
  refine ⟨?_, fun m member => ?_, List.length_take_le _ _⟩
  · refine List.Pairwise.sublist (List.take_sublist _ _) ?_
    exact (sorted.and (List.pairwise_map.mp apart)).imp fun both => lt_of_le_of_ne both.1 both.2
  · obtain ⟨entry, -, rfl⟩ := gathered.from_ m
      ((List.mem_insertionSort _).mp (List.mem_of_mem_take member))
    exact Text.trim_trim _

theorem Tidy.foldl {entries before : List Memory} (rising : (before ++ entries).Pairwise fun a b => a.hz < b.hz)
    (trimmed : ∀ m ∈ entries, Text.trim m.name = m.name) :
    entries.foldl (fun tidied entry => put ⟨entry.hz, Text.trim entry.name⟩ tidied) before = before ++ entries := by
  induction entries generalizing before with
  | nil => simp
  | cons entry rest ih =>
    have same : (⟨entry.hz, Text.trim entry.name⟩ : Memory) = entry := by
      rw [trimmed entry List.mem_cons_self]
    have new : ∀ m ∈ before, m.hz ≠ entry.hz := fun m member =>
      ne_of_lt ((List.pairwise_append.mp rising).2.2 m member entry List.mem_cons_self)
    rw [List.foldl_cons, same, put_new new, ih (by simpa using rising)
      fun m member => trimmed m (List.mem_cons_of_mem _ member), List.append_assoc, List.singleton_append]

theorem Tidy.tidy {entries : List Memory} (tidied : Tidy entries) : Memory.tidy entries = entries := by
  have rising : ([] ++ entries).Pairwise fun a b : Memory => a.hz < b.hz := by simpa using tidied.rising
  have gathered := Tidy.foldl rising tidied.trimmed
  rw [Memory.tidy, gathered, List.nil_append,
    List.Pairwise.insertionSort_eq (tidied.rising.imp fun lt => le_of_lt lt), List.take_of_length_le tidied.few]

/-- A list the check let by is let by again, and is left as it is. -/
theorem replace_replace {entries list : List Memory} (kept : replace entries = .ok list) :
    replace list = .ok list := by
  unfold replace at kept
  split at kept
  · cases kept
  · rename_i none_
    cases kept
    have clear : (tidy entries).findSome? refusal = none := by
      rw [List.findSome?_eq_none_iff] at none_ ⊢
      intro m member
      obtain ⟨entry, inEntries, rfl⟩ := (gathered_nil entries).from_ m
        ((List.mem_insertionSort _).mp (List.mem_of_mem_take member))
      have := none_ entry inEntries
      simpa only [refusal, Text.trim_trim] using this
    rw [replace, clear, (tidy_tidy entries).tidy]

theorem replace_tidy {entries list : List Memory} (kept : replace entries = .ok list) : Tidy list := by
  unfold replace at kept
  split at kept
  · cases kept
  · cases kept
    exact tidy_tidy entries

end Memory

end AetherHF.Daemon
