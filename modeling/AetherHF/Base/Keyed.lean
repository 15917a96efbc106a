import Mathlib.Data.List.Basic

/-! Finite maps as lists of pairs. A key's value is the first pair's under it, and
an update leaves one pair of its key. -/
namespace AetherHF

abbrev Keyed (κ : Type*) (ν : Type*) := List (κ × ν)

namespace Keyed

variable {κ ν : Type*} [DecidableEq κ]

def get? (m : Keyed κ ν) (k : κ) : Option ν := (m.find? fun p => p.1 = k).map Prod.snd

def erase (m : Keyed κ ν) (k : κ) : Keyed κ ν := m.filter fun p => p.1 ≠ k

def insert (m : Keyed κ ν) (k : κ) (v : ν) : Keyed κ ν := (k, v) :: m.erase k

def contains (m : Keyed κ ν) (k : κ) : Bool := (m.get? k).isSome

@[simp] theorem get?_nil (k : κ) : get? ([] : Keyed κ ν) k = none := rfl

theorem get?_cons (p : κ × ν) (m : Keyed κ ν) (k : κ) :
    get? (p :: m) k = if p.1 = k then some p.2 else get? m k := by
  unfold get?
  by_cases same : p.1 = k <;> simp [same]

theorem get?_erase (m : Keyed κ ν) (k j : κ) :
    (m.erase k).get? j = if j = k then none else m.get? j := by
  induction m with
  | nil => simp [erase]
  | cons p m ih =>
    by_cases dropped : p.1 = k
    · have shorter : erase (p :: m) k = erase m k := by simp [erase, dropped]
      rw [shorter, ih, get?_cons]
      by_cases same : j = k
      · simp [same]
      · simp [same, show p.1 ≠ j by rw [dropped]; exact Ne.symm same]
    · have kept : erase (p :: m) k = p :: erase m k := by simp [erase, dropped]
      rw [kept, get?_cons, get?_cons, ih]
      by_cases here : p.1 = j
      · simp [here, show j ≠ k by rw [← here]; exact dropped]
      · simp [here]

theorem get?_insert (m : Keyed κ ν) (k j : κ) (v : ν) :
    (m.insert k v).get? j = if j = k then some v else m.get? j := by
  rw [insert, get?_cons, get?_erase]
  by_cases same : j = k
  · simp [same]
  · simp [same, Ne.symm same]

@[simp] theorem contains_eq_true {m : Keyed κ ν} {k : κ} :
    m.contains k = true ↔ ∃ v, m.get? k = some v := by
  simp [contains, Option.isSome_iff_exists]

theorem contains_erase (m : Keyed κ ν) (k j : κ) :
    (m.erase k).contains j = true ↔ j ≠ k ∧ m.contains j = true := by
  rw [contains, get?_erase]
  by_cases same : j = k <;> simp [contains, same]

theorem contains_insert (m : Keyed κ ν) (k j : κ) (v : ν) :
    (m.insert k v).contains j = true ↔ j = k ∨ m.contains j = true := by
  rw [contains, get?_insert]
  by_cases same : j = k <;> simp [contains, same]

theorem mem_of_get? {m : Keyed κ ν} {k : κ} {v : ν} (found : m.get? k = some v) : (k, v) ∈ m := by
  simp only [get?, Option.map_eq_some_iff] at found
  obtain ⟨⟨j, w⟩, found, same⟩ := found
  have key : j = k := by simpa using List.find?_some found
  have member := List.mem_of_find?_eq_some found
  cases key
  cases same
  exact member

theorem length_erase_lt {m : Keyed κ ν} {k : κ} {v : ν} (found : m.get? k = some v) :
    (m.erase k).length < m.length :=
  List.length_filter_lt_length_iff_exists.mpr ⟨(k, v), mem_of_get? found, by simp⟩

end Keyed

end AetherHF
