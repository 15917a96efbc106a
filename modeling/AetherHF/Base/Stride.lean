import Mathlib.Data.Int.GCD
import Mathlib.Data.List.Nodup
import Mathlib.Data.List.Perm.Subperm
import Mathlib.Data.Nat.ModEq

/-! Places a stride apart, round a ring, and values written to places of their own: read back they are as
they were. -/
namespace AetherHF.Stride

/-! ### A ring -/

/-- Every place of a ring, `p` apart. -/
def strided (e p : Nat) : List Nat := (List.range e).map fun k => k * p % e

theorem length_strided (e p : Nat) : (strided e p).length = e := by rw [strided, List.length_map, List.length_range]

theorem strided_lt {e p place : Nat} (member : place ∈ strided e p) : place < e := by
  obtain ⟨k, inside, rfl⟩ := List.mem_map.mp member
  exact Nat.mod_lt _ (Nat.zero_lt_of_lt (List.mem_range.mp inside))

/-- With no factor in common no place comes twice. -/
theorem strided_nodup {e p : Nat} (coprime : Nat.Coprime e p) : (strided e p).Nodup := by
  refine List.Nodup.map_on (fun k inside k' inside' same => ?_) List.nodup_range
  have turned : Nat.ModEq e (k * p) (k' * p) := same
  exact (turned.cancel_right_of_coprime coprime).eq_of_lt_of_lt (List.mem_range.mp inside) (List.mem_range.mp inside')

variable {α : Type*}

/-- Each value written to its place. -/
def place (blank : List α) (places : List Nat) (values : List α) : List α :=
  (values.zip places).foldl (fun out v => out.set v.2 v.1) blank

theorem length_place (blank : List α) (places : List Nat) (values : List α) :
    (place blank places values).length = blank.length :=
  List.foldlRecOn (motive := fun out : List α => out.length = blank.length) _ _ rfl fun out same v _ => by
    rw [List.length_set, same]

theorem getD_place_other {places : List Nat} {values : List α} {i : Nat} (none_ : i ∉ places) (blank : List α) (d : α) :
    (place blank places values).getD i d = blank.getD i d := by
  refine List.foldlRecOn (motive := fun out : List α => out.getD i d = blank.getD i d) _ _ rfl fun out same v among => ?_
  have apart : v.2 ≠ i := fun here => none_ (here ▸ (List.of_mem_zip among).2)
  rw [List.getD_eq_getElem?_getD, List.getElem?_set_ne apart, ← List.getD_eq_getElem?_getD, same]

/-- A value is where it was written, no later one being written there. -/
theorem getD_place {blank : List α} {places : List Nat} {values : List α} (apart : places.Nodup)
    (inside : ∀ p ∈ places, p < blank.length) (length : values.length = places.length) {k : Nat} (short : k < places.length)
    (d : α) : (place blank places values).getD (places.getD k 0) d = values.getD k d := by
  induction places generalizing values k blank with
  | nil => cases short
  | cons p rest ih =>
    obtain ⟨value, values, rfl⟩ := List.exists_cons_of_length_pos (l := values) (by rw [length]; exact Nat.succ_pos _)
    obtain ⟨here, apart⟩ := List.nodup_cons.mp apart
    have length' : values.length = rest.length := Nat.succ.inj length
    change (place (blank.set p value) rest values).getD ((p :: rest).getD k 0) d = (value :: values).getD k d
    cases k with
    | zero =>
      rw [List.getD_cons_zero, List.getD_cons_zero, getD_place_other here, List.getD_eq_getElem?_getD,
        List.getElem?_set_self (inside p List.mem_cons_self), Option.getD_some]
    | succ k =>
      rw [List.getD_cons_succ, List.getD_cons_succ]
      refine ih apart (fun q member => ?_) length' (Nat.lt_of_succ_lt_succ short)
      rw [List.length_set]
      exact inside q (List.mem_cons_of_mem _ member)

end AetherHF.Stride
