import Mathlib.Data.List.Induction
import Mathlib.Data.Nat.Bitwise

/-! Erasures filled in by the checks of cyclic blocks. What is unknown of a column is a mask, a block row's
shift turns it, and a check that has one bit unknown gives that bit. -/
namespace AetherHF.Peeling

/-! ### Masks turned -/

/-- The mask that has at `r` what `m` has at `r + s`, round `z` places. -/
def turn (z s m : Nat) : Nat := ((m % 2 ^ z) >>> s ||| (m % 2 ^ z) <<< (z - s)) % 2 ^ z

theorem testBit_turn {z s r : Nat} (m : Nat) (within : s ≤ z) (inside : r < z) : (turn z s m).testBit r = m.testBit ((r + s) % z) := by
  rw [turn, Nat.testBit_mod_two_pow, Nat.testBit_or, Nat.testBit_shiftRight, Nat.testBit_shiftLeft, Nat.testBit_mod_two_pow,
    Nat.testBit_mod_two_pow]
  simp only [inside, decide_true, Bool.true_and]
  rcases Nat.lt_or_ge (r + s) z with low | high
  · have none_ : ¬z - s ≤ r := by omega
    have low' : s + r < z := by omega
    rw [Nat.mod_eq_of_lt low, Nat.add_comm r s]
    simp [low', none_]
  · have wrapped : (r + s) % z = r + s - z := by
      rw [Nat.mod_eq_sub_mod high, Nat.mod_eq_of_lt (by omega)]
    have back : r - (z - s) = r + s - z := by omega
    have past : ¬s + r < z := by omega
    have some_ : z - s ≤ r := by omega
    have less : r + s - z < z := by omega
    rw [wrapped, back]
    simp [past, some_, less]

/-! ### A block row -/

/-- The places at which some of the masks, and at least two of them, have a bit. -/
def tally (masks : List Nat) : Nat × Nat := masks.foldl (fun t m => (t.1 ||| m, t.2 ||| (t.1 &&& m))) (0, 0)

theorem tally_concat (masks : List Nat) (m : Nat) :
    tally (masks ++ [m]) = ((tally masks).1 ||| m, (tally masks).2 ||| ((tally masks).1 &&& m)) := by
  simp [tally]

theorem tally_one {masks : List Nat} {r place mask : Nat} (at_ : masks[place]? = some mask) (has : mask.testBit r = true) :
    (tally masks).1.testBit r = true := by
  induction masks using List.reverseRecOn with
  | nil => cases at_
  | append_singleton masks last ih =>
    rw [tally_concat, Nat.testBit_or, Bool.or_eq_true]
    rcases Nat.lt_or_ge place masks.length with before | here
    · rw [List.getElem?_append_left before] at at_
      exact .inl (ih at_)
    · have short := (List.getElem?_eq_some_iff.mp at_).1
      obtain rfl : place = masks.length := by
        rw [List.length_append, List.length_singleton] at short
        omega
      rw [List.getElem?_concat_length] at at_
      exact .inr (Option.some.inj at_ ▸ has)

/-- A bit that two masks have is counted twice. -/
theorem tally_two {masks : List Nat} {r a b m n : Nat} (apart : a < b) (at_ : masks[a]? = some m) (has : m.testBit r = true)
    (at' : masks[b]? = some n) (has' : n.testBit r = true) : (tally masks).2.testBit r = true := by
  induction masks using List.reverseRecOn with
  | nil => cases at_
  | append_singleton masks last ih =>
    rw [tally_concat, Nat.testBit_or, Bool.or_eq_true, Nat.testBit_and, Bool.and_eq_true]
    have short := (List.getElem?_eq_some_iff.mp at').1
    rw [List.length_append, List.length_singleton] at short
    have first : a < masks.length := by omega
    rw [List.getElem?_append_left first] at at_
    rcases Nat.lt_or_ge b masks.length with before | here
    · rw [List.getElem?_append_left before] at at'
      exact .inl (ih at_ at')
    · obtain rfl : b = masks.length := by omega
      rw [List.getElem?_concat_length] at at'
      exact .inr ⟨tally_one at_ has, Option.some.inj at' ▸ has'⟩

/-- What is unknown of the columns after a block row: what was, where each check of it has two bits unknown. -/
def solve (z : Nat) (masks : List Nat) (row : List (Nat × Nat)) : List Nat :=
  let twice := (tally (row.map fun e => turn z e.2 (masks.getD e.1 0))).2
  row.foldl (fun masks e => masks.modify e.1 (· &&& turn z (z - e.2) twice)) masks

def solveAll (z : Nat) (rows : List (List (Nat × Nat))) (masks : List Nat) : List Nat := rows.foldl (solve z) masks

theorem testBit_modify (masks : List Nat) (place col t r : Nat) :
    ((masks.modify place (· &&& t)).getD col 0).testBit r =
      ((masks.getD col 0).testBit r && (decide (place ≠ col) || t.testBit r)) := by
  rw [List.getD_eq_getElem?_getD, List.getElem?_modify, List.getD_eq_getElem?_getD]
  cases masks[col]? with
  | none => simp
  | some mask =>
    by_cases same : place = col
    · simp [same]
    · simp [same]

theorem testBit_foldl_modify (turned : Nat × Nat → Nat) (row : List (Nat × Nat)) (masks : List Nat) (col r : Nat) :
    ((row.foldl (fun masks e => masks.modify e.1 (· &&& turned e)) masks).getD col 0).testBit r =
      ((masks.getD col 0).testBit r && row.all fun e => decide (e.1 ≠ col) || (turned e).testBit r) := by
  induction row generalizing masks with
  | nil => simp
  | cons e row ih => rw [List.foldl_cons, ih, testBit_modify, List.all_cons, Bool.and_assoc]

/-- What a mask leaves of its column is known. -/
def Leaves (z : Nat) (masks : List Nat) (known : Nat → Nat → Prop) : Prop :=
  ∀ col < masks.length, ∀ r < z, (masks.getD col 0).testBit r = false → known col r

theorem length_solve (z : Nat) (masks : List Nat) (row : List (Nat × Nat)) : (solve z masks row).length = masks.length := by
  unfold solve
  generalize (tally (row.map fun e => turn z e.2 (masks.getD e.1 0))).2 = twice
  induction row generalizing masks with
  | nil => rfl
  | cons e row ih => rw [List.foldl_cons, ih, List.length_modify]

theorem length_solveAll (z : Nat) (rows : List (List (Nat × Nat))) (masks : List Nat) :
    (solveAll z rows masks).length = masks.length :=
  List.foldlRecOn (motive := fun masks' => masks'.length = masks.length) rows (solve z) rfl
    fun masks' same row _ => (length_solve z masks' row).trans same

/-- A block row's masks are sound: where what was known stays known, and each check gives its bit when its others are known. -/
theorem Leaves.solve {z : Nat} {masks : List Nat} {row : List (Nat × Nat)} {known known' : Nat → Nat → Prop}
    (leaves : Leaves z masks known) (small : ∀ e ∈ row, e.2 < z) (inside : ∀ e ∈ row, e.1 < masks.length)
    (stays : ∀ col r, known col r → known' col r)
    (gives : ∀ (place : Nat) (e : Nat × Nat) (q : Nat), row[place]? = some e → q < z →
      (∀ (other : Nat) (e' : Nat × Nat), other ≠ place → row[other]? = some e' → known e'.1 ((q + e'.2) % z)) →
      known' e.1 ((q + e.2) % z)) :
    Leaves z (solve z masks row) known' := by
  intro col short r low clear
  rw [length_solve] at short
  rw [Peeling.solve, testBit_foldl_modify] at clear
  rcases Bool.and_eq_false_iff.mp clear with before | now
  · exact stays col r (leaves col short r low before)
  · obtain ⟨e, member, here⟩ := List.all_eq_false.mp now
    simp only [ne_eq, Bool.not_eq_true, Bool.or_eq_false_iff, decide_eq_false_iff_not, not_not] at here
    obtain ⟨rfl, single⟩ := here
    have shift := small e member
    rw [testBit_turn _ (Nat.sub_le ..) low] at single
    obtain ⟨place, short', at_⟩ := List.mem_iff_getElem.mp member
    have at_ : row[place]? = some e := (List.getElem?_eq_getElem short').trans (congrArg some at_)
    -- the check of the entry that has the bit
    obtain ⟨q, is⟩ : ∃ q, (r + (z - e.2)) % z = q := ⟨_, rfl⟩
    have low' : q < z := is ▸ Nat.mod_lt _ (by omega)
    have back : (q + e.2) % z = r := by
      have whole : r + (z - e.2) + e.2 = r + z := by omega
      rw [← is, Nat.mod_add_mod, whole, Nat.add_mod_right, Nat.mod_eq_of_lt low]
    rw [is] at single
    by_cases unknown : (masks.getD e.1 0).testBit r = true
    · rw [← back]
      refine gives place e q at_ low' fun other e' apart at' => ?_
      have member' := List.mem_of_getElem? at'
      refine leaves e'.1 (inside e' member') _ (Nat.mod_lt _ (by omega)) (Bool.not_eq_true _ |>.mp fun also => ?_)
      -- else two of the check's bits were unknown
      have turned {place : Nat} {e : Nat × Nat} (at_ : row[place]? = some e) :
          (row.map fun e => turn z e.2 (masks.getD e.1 0))[place]? = some (turn z e.2 (masks.getD e.1 0)) := by
        rw [List.getElem?_map, at_, Option.map_some]
      have has : (turn z e.2 (masks.getD e.1 0)).testBit q = true := by
        rw [testBit_turn _ shift.le low', back]
        exact unknown
      have has' : (turn z e'.2 (masks.getD e'.1 0)).testBit q = true := by
        rw [testBit_turn _ (small e' member').le low']
        exact also
      have counted : (tally (row.map fun e => turn z e.2 (masks.getD e.1 0))).2.testBit q = true := by
        rcases Nat.lt_or_gt_of_ne apart with before | after
        · exact tally_two before (turned at') has' (turned at_) has
        · exact tally_two after (turned at_) has (turned at') has'
      rw [counted] at single
      cases single
    · exact stays _ _ (leaves e.1 short r low (Bool.not_eq_true _ |>.mp unknown))

end AetherHF.Peeling
