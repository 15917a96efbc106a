import Mathlib.Algebra.Order.Field.Basic
import Mathlib.Data.List.Basic
import Mathlib.Data.List.Induction
import Mathlib.Tactic.Ring

/-! The check rule of min-sum decoding: each of a check's values is told the least magnitude among the
others, with the sign that makes the check even. One pass finds the two least. A zero counts as
positive, and the first of equals as the least. -/
namespace AetherHF.MinSum

variable {K : Type*} [Field K] [LinearOrder K]

/-- A value's sign; a zero's is positive. -/
def signOf (value : K) : K := if value < 0 then -1 else 1

/-- Less than the least so far, infinite while there is none. -/
def under (magnitude : K) : Option K → Bool
  | none => true
  | some least => magnitude < least

/-- What a pass keeps: the least magnitude, the next, the place of the least, and the signs' product. -/
structure Scan (K : Type*) where
  min1 : Option K
  min2 : Option K
  argmin : Nat
  sign : K

def Scan.start : Scan K := ⟨none, none, 0, 1⟩

def Scan.take (s : Scan K) (place : Nat) (value : K) : Scan K :=
  let sign := if value < 0 then -s.sign else s.sign
  if under |value| s.min1 then ⟨some |value|, s.min1, place, sign⟩
  else if under |value| s.min2 then ⟨s.min1, some |value|, s.argmin, sign⟩
  else ⟨s.min1, s.min2, s.argmin, sign⟩

def scan (values : List K) : Scan K := values.zipIdx.foldl (fun s v => s.take v.2 v.1) .start

/-- What the value at a place is told. -/
def message (alpha : K) (s : Scan K) (place : Nat) (value : K) : K :=
  alpha * (if place = s.argmin then s.min2 else s.min1).getD 0 * s.sign * signOf value

theorem scan_concat (values : List K) (v : K) : scan (values ++ [v]) = (scan values).take values.length v := by
  rw [scan, List.zipIdx_append, List.foldl_append, scan]
  simp

theorem Scan.take_sign (s : Scan K) (place : Nat) (value : K) : (s.take place value).sign = s.sign * signOf value := by
  have is : (if value < 0 then -s.sign else s.sign) = s.sign * signOf value := by
    unfold signOf
    split <;> ring
  unfold take
  dsimp only
  split
  · exact is
  · split <;> exact is

/-- Two values at least leave no least infinite. -/
theorem scan_finite {values : List K} (two : 2 ≤ values.length) :
    (scan values).min1.isSome = true ∧ (scan values).min2.isSome = true := by
  have first (values : List K) (some_ : values ≠ []) : (scan values).min1.isSome = true := by
    obtain ⟨front, v, rfl⟩ := (List.eq_nil_or_concat' values).resolve_left some_
    rw [scan_concat]
    unfold Scan.take
    dsimp only
    split
    · rfl
    · rename_i beyond
      have least : (scan front).min1.isSome = true := by
        cases is : (scan front).min1 with
        | none => simp [is, under] at beyond
        | some least => rfl
      split <;> exact least
  refine ⟨first values (List.length_pos_iff.mp (by omega)), ?_⟩
  obtain ⟨front, v, rfl⟩ := (List.eq_nil_or_concat' values).resolve_left (List.length_pos_iff.mp (by omega))
  have more : front ≠ [] := by
    rintro rfl
    simp at two
  rw [scan_concat]
  unfold Scan.take
  dsimp only
  split
  · exact first front more
  · split
    · rfl
    · rename_i beyond
      cases is : (scan front).min2 with
      | none => simp [is, under] at beyond
      | some next => rfl

/-- Where a pass found its leasts: in two places. -/
structure Found (values : List K) (s : Scan K) : Prop where
  least : ∀ m ∈ s.min1, ∃ v, values[s.argmin]? = some v ∧ |v| = m
  next : ∀ m ∈ s.min2, ∃ other v, other ≠ s.argmin ∧ values[other]? = some v ∧ |v| = m

theorem found (values : List K) : Found values (scan values) := by
  induction values using List.reverseRecOn with
  | nil => exact ⟨nofun, nofun⟩
  | append_singleton front v ih =>
    obtain ⟨least, next⟩ := ih
    have last : (front ++ [v])[front.length]? = some v := List.getElem?_concat_length
    have kept {place : Nat} {x : K} (at_ : front[place]? = some x) : (front ++ [v])[place]? = some x :=
      (List.getElem?_append_left (List.getElem?_eq_some_iff.mp at_).1).trans at_
    rw [scan_concat]
    unfold Scan.take
    dsimp only
    split
    · refine ⟨fun m is => ⟨v, last, Option.some.inj is⟩, fun m is => ?_⟩
      obtain ⟨x, at_, size⟩ := least m is
      exact ⟨_, x, (List.getElem?_eq_some_iff.mp at_).1.ne, kept at_, size⟩
    · rename_i beyond
      have least' : ∀ m ∈ (scan front).min1, ∃ x, (front ++ [v])[(scan front).argmin]? = some x ∧ |x| = m := by
        intro m is
        obtain ⟨x, at_, size⟩ := least m is
        exact ⟨x, kept at_, size⟩
      split
      · refine ⟨least', fun m is => ⟨_, v, ?_, last, Option.some.inj is⟩⟩
        cases first : (scan front).min1 with
        | none => simp [first, under] at beyond
        | some m =>
          obtain ⟨x, at_, -⟩ := least m first
          exact (List.getElem?_eq_some_iff.mp at_).1.ne'
      · refine ⟨least', fun m is => ?_⟩
        obtain ⟨other, x, apart, at_, size⟩ := next m is
        exact ⟨other, x, apart, kept at_, size⟩

section
variable [IsStrictOrderedRing K]

/-! ### Checks with no value below zero -/

omit [IsStrictOrderedRing K] in
theorem scan_sign {values : List K} (all : ∀ v ∈ values, 0 ≤ v) : (scan values).sign = 1 := by
  induction values using List.reverseRecOn with
  | nil => rfl
  | append_singleton front v ih =>
    have last : signOf v = 1 := if_neg (not_lt.mpr (all v (List.mem_append_right _ (List.mem_singleton.mpr rfl))))
    rw [scan_concat, Scan.take_sign, ih fun v member => all v (List.mem_append_left _ member), last, one_mul]

theorem scan_nonneg (values : List K) : (∀ m ∈ (scan values).min1, 0 ≤ m) ∧ ∀ m ∈ (scan values).min2, 0 ≤ m := by
  induction values using List.reverseRecOn with
  | nil => exact ⟨nofun, nofun⟩
  | append_singleton front v ih =>
    have here : ∀ m ∈ some |v|, 0 ≤ m := fun m is => Option.some.inj is ▸ abs_nonneg v
    rw [scan_concat]
    unfold Scan.take
    dsimp only
    split
    · exact ⟨here, ih.1⟩
    · split
      · exact ⟨ih.1, here⟩
      · exact ih

theorem message_nonneg {values : List K} (all : ∀ v ∈ values, 0 ≤ v) {alpha : K} (some_ : 0 ≤ alpha) (place : Nat) {value : K}
    (member : value ∈ values) : 0 ≤ message alpha (scan values) place value := by
  have own : signOf value = 1 := if_neg (not_lt.mpr (all value member))
  obtain ⟨least, next⟩ := scan_nonneg values
  have magnitude : 0 ≤ (if place = (scan values).argmin then (scan values).min2 else (scan values).min1).getD 0 := by
    have either (m : Option K) (all : ∀ x ∈ m, 0 ≤ x) : 0 ≤ m.getD 0 := by
      cases m with
      | none => exact le_rfl
      | some x => exact all x rfl
    split
    · exact either _ next
    · exact either _ least
  rw [message, scan_sign all, own, mul_one, mul_one]
  exact mul_nonneg some_ magnitude

/-- A value all of whose others are above zero is told something above zero. -/
theorem message_pos {values : List K} (all : ∀ v ∈ values, 0 ≤ v) (two : 2 ≤ values.length) {alpha : K} (some_ : 0 < alpha)
    {place : Nat} {value : K} (at_ : values[place]? = some value)
    (others : ∀ other v, other ≠ place → values[other]? = some v → 0 < v) : 0 < message alpha (scan values) place value := by
  have own : signOf value = 1 := if_neg (not_lt.mpr (all value (List.mem_of_getElem? at_)))
  obtain ⟨first, second⟩ := scan_finite two
  obtain ⟨least, next⟩ := found values
  have above {other : Nat} {v m : K} (apart : other ≠ place) (here : values[other]? = some v) (size : |v| = m) : 0 < m :=
    size ▸ abs_pos.mpr (others other v apart here).ne'
  have magnitude : 0 < (if place = (scan values).argmin then (scan values).min2 else (scan values).min1).getD 0 := by
    split
    · rename_i same
      obtain ⟨m, is⟩ := Option.isSome_iff_exists.mp second
      obtain ⟨other, v, apart, here, size⟩ := next m is
      rw [is]
      exact above (same ▸ apart) here size
    · rename_i apart
      obtain ⟨m, is⟩ := Option.isSome_iff_exists.mp first
      obtain ⟨v, here, size⟩ := least m is
      rw [is]
      exact above (Ne.symm apart) here size
  rw [message, scan_sign all, own, mul_one, mul_one]
  exact mul_pos some_ magnitude

/-! ### Signs turned -/

theorem signOf_turned {sign v : K} (is : sign = 1 ∨ sign = -1) (some_ : v ≠ 0) : signOf (sign * v) = sign * signOf v := by
  unfold signOf
  rcases is with rfl | rfl
  · rw [one_mul, one_mul]
  · rcases some_.lt_or_gt with below | above
    · rw [if_neg (by simpa using below.le), if_pos below]
      ring
    · rw [if_pos (by simpa using above), if_neg above.le.not_gt]
      ring

omit [IsStrictOrderedRing K] in
theorem abs_turned {sign : K} (is : sign = 1 ∨ sign = -1) (v : K) : |sign * v| = |v| := by
  rcases is with rfl | rfl
  · rw [one_mul]
  · rw [neg_one_mul, abs_neg]

/-- A least so far that is not zero. -/
def Positive (least : Option K) : Prop := ∀ m ∈ least, 0 < m

omit [IsStrictOrderedRing K] in
theorem Positive.under {least : Option K} (positive : Positive least) : under 0 least = true := by
  cases least with
  | none => rfl
  | some m => exact decide_eq_true (positive m rfl)

/-- What turning the signs of a check's values does to a pass over them. -/
structure Turned (pairs : List (K × K)) (s s' : Scan K) : Prop where
  min1 : s'.min1 = s.min1
  min2 : s'.min2 = s.min2
  argmin : s'.argmin = s.argmin
  /-- With no value zero the sign turns by all of them; with one, by all others, and it is the least;
  with more both leasts are zero. -/
  sign : (Positive s.min1 ∧ Positive s.min2 ∧ (∀ p ∈ pairs, p.2 ≠ 0) ∧ s'.sign = s.sign * (pairs.map Prod.fst).prod) ∨
    (s.min1 = some 0 ∧ Positive s.min2 ∧
      ∃ sign, pairs[s.argmin]? = some (sign, 0) ∧ s'.sign * sign = s.sign * (pairs.map Prod.fst).prod) ∨
    (s.min1 = some 0 ∧ s.min2 = some 0)

theorem turned (pairs : List (K × K)) (signs : ∀ p ∈ pairs, p.1 = 1 ∨ p.1 = -1) :
    Turned pairs (scan (pairs.map Prod.snd)) (scan (pairs.map fun p => p.1 * p.2)) := by
  induction pairs using List.reverseRecOn with
  | nil => exact ⟨rfl, rfl, rfl, .inl ⟨nofun, nofun, nofun, by simp⟩⟩
  | append_singleton front p ih =>
    obtain ⟨min1, min2, argmin, sign⟩ := ih fun p member => signs p (List.mem_append_left _ member)
    have last := signs p (List.mem_append_right _ (List.mem_singleton.mpr rfl))
    obtain ⟨e, v⟩ := p
    dsimp only at last
    have whole : ((front ++ [(e, v)]).map Prod.fst).prod = (front.map Prod.fst).prod * e := by simp
    simp only [List.map_append, List.map_cons, List.map_nil, scan_concat, List.length_map]
    generalize scan (front.map Prod.snd) = s at *
    generalize scan (front.map fun p => p.1 * p.2) = s' at *
    have mins : ((s'.take front.length (e * v)).min1 = (s.take front.length v).min1 ∧
        (s'.take front.length (e * v)).min2 = (s.take front.length v).min2) ∧
        (s'.take front.length (e * v)).argmin = (s.take front.length v).argmin := by
      unfold Scan.take
      simp only [abs_turned last, min1, min2]
      split
      · exact ⟨⟨rfl, rfl⟩, rfl⟩
      · split <;> exact ⟨⟨rfl, rfl⟩, argmin⟩
    refine ⟨mins.1.1, mins.1.2, mins.2, ?_⟩
    rw [Scan.take_sign, Scan.take_sign, whole]
    by_cases zero : v = 0
    · -- a zero is the least of those before it with none, and the next with one
      subst zero
      have plain : signOf (0 : K) = 1 := if_neg (lt_irrefl 0)
      rw [mul_zero, plain, mul_one, mul_one]
      rcases sign with ⟨above, -, -, sign⟩ | ⟨least, next, -⟩ | ⟨least, next⟩
      · refine .inr (.inl ?_)
        unfold Scan.take
        simp only [abs_zero, above.under, if_true]
        refine ⟨trivial, above, e, by simp, ?_⟩
        rw [sign]
        ring
      · refine .inr (.inr ?_)
        unfold Scan.take
        have beyond : under (0 : K) (some 0) = false := by simp [under]
        simp only [abs_zero, least, beyond, next.under, Bool.false_eq_true, if_false, if_true, and_self]
      · refine .inr (.inr ?_)
        unfold Scan.take
        simp [least, next, under]
    · have some_ : 0 < |v| := abs_pos.mpr zero
      have here : Positive (some |v|) := fun m is => Option.some.inj is ▸ some_
      have last' := signOf_turned last zero
      rcases sign with ⟨above, above', none_, sign⟩ | ⟨least, next, sign, at_, product⟩ | ⟨least, next⟩
      · refine .inl ⟨?_, ?_, ?_, ?_⟩
        · unfold Scan.take
          dsimp only
          split
          · exact here
          · split <;> exact above
        · unfold Scan.take
          dsimp only
          split
          · exact above
          · split
            · exact here
            · exact above'
        · intro p member
          rcases List.mem_append.mp member with before | is
          · exact none_ p before
          · exact List.mem_singleton.mp is ▸ zero
        · rw [sign, last']
          ring
      · have beyond : under |v| s.min1 = false := by simp [least, under]
        refine .inr (.inl ⟨?_, ?_, sign, ?_, ?_⟩)
        · unfold Scan.take
          simp only [beyond, Bool.false_eq_true, if_false]
          split <;> exact least
        · unfold Scan.take
          simp only [beyond, Bool.false_eq_true, if_false]
          split
          · exact here
          · exact next
        · have same : (s.take front.length v).argmin = s.argmin := by
            unfold Scan.take
            simp only [beyond, Bool.false_eq_true, if_false]
            split <;> rfl
          rw [same]
          exact List.getElem?_append_left (List.getElem?_eq_some_iff.mp at_).1 ▸ at_
        · calc s'.sign * signOf (e * v) * sign = s'.sign * sign * (e * signOf v) := by rw [last']; ring
            _ = s.sign * signOf v * ((front.map Prod.fst).prod * e) := by rw [product]; ring
      · refine .inr (.inr ?_)
        have beyond : under |v| (some 0) = false := by simp [under]
        unfold Scan.take
        simp only [least, next, beyond, Bool.false_eq_true, if_false, and_self]

/-- In a check whose signs multiply to one, what a value is told turns with its own. -/
theorem message_turned {pairs : List (K × K)} (signs : ∀ p ∈ pairs, p.1 = 1 ∨ p.1 = -1)
    (even : (pairs.map Prod.fst).prod = 1) (alpha : K) {place : Nat} {p : K × K} (at_ : pairs[place]? = some p) :
    message alpha (scan (pairs.map fun p => p.1 * p.2)) place (p.1 * p.2) =
      p.1 * message alpha (scan (pairs.map Prod.snd)) place p.2 := by
  obtain ⟨min1, min2, argmin, sign⟩ := turned pairs signs
  rw [even] at sign
  have own := signs p (List.mem_of_getElem? at_)
  unfold message
  rw [min1, min2, argmin]
  rcases sign with ⟨-, -, none_, sign⟩ | ⟨least, -, e, zero, sign⟩ | ⟨least, next⟩
  · rw [sign, signOf_turned own (none_ p (List.mem_of_getElem? at_))]
    ring
  · by_cases here : place = (scan (pairs.map Prod.snd)).argmin
    · -- the one zero: its own sign is not counted on either side
      rw [here] at at_
      obtain rfl := Option.some.inj (zero.symm.trans at_)
      have turn : (scan (pairs.map fun p => p.1 * p.2)).sign = (scan (pairs.map Prod.snd)).sign * e := by
        rw [mul_one] at sign
        rw [← sign, mul_assoc]
        rcases own with rfl | rfl <;> ring
      rw [if_pos here, turn, mul_zero]
      ring
    · rw [if_neg here, least]
      simp
  · rw [least, next, ite_self]
    simp

end

end AetherHF.MinSum
