import Mathlib.Algebra.Order.Field.Basic
import Mathlib.Algebra.Order.Field.Rat
import Mathlib.Data.List.Induction
import Mathlib.Tactic.Linarith
import AetherHF.Phy.Modes

/-! The constellations, hard and soft. A soft bit is the difference of the least squared distances to the points
that have the bit one and to those that have it zero, over the noise. -/
namespace AetherHF.Phy.Coding

open Fec

/-- A complex baseband sample. -/
abbrev Complex := ℚ × ℚ

/-- What the constellations take from the floating-point library: three square roots, and the cosine and sine of
each eighth of a turn. -/
structure Floats where
  sqrt2 : ℚ
  sqrt10 : ℚ
  sqrt42 : ℚ
  eighth : Nat → Complex

/-- The bits of an index, most significant first. -/
def bitsOf (index m : Nat) : Bytes := (List.range m).map fun i => ((index >>> (m - 1 - i)) &&& 1).toUInt8

/-- The index a group of bits is. -/
def indexOf (group : Bytes) : Nat := group.foldl (fun acc b => (acc <<< 1) ||| (b &&& 1).toNat) 0

/-- The groups of `n`, and none of what is left over. -/
def chunksExact {α : Type} (n : Nat) (xs : List α) : List (List α) :=
  (List.range (xs.length / n)).map fun i => (xs.drop (i * n)).take n

/-- The point of every index. -/
def pointsFor (f : Floats) (modulation : Modulation) : List Complex :=
  let order := List.range modulation.order
  let sign (index position : Nat) : ℚ := 1 - 2 * ((bitsOf index modulation.bitsPerSymbol).getD position 0).toNat
  match modulation with
  | .bpsk => order.map fun k => (sign k 0, 0)
  | .qpsk => order.map fun k => (sign k 0 * (1 / f.sqrt2), sign k 1 * (1 / f.sqrt2))
  | .psk8 => (List.range 8).foldl (fun out k => out.set (k ^^^ (k >>> 1)) (f.eighth k)) (List.replicate 8 (0, 0))
  | .qam16 => order.map fun k =>
    (sign k 0 * (2 - sign k 2) * (1 / f.sqrt10), sign k 1 * (2 - sign k 3) * (1 / f.sqrt10))
  | .qam64 => order.map fun k =>
    (sign k 0 * (4 - sign k 2 * (2 - sign k 4)) * (1 / f.sqrt42),
      sign k 1 * (4 - sign k 3 * (2 - sign k 5)) * (1 / f.sqrt42))

structure Constellation where
  modulation : Modulation
  bitsPerSymbol : Nat
  points : List Complex
  /-- By bit, the indices that have it zero. -/
  zeroIndices : List (List Nat)
  oneIndices : List (List Nat)

inductive NoiseVar where
  | uniform (value : ℚ)
  | perSymbol (values : List ℚ)

def NoiseVar.at (noise : NoiseVar) (symbol : Nat) : ℚ :=
  match noise with
  | uniform value => value
  | perSymbol values => values.getD symbol 0

def distance (y p : Complex) : ℚ := (y.1 - p.1) ^ 2 + (y.2 - p.2) ^ 2

/-- The least of some values, infinite of none. -/
def least (values : List ℚ) : Option ℚ :=
  values.foldl (fun acc d => some (match acc with | none => d | some a => min a d)) none

namespace Constellation

def new (f : Floats) (modulation : Modulation) : Constellation :=
  let m := modulation.bitsPerSymbol
  let points := pointsFor f modulation
  let having (p : UInt8 → Bool) : List (List Nat) := (List.range m).map fun position =>
    (List.range points.length).filter fun index => p ((bitsOf index m).getD position 0)
  ⟨modulation, m, points, having (· = 0), having (· ≠ 0)⟩

variable (c : Constellation)

/-- Bits onto points; the source panics at a number of bits that is not whole. -/
def map (bits : Bytes) : List Complex := (chunksExact c.bitsPerSymbol bits).map fun group => c.points.getD (indexOf group) (0, 0)

/-- The first of the nearest points. -/
def nearest (y : Complex) : Nat :=
  (c.points.zipIdx.foldl (fun (best : Nat × Option ℚ) p =>
    if (match best.2 with | none => true | some d => distance y p.1 < d) then (p.2, some (distance y p.1)) else best)
    (0, none)).1

/-- Nearest-point decisions. -/
def hard (symbols : List Complex) : Bytes := symbols.flatMap fun y => bitsOf (c.nearest y) c.bitsPerSymbol

/-- A symbol's soft bits, positive for zero. -/
def softBits (y : Complex) (nv : ℚ) : List ℚ :=
  (List.range c.bitsPerSymbol).map fun position =>
    let closest (indices : List Nat) : ℚ := (least (indices.map fun i => (c.points.map (distance y)).getD i 0)).getD 0
    (closest (c.oneIndices.getD position []) - closest (c.zeroIndices.getD position [])) / nv

def llr (symbols : List Complex) (noise : NoiseVar) : List ℚ :=
  symbols.zipIdx.flatMap fun s => c.softBits s.1 (noise.at s.2)

end Constellation

/-! ### Bits and indices -/

theorem length_bitsOf (index m : Nat) : (bitsOf index m).length = m := by rw [bitsOf, List.length_map, List.length_range]

theorem indexOf_concat (front : Bytes) (b : UInt8) : indexOf (front ++ [b]) = 2 * indexOf front + (b &&& 1).toNat := by
  have bit : (b &&& 1).toNat < 2 := by
    rw [UInt8.toNat_and]
    exact Nat.lt_of_le_of_lt Nat.and_le_right (by decide)
  rw [indexOf, List.foldl_append, List.foldl_cons, List.foldl_nil, ← indexOf, Nat.shiftLeft_eq, pow_one, Nat.mul_comm]
  exact (Nat.two_pow_add_eq_or_of_lt (i := 1) bit _).symm

theorem bitsOf_succ (index m : Nat) (b : UInt8) (bit : b = 0 ∨ b = 1) :
    bitsOf (2 * index + (b &&& 1).toNat) (m + 1) = bitsOf index m ++ [b] := by
  unfold bitsOf
  rw [List.range_succ, List.map_append, List.map_singleton]
  congr 1
  · refine List.map_congr_left fun i member => ?_
    have short := List.mem_range.mp member
    have less : m + 1 - 1 - i = m - 1 - i + 1 := by omega
    have half : (2 * index + (b &&& 1).toNat) / 2 = index := by
      rcases bit with rfl | rfl
      · exact Nat.mul_div_cancel_left _ (by decide)
      · change (2 * index + 1) / 2 = index
        omega
    rw [less, Nat.shiftRight_succ_inside, half]
  · rw [Nat.add_sub_cancel, Nat.sub_self, Nat.shiftRight_zero, Nat.and_one_is_mod, Nat.mul_add_mod]
    rcases bit with rfl | rfl <;> rfl

/-- A group's index has the group's bits. -/
theorem bitsOf_indexOf {group : Bytes} (bits : ∀ b ∈ group, b = 0 ∨ b = 1) : bitsOf (indexOf group) group.length = group := by
  induction group using List.reverseRecOn with
  | nil => rfl
  | append_singleton front b ih =>
    rw [indexOf_concat, List.length_append, List.length_singleton,
      bitsOf_succ _ _ _ (bits b (List.mem_append_right _ (List.mem_singleton.mpr rfl))),
      ih fun b member => bits b (List.mem_append_left _ member)]

theorem indexOf_lt (group : Bytes) : indexOf group < 2 ^ group.length := by
  induction group using List.reverseRecOn with
  | nil => exact Nat.one_pos
  | append_singleton front b ih =>
    have bit : (b &&& 1).toNat < 2 := by
      rw [UInt8.toNat_and]
      exact Nat.lt_of_le_of_lt Nat.and_le_right (by decide)
    rw [indexOf_concat, List.length_append, List.length_singleton, Nat.pow_succ]
    omega

/-! ### Groups -/

section
variable {α β : Type}

theorem length_chunksExact (n : Nat) (xs : List α) : (chunksExact n xs).length = xs.length / n := by
  rw [chunksExact, List.length_map, List.length_range]

theorem getElem?_chunksExact {n i : Nat} {xs : List α} (inside : i < xs.length / n) :
    (chunksExact n xs)[i]? = some ((xs.drop (i * n)).take n) := by
  rw [chunksExact, List.getElem?_map, List.getElem?_range inside, Option.map_some]

/-- A group is whole. -/
theorem mem_chunksExact {n : Nat} {xs group : List α} (member : group ∈ chunksExact n xs) :
    group.length = n ∧ ∀ x ∈ group, x ∈ xs := by
  obtain ⟨i, inside, rfl⟩ := List.mem_map.mp member
  have room := List.mem_range.mp inside
  refine ⟨?_, fun x member => List.mem_of_mem_drop (List.mem_of_mem_take member)⟩
  have most : (i + 1) * n ≤ xs.length := (Nat.mul_le_mul_right n room).trans (Nat.div_mul_le_self ..)
  rw [Nat.succ_mul] at most
  rw [List.length_take, List.length_drop]
  omega

theorem length_flatMap_const {m : Nat} {f : α → List β} (each : ∀ x, (f x).length = m) (xs : List α) :
    (xs.flatMap f).length = xs.length * m := by
  induction xs with
  | nil => exact (Nat.zero_mul m).symm
  | cons x rest ih => rw [List.flatMap_cons, List.length_append, each, ih, List.length_cons, Nat.succ_mul, Nat.add_comm]

theorem getElem?_flatMap_const {m : Nat} {f : α → List β} (each : ∀ x, (f x).length = m) {xs : List α} {i position : Nat}
    (short : position < m) : (xs.flatMap f)[i * m + position]? = xs[i]?.bind fun x => (f x)[position]? := by
  induction xs generalizing i with
  | nil => rfl
  | cons x rest ih =>
    rw [List.flatMap_cons]
    cases i with
    | zero => rw [Nat.zero_mul, Nat.zero_add, List.getElem?_append_left (by rw [each]; exact short)]; rfl
    | succ i =>
      have past : (f x).length ≤ (i + 1) * m + position := by
        rw [each, Nat.succ_mul]
        omega
      have back : (i + 1) * m + position - (f x).length = i * m + position := by
        rw [each, Nat.succ_mul]
        omega
      rw [List.getElem?_append_right past, back, ih]
      rfl

end

/-! ### The two decisions -/

/-- The least of some values is one of them. -/
theorem least_mem {values : List ℚ} (some_ : values ≠ []) :
    ∃ d, least values = some d ∧ d ∈ values ∧ ∀ x ∈ values, d ≤ x := by
  induction values using List.reverseRecOn with
  | nil => exact absurd rfl some_
  | append_singleton front v ih =>
    rw [least, List.foldl_append, List.foldl_cons, List.foldl_nil, ← least]
    rcases eq_or_ne front [] with rfl | more
    · exact ⟨v, rfl, List.mem_singleton.mpr rfl, fun x member => (List.mem_singleton.mp member).ge⟩
    · obtain ⟨d, is, member, all⟩ := ih more
      rw [is]
      refine ⟨min d v, rfl, ?_, fun x among => ?_⟩
      · rcases min_choice d v with first | last
        · rw [first]
          exact List.mem_append_left _ member
        · rw [last]
          exact List.mem_append_right _ (List.mem_singleton.mpr rfl)
      · rcases List.mem_append.mp among with before | here
        · exact (min_le_left ..).trans (all x before)
        · exact List.mem_singleton.mp here ▸ min_le_right ..

theorem length_pointsFor (f : Floats) (modulation : Modulation) : (pointsFor f modulation).length = modulation.order := by
  cases modulation
  case psk8 => rfl
  all_goals exact (List.length_map _).trans List.length_range

/-- The bit of a point. -/
def Modulation.bit (modulation : Modulation) (index position : Nat) : UInt8 :=
  (bitsOf index modulation.bitsPerSymbol).getD position 0

theorem bit_cases (modulation : Modulation) : ∀ index < modulation.order, ∀ position < modulation.bitsPerSymbol,
    modulation.bit index position = 0 ∨ modulation.bit index position = 1 := by
  cases modulation <;> decide +kernel

/-- Each bit is zero of some points and one of others. -/
theorem bit_both (modulation : Modulation) : ∀ position < modulation.bitsPerSymbol,
    (∃ index < modulation.order, modulation.bit index position = 0) ∧
      ∃ index < modulation.order, modulation.bit index position ≠ 0 := by
  cases modulation <;> decide +kernel

namespace Constellation

variable (f : Floats) (modulation : Modulation)

/-- The distance to the point of an index. -/
def away (c : Constellation) (y : Complex) (index : Nat) : ℚ := (c.points.map (distance y)).getD index 0

/-- A soft bit is the difference between the nearest point with the bit one and the nearest with it zero. -/
theorem softBits_nearest (y : Complex) (nv : ℚ) {position : Nat} (short : position < modulation.bitsPerSymbol) :
    ∃ on < modulation.order, ∃ off < modulation.order,
      ((new f modulation).softBits y nv)[position]? =
        some (((new f modulation).away y on - (new f modulation).away y off) / nv) ∧
      (modulation.bit on position ≠ 0 ∧ modulation.bit off position = 0) ∧
      ∀ index < modulation.order,
        (modulation.bit index position ≠ 0 → (new f modulation).away y on ≤ (new f modulation).away y index) ∧
        (modulation.bit index position = 0 → (new f modulation).away y off ≤ (new f modulation).away y index) := by
  -- the nearest of those points that have the bit so
  have closest (p : UInt8 → Bool) (some_ : ∃ index < modulation.order, p (modulation.bit index position) = true) :
      ∃ index < modulation.order, p (modulation.bit index position) = true ∧
        (least (((List.range modulation.order).filter fun index => p (modulation.bit index position)).map
          ((new f modulation).away y))).getD 0 = (new f modulation).away y index ∧
        ∀ other < modulation.order, p (modulation.bit other position) = true →
          (new f modulation).away y index ≤ (new f modulation).away y other := by
    obtain ⟨index, inside, has⟩ := some_
    have member : index ∈ (List.range modulation.order).filter fun index => p (modulation.bit index position) :=
      List.mem_filter.mpr ⟨List.mem_range.mpr inside, has⟩
    obtain ⟨d, is, among, all⟩ := least_mem (List.ne_nil_of_mem (List.mem_map_of_mem (f := (new f modulation).away y) member))
    obtain ⟨nearest, kept, rfl⟩ := List.mem_map.mp among
    obtain ⟨inside', has'⟩ := List.mem_filter.mp kept
    refine ⟨nearest, List.mem_range.mp inside', has', by rw [is, Option.getD_some], fun other short has'' => ?_⟩
    exact all _ (List.mem_map_of_mem (List.mem_filter.mpr ⟨List.mem_range.mpr short, has''⟩))
  obtain ⟨zeros, ones⟩ := bit_both modulation position short
  obtain ⟨on, inside, isOne, leastOne, allOne⟩ := closest (· ≠ 0) (by simpa using ones)
  obtain ⟨off, inside', isZero, leastZero, allZero⟩ := closest (· = 0) (by simpa using zeros)
  refine ⟨on, inside, off, inside', ?_, ⟨by simpa using isOne, by simpa using isZero⟩, fun index within => ⟨fun has => ?_,
    fun has => ?_⟩⟩
  · have table (p : UInt8 → Bool) : ((List.range modulation.bitsPerSymbol).map fun position =>
        (List.range (pointsFor f modulation).length).filter fun index =>
          p ((bitsOf index modulation.bitsPerSymbol).getD position 0)).getD position [] =
        (List.range modulation.order).filter fun index => p (modulation.bit index position) := by
      rw [List.getD_eq_getElem _ _ (by simpa using short), List.getElem_map, List.getElem_range, length_pointsFor]
      rfl
    rw [← leastOne, ← leastZero, softBits, List.getElem?_map]
    have place : (List.range (new f modulation).bitsPerSymbol)[position]? = some position := List.getElem?_range short
    rw [place, Option.map_some]
    dsimp only
    rw [show (new f modulation).oneIndices.getD position [] = _ from table (· ≠ 0),
      show (new f modulation).zeroIndices.getD position [] = _ from table (· = 0)]
    rfl
  · exact allOne index within (by simpa using has)
  · exact allZero index within (by simpa using has)

/-- The nearest point is the first than which none is nearer. -/
theorem nearest_least (y : Complex) : (new f modulation).nearest y < modulation.order ∧
    ∀ index < modulation.order, (new f modulation).away y ((new f modulation).nearest y) ≤ (new f modulation).away y index := by
  have scan (points : List Complex) (some_ : points ≠ []) : ∃ best d,
      points.zipIdx.foldl (fun (best : Nat × Option ℚ) p =>
        if (match best.2 with | none => true | some d => distance y p.1 < d) then (p.2, some (distance y p.1)) else best)
        (0, none) = (best, some d) ∧ (points.map (distance y))[best]? = some d ∧ ∀ x ∈ points.map (distance y), d ≤ x := by
    induction points using List.reverseRecOn with
    | nil => exact absurd rfl some_
    | append_singleton front p ih =>
      rw [List.zipIdx_append, List.foldl_append, List.map_append]
      have last : (front.map (distance y) ++ [p].map (distance y))[front.length]? = some (distance y p) := by
        rw [List.getElem?_append_right (by rw [List.length_map]), List.length_map, Nat.sub_self]
        rfl
      rcases eq_or_ne front [] with rfl | more
      · exact ⟨0, distance y p, rfl, rfl, fun x member => (List.mem_singleton.mp member).ge⟩
      obtain ⟨best, d, is, at_, all⟩ := ih more
      rw [is, Nat.zero_add, List.zipIdx_singleton, List.foldl_cons, List.foldl_nil]
      dsimp only
      by_cases nearer : distance y p < d
      · refine ⟨front.length, distance y p, if_pos (decide_eq_true nearer), last, fun x member => ?_⟩
        rcases List.mem_append.mp member with before | here
        · exact nearer.le.trans (all x before)
        · exact (List.mem_singleton.mp here).ge
      · refine ⟨best, d, if_neg (by simpa using nearer), ?_, fun x member => ?_⟩
        · rw [List.getElem?_append_left (List.getElem?_eq_some_iff.mp at_).1, at_]
        · rcases List.mem_append.mp member with before | here
          · exact all x before
          · exact (List.mem_singleton.mp here) ▸ not_lt.mp nearer
  have length : (new f modulation).points.length = modulation.order := length_pointsFor f modulation
  have order : 0 < modulation.order := Nat.two_pow_pos _ |>.trans_eq (Nat.one_shiftLeft _).symm
  obtain ⟨best, d, is, at_, all⟩ := scan (new f modulation).points (List.ne_nil_of_length_pos (length ▸ order))
  have found : (new f modulation).nearest y = best := congrArg Prod.fst is
  have value : (new f modulation).away y best = d := by rw [away, List.getD_eq_getElem?_getD, at_, Option.getD_some]
  have inside := (List.getElem?_eq_some_iff.mp at_).1
  rw [List.length_map, length] at inside
  refine ⟨found ▸ inside, fun index short => ?_⟩
  rw [found, value]
  have room : index < ((new f modulation).points.map (distance y)).length := by rw [List.length_map, length]; exact short
  rw [away, List.getD_eq_getElem _ _ room]
  exact all _ (List.getElem_mem room)

/-- A soft bit is on the side of the nearest point's bit. -/
theorem softBits_hard (y : Complex) {nv : ℚ} (some_ : 0 < nv) {position : Nat} (short : position < modulation.bitsPerSymbol) :
    ∃ l, ((new f modulation).softBits y nv)[position]? = some l ∧
      (0 < l → modulation.bit ((new f modulation).nearest y) position = 0) ∧
      (l < 0 → modulation.bit ((new f modulation).nearest y) position = 1) := by
  obtain ⟨inside, all⟩ := nearest_least f modulation y
  obtain ⟨on, short', off, short'', is, -, least⟩ := softBits_nearest f modulation y nv short
  obtain ⟨leastOn, leastOff⟩ := least _ inside
  refine ⟨_, is, fun positive => ?_, fun negative => ?_⟩
  · by_contra one_
    have lower := leastOn one_
    have upper := all off short''
    rw [div_pos_iff_of_pos_right some_] at positive
    linarith
  · by_contra zero
    have lower := leastOff ((bit_cases modulation _ inside position short).resolve_right zero)
    have upper := all on short'
    rw [div_neg_iff] at negative
    rcases negative with ⟨-, below⟩ | ⟨below, -⟩ <;> linarith

/-- Nearer to the point of an index than to any other. -/
def Closest (c : Constellation) (y : Complex) (index : Nat) : Prop :=
  index < c.points.length ∧ ∀ other < c.points.length, other ≠ index → c.away y index < c.away y other

theorem Closest.nearest {y : Complex} {index : Nat} (closest : (new f modulation).Closest y index) :
    (new f modulation).nearest y = index := by
  obtain ⟨inside, strict⟩ := closest
  obtain ⟨within, all⟩ := nearest_least f modulation y
  have length : (new f modulation).points.length = modulation.order := length_pointsFor f modulation
  rw [length] at inside strict
  by_contra apart
  exact (strict _ within apart).not_ge (all index inside)

/-- Nearest one point of all, a symbol's soft bits have its bits' signs. -/
theorem softBits_closest {y : Complex} {index : Nat} (closest : (new f modulation).Closest y index) {nv : ℚ} (some_ : 0 < nv)
    {position : Nat} (short : position < modulation.bitsPerSymbol) :
    ∃ l, ((new f modulation).softBits y nv)[position]? = some l ∧
      (modulation.bit index position = 1 → l < 0) ∧ (modulation.bit index position = 0 → 0 < l) := by
  obtain ⟨inside, strict⟩ := closest
  have length : (new f modulation).points.length = modulation.order := length_pointsFor f modulation
  rw [length] at inside strict
  obtain ⟨on, short', off, short'', is, ⟨isOn, isOff⟩, least⟩ := softBits_nearest f modulation y nv short
  obtain ⟨leastOn, leastOff⟩ := least _ inside
  have one_ : (1 : UInt8) ≠ 0 := by decide
  refine ⟨_, is, fun has => ?_, fun has => ?_⟩
  · have apart : off ≠ index := fun same => one_ (has.symm.trans (same ▸ isOff))
    exact div_neg_of_neg_of_pos (by linarith [strict off short'' apart, leastOn (has ▸ one_)]) some_
  · have apart : on ≠ index := fun same => isOn (same ▸ has)
    exact div_pos (by linarith [strict on short' apart, leastOff has]) some_

/-! ### Whole frames -/

/-- A noise above zero for each symbol. -/
def Noisy (noise : NoiseVar) (symbols : List Complex) : Prop := ∀ i < symbols.length, 0 < noise.at i

theorem length_softBits (c : Constellation) (y : Complex) (nv : ℚ) : (c.softBits y nv).length = c.bitsPerSymbol := by
  rw [softBits, List.length_map, List.length_range]

theorem length_llr (c : Constellation) (symbols : List Complex) (noise : NoiseVar) :
    (c.llr symbols noise).length = symbols.length * c.bitsPerSymbol := by
  have each (s : Complex × Nat) : (c.softBits s.1 (noise.at s.2)).length = c.bitsPerSymbol := length_softBits ..
  rw [llr, length_flatMap_const each, List.length_zipIdx]

theorem length_hard (c : Constellation) (symbols : List Complex) :
    (c.hard symbols).length = symbols.length * c.bitsPerSymbol :=
  length_flatMap_const (fun _ => length_bitsOf ..) symbols

variable {f modulation}

/-- The symbol of a bit, and the bit's place in it. -/
theorem place_eq {symbols : List Complex} {p : Nat} (inside : p < symbols.length * modulation.bitsPerSymbol) :
    ∃ i position y, p = i * modulation.bitsPerSymbol + position ∧ position < modulation.bitsPerSymbol ∧ symbols[i]? = some y := by
  have positive : 0 < modulation.bitsPerSymbol := by cases modulation <;> decide
  have short : p / modulation.bitsPerSymbol < symbols.length := (Nat.div_lt_iff_lt_mul positive).mpr inside
  exact ⟨_, _, _, (Nat.div_add_mod' p _).symm, Nat.mod_lt _ positive, List.getElem?_eq_getElem short⟩

theorem llr_place {symbols : List Complex} {noise : NoiseVar} {i position : Nat} {y : Complex}
    (short : position < modulation.bitsPerSymbol) (at_ : symbols[i]? = some y) :
    ((new f modulation).llr symbols noise)[i * modulation.bitsPerSymbol + position]? =
      ((new f modulation).softBits y (noise.at i))[position]? := by
  have each (s : Complex × Nat) : ((new f modulation).softBits s.1 (noise.at s.2)).length = modulation.bitsPerSymbol :=
    length_softBits ..
  rw [llr, getElem?_flatMap_const each short, List.getElem?_zipIdx, at_, Nat.zero_add]
  rfl

theorem hard_place {symbols : List Complex} {i position : Nat} {y : Complex} (short : position < modulation.bitsPerSymbol)
    (at_ : symbols[i]? = some y) : ((new f modulation).hard symbols)[i * modulation.bitsPerSymbol + position]? =
      some (modulation.bit ((new f modulation).nearest y) position) := by
  have each (y : Complex) : (bitsOf ((new f modulation).nearest y) modulation.bitsPerSymbol).length = modulation.bitsPerSymbol :=
    length_bitsOf ..
  have place : position < (bitsOf ((new f modulation).nearest y) modulation.bitsPerSymbol).length := (each y).symm ▸ short
  refine (getElem?_flatMap_const each short).trans ?_
  rw [at_, Option.bind_some, List.getElem?_eq_getElem place, Modulation.bit, List.getD_eq_getElem _ _ place]

/-- A frame received with each symbol nearer to the point sent than to any other. -/
def Received (c : Constellation) (bits : Bytes) (symbols : List Complex) : Prop :=
  List.Forall₂ (fun group y => c.Closest y (indexOf group)) (chunksExact c.bitsPerSymbol bits) symbols

variable {bits : Bytes} {symbols : List Complex}

/-- The symbol of a bit received so, and the bit as its point has it. -/
theorem Received.place (received : (new f modulation).Received bits symbols) (all : ∀ b ∈ bits, b = 0 ∨ b = 1)
    (whole : modulation.bitsPerSymbol ∣ bits.length) {p : Nat} (inside : p < bits.length) :
    ∃ i position y index, p = i * modulation.bitsPerSymbol + position ∧ position < modulation.bitsPerSymbol ∧
      symbols[i]? = some y ∧ (new f modulation).Closest y index ∧ modulation.bit index position = bits.getD p 0 := by
  have count : (chunksExact modulation.bitsPerSymbol bits).length = symbols.length := received.length_eq
  rw [length_chunksExact] at count
  rw [← Nat.div_mul_cancel whole, count] at inside
  obtain ⟨i, position, y, rfl, short, at_⟩ := place_eq inside
  have within : i < bits.length / modulation.bitsPerSymbol := count ▸ (List.getElem?_eq_some_iff.mp at_).1
  have group := getElem?_chunksExact within
  obtain ⟨size, among⟩ := mem_chunksExact (List.mem_of_getElem? group)
  have closest : (new f modulation).Closest y (indexOf ((bits.drop (i * modulation.bitsPerSymbol)).take modulation.bitsPerSymbol)) := by
    obtain ⟨short, is⟩ := List.getElem?_eq_some_iff.mp group
    obtain ⟨short', is'⟩ := List.getElem?_eq_some_iff.mp at_
    exact is ▸ is' ▸ (List.forall₂_iff_get.mp received).2 i short short'
  refine ⟨i, position, y, _, rfl, short, at_, closest, ?_⟩
  have known := bitsOf_indexOf fun b member => all b (among b member)
  rw [size] at known
  rw [Modulation.bit, known, List.getD_eq_getElem?_getD, List.getElem?_take_of_lt short, List.getElem?_drop,
    ← List.getD_eq_getElem?_getD]

/-- Received so, a frame's hard decisions are its bits, and its soft ones have their signs. -/
theorem Received.decided (received : (new f modulation).Received bits symbols) (all : ∀ b ∈ bits, b = 0 ∨ b = 1)
    (whole : modulation.bitsPerSymbol ∣ bits.length) {noise : NoiseVar} (noisy : Noisy noise symbols) :
    (new f modulation).hard symbols = bits ∧ ((new f modulation).llr symbols noise).length = bits.length ∧
      ∀ p < bits.length, (bits.getD p 0 = 1 → ((new f modulation).llr symbols noise).getD p 0 < 0) ∧
        (bits.getD p 0 = 0 → 0 < ((new f modulation).llr symbols noise).getD p 0) := by
  have count : (chunksExact modulation.bitsPerSymbol bits).length = symbols.length := received.length_eq
  rw [length_chunksExact] at count
  have total : symbols.length * modulation.bitsPerSymbol = bits.length := by rw [← count, Nat.div_mul_cancel whole]
  have hards : ((new f modulation).hard symbols).length = symbols.length * modulation.bitsPerSymbol := length_hard ..
  refine ⟨?_, (length_llr ..).trans total, fun p inside => ?_⟩
  · refine List.ext_getElem? fun p => ?_
    rcases Nat.lt_or_ge p bits.length with inside | beyond
    · obtain ⟨i, position, y, index, rfl, short, at_, closest, bit⟩ := received.place all whole inside
      rw [hard_place short at_, closest.nearest, bit, List.getElem?_eq_getElem inside, List.getD_eq_getElem _ _ inside]
    · rw [List.getElem?_eq_none beyond, List.getElem?_eq_none ((hards.trans total).trans_le beyond)]
  · obtain ⟨i, position, y, index, rfl, short, at_, closest, bit⟩ := received.place all whole inside
    obtain ⟨l, is, signs⟩ := softBits_closest f modulation closest (noisy i (List.getElem?_eq_some_iff.mp at_).1) short
    rw [← bit, List.getD_eq_getElem?_getD, llr_place short at_, is]
    exact signs

/-- The points sent are received so, where no two are the same. -/
theorem received_map (f : Floats) (distinct : (pointsFor f modulation).Nodup) (bits : Bytes) :
    (new f modulation).Received bits ((new f modulation).map bits) := by
  refine List.forall₂_map_right_iff.mpr (List.forall₂_same.mpr fun group member => ?_)
  have length : (pointsFor f modulation).length = modulation.order := length_pointsFor f modulation
  have inside : indexOf group < (pointsFor f modulation).length := by
    have least := indexOf_lt group
    rw [(mem_chunksExact member).1] at least
    rw [length, Modulation.order, Nat.one_shiftLeft]
    exact least
  have away_ {y : Complex} {index : Nat} (short : index < (pointsFor f modulation).length) :
      (new f modulation).away y index = distance y (pointsFor f modulation)[index] := by
    have room : index < ((pointsFor f modulation).map (distance y)).length := (List.length_map _).symm ▸ short
    exact (List.getD_eq_getElem _ _ room).trans (List.getElem_map _)
  refine ⟨inside, fun other short apart => ?_⟩
  have sent : (new f modulation).points.getD (indexOf group) (0, 0) = (pointsFor f modulation)[indexOf group] :=
    List.getD_eq_getElem _ _ inside
  have differ : (pointsFor f modulation)[indexOf group] ≠ (pointsFor f modulation)[other] :=
    fun same => apart (distinct.getElem_inj_iff.mp same).symm
  rw [sent, away_ inside, away_ short]
  generalize (pointsFor f modulation)[indexOf group] = p at differ
  generalize (pointsFor f modulation)[other] = q at differ
  have zero : distance p p = 0 := by
    unfold distance
    ring
  rw [zero]
  unfold distance
  rcases eq_or_ne p.1 q.1 with same | away
  · have other : p.2 ≠ q.2 := fun same' => differ (Prod.ext same same')
    exact add_pos_of_nonneg_of_pos (sq_nonneg _) (sq_pos_of_ne_zero (sub_ne_zero.mpr other))
  · exact add_pos_of_pos_of_nonneg (sq_pos_of_ne_zero (sub_ne_zero.mpr away)) (sq_nonneg _)

/-- Hard and soft agree: whatever is received, a soft bit above zero is a hard zero and one below it a hard one;
and what is sent comes back of both, with any noise that leaves each symbol nearest its own point. -/
theorem decisions_agree (f : Floats) (modulation : Modulation) :
    (∀ symbols noise, Noisy noise symbols →
      ((new f modulation).hard symbols).length = ((new f modulation).llr symbols noise).length ∧
      ∀ p < ((new f modulation).llr symbols noise).length,
        (0 < ((new f modulation).llr symbols noise).getD p 0 → ((new f modulation).hard symbols).getD p 0 = 0) ∧
        (((new f modulation).llr symbols noise).getD p 0 < 0 → ((new f modulation).hard symbols).getD p 0 = 1)) ∧
    ((pointsFor f modulation).Nodup → ∀ bits, (∀ b ∈ bits, b = 0 ∨ b = 1) → modulation.bitsPerSymbol ∣ bits.length →
      (new f modulation).Received bits ((new f modulation).map bits)) ∧
    ∀ bits symbols noise, (∀ b ∈ bits, b = 0 ∨ b = 1) → modulation.bitsPerSymbol ∣ bits.length →
      (new f modulation).Received bits symbols → Noisy noise symbols →
      (new f modulation).hard symbols = bits ∧
      ∀ p < bits.length, (bits.getD p 0 = 1 → ((new f modulation).llr symbols noise).getD p 0 < 0) ∧
        (bits.getD p 0 = 0 → 0 < ((new f modulation).llr symbols noise).getD p 0) := by
  refine ⟨fun symbols noise noisy => ?_, fun distinct bits _ _ => received_map f distinct bits,
    fun bits symbols noise all whole received noisy => ?_⟩
  · refine ⟨(length_hard ..).trans (length_llr ..).symm, fun p inside => ?_⟩
    rw [length_llr] at inside
    obtain ⟨i, position, y, rfl, short, at_⟩ := place_eq inside
    obtain ⟨l, is, signs⟩ := softBits_hard f modulation y (noisy i (List.getElem?_eq_some_iff.mp at_).1) short
    rw [List.getD_eq_getElem?_getD, llr_place short at_, is, List.getD_eq_getElem?_getD, hard_place short at_]
    exact signs
  · obtain ⟨decisions, -, signs⟩ := received.decided all whole noisy
    exact ⟨decisions, signs⟩

/-- Two symbols of sixteen points. -/
theorem decisions_agree_qam16 : ∃ f, (new f .qam16).hard ((new f .qam16).map [0, 1, 1, 0, 1, 0, 0, 0]) = [0, 1, 1, 0, 1, 0, 0, 0] := by
  let f : Floats := ⟨7 / 5, 3, 13 / 2, fun k => (k, 0)⟩
  obtain ⟨-, sent, decided⟩ := decisions_agree f .qam16
  have bits : ∀ b ∈ ([0, 1, 1, 0, 1, 0, 0, 0] : Bytes), b = 0 ∨ b = 1 := by simp
  have received := sent (by decide +kernel) [0, 1, 1, 0, 1, 0, 0, 0] bits (by decide)
  exact ⟨f, (decided _ _ (.uniform 1) bits (by decide) received fun _ _ => one_pos).1⟩

end Constellation

end AetherHF.Phy.Coding
