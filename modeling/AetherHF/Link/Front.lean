import AetherHF.Base.Pareto
import AetherHF.Link.RateTries

/-! The rungs worth choosing of a table: its front by throughput and threshold, and a rung of it for
the controller whatever is called. -/
namespace AetherHF.Link

/-- A table of rungs: a threshold, a payload and an air time each. -/
structure RungTable (thresholds : List ℚ) (payload : List Nat) (frameS : List ℚ) : Prop where
  some_ : thresholds ≠ []
  payloads : payload.length = thresholds.length
  times : frameS.length = thresholds.length
  air : ∀ s ∈ frameS, 0 < s

variable (thresholds : List ℚ) (payload : List Nat) (frameS : List ℚ)

/-- Data bytes a second a rung carries. -/
def worth (m : Nat) : ℚ := ((payload.getD m 0 - dataHeaderBytes : Nat) : ℚ) / frameS.getD m 0

/-- A rung is at least another's worth at no higher a threshold. -/
def Matches (o m : Nat) : Prop :=
  worth payload frameS m ≤ worth payload frameS o ∧ thresholds.getD o 0 ≤ thresholds.getD m 0

def Beats (o m : Nat) : Prop :=
  Matches thresholds payload frameS o m ∧
    (worth payload frameS m < worth payload frameS o ∨ thresholds.getD o 0 < thresholds.getD m 0)

def Unbeaten (m : Nat) : Prop := ∀ o < thresholds.length, ¬Beats thresholds payload frameS o m

/-- The front of a table: in order, of rungs of it that no rung beats, and that match every rung. -/
structure IsFront (rungs : List Nat) : Prop where
  some_ : rungs ≠ []
  ascending : rungs.Pairwise (· < ·)
  among : ∀ m ∈ rungs, m < thresholds.length
  unbeaten : ∀ m ∈ rungs, Unbeaten thresholds payload frameS m
  covers : ∀ a < thresholds.length, ∃ m ∈ rungs, Matches thresholds payload frameS m a

/-- No two rungs that none beats have the same worth at the same threshold. -/
def NoTies : Prop :=
  ∀ a < thresholds.length, ∀ b < thresholds.length, a ≠ b → Unbeaten thresholds payload frameS a →
    ¬(worth payload frameS a = worth payload frameS b ∧ thresholds.getD a 0 = thresholds.getD b 0)

/-- Where a rung stands: the more the better, and the lower. -/
def standing (m : Nat) : ℚ × ℚᵒᵈ := (worth payload frameS m, OrderDual.toDual (thresholds.getD m 0))

variable {thresholds payload frameS} {o m : Nat}

theorem standing_le : standing thresholds payload frameS m ≤ standing thresholds payload frameS o ↔
    Matches thresholds payload frameS o m := Iff.rfl

theorem standing_lt : standing thresholds payload frameS m < standing thresholds payload frameS o ↔
    Beats thresholds payload frameS o m := by
  rw [lt_iff_le_not_ge, standing_le, standing_le]
  refine and_congr_right fun _ => ?_
  rw [Matches, not_and_or, not_le, not_le]

theorem standing_eq : standing thresholds payload frameS o = standing thresholds payload frameS m ↔
    worth payload frameS o = worth payload frameS m ∧ thresholds.getD o 0 = thresholds.getD m 0 := by
  rw [standing, standing, Prod.mk.injEq, OrderDual.toDual_inj]

theorem unbeaten_iff (inside : m < thresholds.length) : Unbeaten thresholds payload frameS m ↔
    MaximalFor (· ∈ Finset.range thresholds.length) (standing thresholds payload frameS) m := by
  rw [Pareto.maximalFor_iff]
  simp [Unbeaten, standing_lt, inside]

/-- A usable rung is one no other matches. -/
theorem mem_usableModesByRate : m ∈ usableModesByRate thresholds payload frameS ↔
    Pareto.Alone (Finset.range thresholds.length) (standing thresholds payload frameS) m := by
  simp only [usableModesByRate, List.mem_filter, List.mem_range, Bool.not_eq_true', List.any_eq_false, Pareto.Alone,
    Finset.mem_range, standing_le, Matches, worth]
  refine and_congr_right fun _ => forall₂_congr fun o _ => ?_
  grind

theorem noTies_iff : NoTies thresholds payload frameS ↔
    Pareto.Apart (Finset.range thresholds.length) (standing thresholds payload frameS) := by
  constructor
  · intro noTies a b first second same
    have inside := Finset.mem_range.mp first.1
    by_contra other
    exact noTies a inside b (Finset.mem_range.mp second.1) other ((unbeaten_iff inside).mpr first) (standing_eq.mp same)
  · intro apart a inside b inside' other unbeaten same
    have first := (unbeaten_iff inside).mp unbeaten
    have same := standing_eq.mpr same
    refine other (apart a b first ⟨Finset.mem_range.mpr inside', fun x member past => ?_⟩ same)
    exact same ▸ first.2 member (same.le.trans past)

/-- The usable rungs are the front but for ties. -/
theorem isFront_iff (some_ : thresholds ≠ []) :
    IsFront thresholds payload frameS (usableModesByRate thresholds payload frameS) ↔ NoTies thresholds payload frameS := by
  rw [noTies_iff, ← Pareto.covers_iff]
  constructor
  · intro front a member
    obtain ⟨m, usable, matches_⟩ := front.covers a (Finset.mem_range.mp member)
    exact ⟨m, mem_usableModesByRate.mp usable, matches_⟩
  · intro covers
    have covered (a : Nat) (inside : a < thresholds.length) :
        ∃ m ∈ usableModesByRate thresholds payload frameS, Matches thresholds payload frameS m a := by
      obtain ⟨m, alone, matches_⟩ := covers a (Finset.mem_range.mpr inside)
      exact ⟨m, mem_usableModesByRate.mpr alone, matches_⟩
    obtain ⟨m, usable, -⟩ := covered 0 (List.length_pos_iff.mpr some_)
    refine ⟨List.ne_nil_of_mem usable, List.pairwise_lt_range.filter _, fun m usable => ?_, fun m usable => ?_, covered⟩
    · exact Finset.mem_range.mp (mem_usableModesByRate.mp usable).1
    · have alone := mem_usableModesByRate.mp usable
      exact (unbeaten_iff (Finset.mem_range.mp alone.1)).mpr alone.maximal

namespace RateController

/-! ### A rung to choose -/

/-- The choice and a try are rungs of the ladder. -/
structure Inside (c : RateController) : Prop where
  index : c.index < c.modes.length
  tried : ∀ mode ∈ c.probing, mode ∈ c.modes

variable {c c' : RateController}

theorem Inside.same (inside : c.Inside) (modes : c'.modes = c.modes) (index : c'.index = c.index)
    (probing : c'.probing = c.probing) : c'.Inside where
  index := by rw [index, modes]; exact inside.index
  tried mode trying := modes ▸ inside.tried mode (probing ▸ trying)

theorem Inside.silent (inside : c.Inside) (steps : Nat) : (c.silent steps).Inside where
  index := by
    have at_ : c.index < c.modes.length := inside.index
    rw [RateController.silent]
    dsimp only [cancelTry]
    cases found : (List.range (c.index - steps + 1)).reverse.find?
        (usable { c with probing := none, probeTries := 0, tryFrames := 0 }) with
    | none => exact (Nat.zero_le _).trans_lt at_
    | some i =>
      have below := List.mem_range.mp (List.mem_reverse.mp (List.mem_of_find?_eq_some found))
      rw [Option.getD_some]
      omega
  tried := nofun

variable [Libm]

theorem decide_inside (some_ : 0 < c.modes.length) : c.decide.Inside := by
  unfold RateController.decide
  extract_lets candidates
  split
  · exact ⟨some_, nofun⟩
  · rename_i index best
    extract_lets c₁ up mode
    have at_ : c₁.index < c₁.modes.length := by
      have among := (List.mem_filter.mp (bestOf_mem best)).1
      exact List.mem_range.mp among
    have above (usable : c₁.usable up = true) : c₁.modeAt up ∈ c₁.modes := modeAt_mem ((usable_iff c₁ up).mp usable).1
    split
    · rename_i probe trying
      split
      · rename_i kept
        obtain ⟨usable, same⟩ := Bool.and_eq_true_iff.mp kept |>.imp id of_decide_eq_true
        refine ⟨at_, fun mode tried => ?_⟩
        obtain rfl := Option.some.inj (tried.symm.trans trying)
        exact same ▸ above usable
      · exact ⟨at_, nofun⟩
    · rename_i trying
      have still : c₁.Inside := ⟨at_, fun mode tried => by rw [trying] at tried; cases tried⟩
      split
      · exact still
      · rename_i usable
        split
        · exact still
        · split
          · refine ⟨at_, fun mode tried => ?_⟩
            obtain rfl := Option.some.inj tried
            exact above (by simpa using usable)
          · exact still

theorem Inside.observeEcho (inside : c.Inside) (share : Option ℚ) (snrDb : ℚ) : (c.observeEcho share snrDb).Inside := by
  cases share with
  | none => exact inside
  | some share =>
    by_cases read : snrDb < c.echoMinSnrDb
    · have same : c.observeEcho (some share) snrDb = c := if_pos read
      rw [same]
      exact inside
    · have modes := (observeEcho_fixed c (some share) snrDb).modes
      obtain ⟨index, is, moved⟩ := observeEcho_index (c := c) share read
      have at_ := inside.index
      refine ⟨?_, fun mode trying => ?_⟩
      · rw [modes, is]
        dsimp only
        split at moved <;> omega
      · rw [modes]
        rw [is] at trying
        refine inside.tried mode ?_
        unfold ruleOut at trying
        split at trying
        · split at trying
          · cases trying
          · exact trying
        · exact trying

theorem Inside.call (inside : c.Inside) (made : Call) : (c.call made).Inside := by
  have some_ := (Nat.zero_le _).trans_lt inside.index
  cases made with
  | seed snrDb =>
    unfold RateController.call RateController.seed
    dsimp only
    split
    · exact inside
    · refine ⟨?_, inside.tried⟩
      dsimp only
      generalize firstMode _ _ = first
      cases found : c.modes.idxOf? first with
      | none => exact some_
      | some i => exact (List.idxOf?_eq_some_iff.mp found).1
  | observeFrames frames snrDb =>
    cases none_ : frames.isEmpty with
    | true =>
      obtain ⟨table, index, probing⟩ := observeSnr_same c snrDb
      have same : c.call (.observeFrames frames snrDb) = c.observeSnr snrDb := observeFrames_empty c snrDb none_
      rw [same]
      exact inside.same table.modes index probing
    | false =>
      obtain ⟨c', taken, is⟩ := observeFrames_decide c frames snrDb none_
      unfold RateController.call
      dsimp only
      rw [is]
      exact decide_inside (taken.modes ▸ some_)
  | observeSnr snrDb =>
    obtain ⟨table, index, probing⟩ := observeSnr_same c snrDb
    exact inside.same table.modes index probing
  | observeEcho share snrDb => exact inside.observeEcho share snrDb
  | silent steps => exact inside.silent steps
  | priceExchanges controlFloorS controlOrdinaryS gapS burstFrames => exact inside.same rfl rfl rfl
  | setFamilies ownFloor otherFloor => exact inside.same rfl rfl rfl

theorem Inside.calls (inside : c.Inside) (made : List Call) : (c.calls made).Inside := by
  induction made generalizing c with
  | nil => exact inside
  | cons first rest ih => exact ih (inside.call first)

omit [Libm] in
theorem Inside.chosen (inside : c.Inside) : c.choice ∈ c.modes ∧ c.recommend ∈ c.modes := by
  have choice := modeAt_mem inside.index
  refine ⟨choice, ?_⟩
  unfold recommend
  cases tried : c.probing with
  | none => exact choice
  | some mode => exact inside.tried mode tried

/-- The controller has a rung of the ladder to choose, whatever is called. -/
def HasChoice (c : RateController) : Prop :=
  ∀ made, (c.calls made).index < c.modes.length ∧ (c.calls made).choice ∈ c.modes ∧ (c.calls made).recommend ∈ c.modes

theorem hasChoice_forTable (thresholds : List ℚ) (payload capacity : List Nat) (frameS : List ℚ) (floorModes : Nat)
    (echoLimit : List (Option ℚ)) : (forTable thresholds payload capacity frameS floorModes echoLimit).HasChoice ↔
      usableModesByRate thresholds payload frameS ≠ [] := by
  constructor
  · intro has none_
    have := (has []).1
    simp [calls, forTable, none_] at this
  · intro some_ made
    have start : (forTable thresholds payload capacity frameS floorModes echoLimit).Inside :=
      ⟨List.length_pos_iff.mpr some_, nofun⟩
    have inside := start.calls made
    have modes := (calls_fixed (forTable thresholds payload capacity frameS floorModes echoLimit) made).modes
    obtain ⟨choice, recommend⟩ := inside.chosen
    rw [← modes]
    exact ⟨inside.index, choice, recommend⟩

end RateController

/-- The usable rungs of a table are its front, and the controller over it has a rung to choose, just
where the table has no ties. -/
theorem usable_front [Libm] (table : RungTable thresholds payload frameS) (capacity : List Nat) (floorModes : Nat)
    (echoLimit : List (Option ℚ)) :
    IsFront thresholds payload frameS (usableModesByRate thresholds payload frameS) ∧
      (RateController.forTable thresholds payload capacity frameS floorModes echoLimit).HasChoice ↔
        NoTies thresholds payload frameS := by
  rw [RateController.hasChoice_forTable, isFront_iff table.some_]
  refine and_iff_left_of_imp fun noTies => ?_
  exact ((isFront_iff table.some_).mpr noTies).some_

open Coarse in
/-- A rung better on one count than the other. -/
theorem usable_front_two : IsFront [0, 1] [10, 20] [1, 1] (usableModesByRate [0, 1] [10, 20] [1, 1]) := by
  have table : RungTable [0, 1] [10, 20] [1, 1] := ⟨by simp, rfl, rfl, by simp⟩
  refine ((usable_front table [10, 20] 0 [none, none]).mpr fun a inside b inside' other _ same => ?_).1
  have apart : ∀ a < 2, ∀ b < 2, a ≠ b → ([0, 1] : List ℚ).getD a 0 ≠ ([0, 1] : List ℚ).getD b 0 := by decide +kernel
  exact apart a inside b inside' other same.2

open Coarse in
/-- Two rungs alike: each leaves the other out, and none is usable. -/
theorem usable_front_alike : RungTable [0, 0] [10, 10] [1, 1] ∧ usableModesByRate [0, 0] [10, 10] [1, 1] = [] ∧
    ¬(IsFront [0, 0] [10, 10] [1, 1] (usableModesByRate [0, 0] [10, 10] [1, 1]) ∧
      (RateController.forTable [0, 0] [10, 10] [10, 10] [1, 1] 0 [none, none]).HasChoice) := by
  have none_ : usableModesByRate [0, 0] [10, 10] [1, 1] = [] := by decide +kernel
  refine ⟨⟨by simp, rfl, rfl, by simp⟩, none_, fun both => ?_⟩
  exact both.1.some_ none_

end AetherHF.Link
