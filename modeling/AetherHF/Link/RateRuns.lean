import Mathlib.Data.List.GetD
import Mathlib.Data.List.Induction
import AetherHF.Link.Rate

/-! The rate controller through any sequence of its calls: it stays in its table and on
rungs the echo allows, given that the lowest has no limit. What the rungs are valued at
plays no part. -/
namespace AetherHF.Link

/-! ### The best of the candidates -/

theorem bestOf_mem {candidates : List Nat} {value : Nat → ℚ} {i : Nat} (best : bestOf candidates value = some i) :
    i ∈ candidates := by
  unfold bestOf at best
  obtain ⟨⟨j, b⟩, found, rfl⟩ := Option.map_eq_some_iff.mp best
  clear best
  -- the best so far is one of those passed
  induction candidates using List.reverseRecOn generalizing j b with
  | nil => cases found
  | append_singleton rest i ih =>
    rw [List.foldl_append, List.foldl_cons, List.foldl_nil] at found
    split at found
    · split at found
      · cases found
        exact List.mem_append_right _ (List.mem_singleton_self i)
      · exact List.mem_append_left _ (ih j b found)
    · cases found
      exact List.mem_append_right _ (List.mem_singleton_self i)

theorem bestOf_some {candidates : List Nat} (value : Nat → ℚ) (some_ : candidates ≠ []) :
    ∃ i, bestOf candidates value = some i := by
  obtain ⟨front, i, rfl⟩ := List.eq_nil_or_concat' candidates |>.resolve_left some_
  unfold bestOf
  rw [List.foldl_append, List.foldl_cons, List.foldl_nil]
  generalize front.foldl _ _ = soFar
  cases soFar with
  | none => exact ⟨i, rfl⟩
  | some b =>
    dsimp only
    split <;> exact ⟨_, rfl⟩

/-- The best of a list with one candidate in it is one of them. -/
theorem bestOf_getD {candidates : List Nat} (value : Nat → ℚ) {i : Nat} (member : i ∈ candidates) :
    (bestOf candidates value).getD 0 ∈ candidates := by
  obtain ⟨j, best⟩ := bestOf_some value (List.ne_nil_of_mem member)
  rw [best]
  exact bestOf_mem best

namespace RateController

/-! ### What the echo allows -/

/-- The smoothed echo exceeds a rung's limit. -/
def Over (c : RateController) (mode : Nat) : Prop :=
  ∃ limit echo, c.echoLimit.getD mode none = some limit ∧ c.echo = some echo ∧ limit < echo

theorem echoOut_iff (c : RateController) (i : Nat) : c.echoOut i = true ↔ c.Over (c.modeAt i) := by
  unfold echoOut Over
  cases c.echoLimit.getD (c.modeAt i) none with
  | none => simp
  | some limit =>
    cases c.echo with
    | none => simp
    | some echo => simp

/-- The lowest rung has no limit, and no rung stands twice. -/
structure Table (c : RateController) : Prop where
  some_ : 0 < c.modes.length
  lowest : c.echoLimit.getD (c.modeAt 0) none = none
  distinct : c.modes.Nodup

/-- The same table. -/
structure Fixed (c c' : RateController) : Prop where
  modes : c'.modes = c.modes := by rfl
  echoLimit : c'.echoLimit = c.echoLimit := by rfl
  floorModes : c'.floorModes = c.floorModes := by rfl

theorem Fixed.trans {c c' c'' : RateController} (first : Fixed c c') (second : Fixed c' c'') : Fixed c c'' where
  modes := second.modes.trans first.modes
  echoLimit := second.echoLimit.trans first.echoLimit
  floorModes := second.floorModes.trans first.floorModes

/-- And under the same echo. -/
structure SameTable (c c' : RateController) : Prop extends Fixed c c' where
  echo : c'.echo = c.echo := by rfl

variable {c c' c'' : RateController}

theorem SameTable.refl (c : RateController) : SameTable c c := {}

theorem SameTable.unseen (same : (c'.modes, c'.echoLimit, c'.floorModes, c'.echo) =
    (c.modes, c.echoLimit, c.floorModes, c.echo)) : SameTable c c' := by
  simp only [Prod.mk.injEq] at same
  obtain ⟨modes, echoLimit, floorModes, echo⟩ := same
  exact ⟨⟨modes, echoLimit, floorModes⟩, echo⟩

theorem SameTable.trans (first : SameTable c c') (second : SameTable c' c'') : SameTable c c'' where
  toFixed := first.toFixed.trans second.toFixed
  echo := second.echo.trans first.echo

theorem SameTable.foldl {α : Type*} {op : RateController → α → RateController}
    (each : ∀ c x, SameTable c (op c x)) (xs : List α) (c : RateController) : SameTable c (xs.foldl op c) := by
  induction xs generalizing c with
  | nil => exact .refl c
  | cons x rest ih => exact (each c x).trans (ih (op c x))

theorem SameTable.modeAt (same : SameTable c c') (i : Nat) : c'.modeAt i = c.modeAt i := by
  unfold RateController.modeAt
  rw [same.modes]

theorem SameTable.over (same : SameTable c c') (mode : Nat) : c'.Over mode ↔ c.Over mode := by
  unfold Over
  rw [same.echoLimit, same.echo]

theorem SameTable.table (same : SameTable c c') (table : c.Table) : c'.Table where
  some_ := same.modes ▸ table.some_
  lowest := by rw [same.echoLimit, same.modeAt, table.lowest]
  distinct := same.modes ▸ table.distinct

theorem Table.lowest_usable (table : c.Table) : c.usable 0 = true := by
  have allowed : c.echoOut 0 = false := by
    unfold echoOut
    rw [table.lowest]
  simp [usable, table.some_, allowed]

theorem usable_iff (c : RateController) (i : Nat) :
    c.usable i = true ↔ i < c.modes.length ∧ ¬c.Over (c.modeAt i) := by
  simp [usable, ← echoOut_iff]

theorem modeAt_mem {i : Nat} (inside : i < c.modes.length) : c.modeAt i ∈ c.modes := by
  unfold modeAt
  rw [List.getD_eq_getElem _ _ inside]
  exact List.getElem_mem inside

/-- The place of a rung of the table. -/
theorem idxOf?_modeAt (table : c.Table) {i : Nat} (inside : i < c.modes.length) :
    c.modes.idxOf? (c.modeAt i) = some i := by
  rw [List.idxOf?_eq_some_iff]
  unfold modeAt
  rw [List.getD_eq_getElem _ _ inside]
  refine ⟨inside, rfl, fun j before same => ?_⟩
  have := table.distinct.getElem_inj_iff.mp same
  omega

/-- The controller stands within its table, on rungs the echo allows. -/
structure Allowed (c : RateController) : Prop where
  table : c.Table
  choice : c.usable c.index = true
  tried : ∀ mode ∈ c.probing, mode ∈ c.modes ∧ ¬c.Over mode

theorem Allowed.same (allowed : c.Allowed) (same : SameTable c c') (index : c'.index = c.index)
    (probing : c'.probing = c.probing) : c'.Allowed where
  table := same.table allowed.table
  choice := by
    obtain ⟨inside, under⟩ := (usable_iff c c.index).mp allowed.choice
    refine (usable_iff c' c'.index).mpr ⟨?_, ?_⟩
    · rw [index, same.modes]
      exact inside
    · rw [index, same.modeAt, same.over]
      exact under
  tried mode trying := by
    obtain ⟨member, under⟩ := allowed.tried mode (probing ▸ trying)
    exact ⟨same.modes ▸ member, (same.over mode).not.mpr under⟩

/-! ### The calls -/

theorem observeSnr_same (c : RateController) (snrDb : Option ℚ) :
    SameTable c (c.observeSnr snrDb) ∧ (c.observeSnr snrDb).index = c.index ∧
      (c.observeSnr snrDb).probing = c.probing := by
  unfold observeSnr
  split <;> exact ⟨.unseen rfl, rfl, rfl⟩

theorem judgeFamily_same (c : RateController) (frames : List FrameOutcome) : SameTable c (c.judgeFamily frames) := by
  unfold judgeFamily
  extract_lets ofdm
  split <;> exact .unseen rfl

/-- A step down ends on a rung the echo allows. -/
theorem Allowed.silent (allowed : c.Allowed) (steps : Nat) : (c.silent steps).Allowed := by
  have cancelled : SameTable c c.cancelTry := .unseen rfl
  have table := cancelled.table allowed.table
  have low : (0 : Nat) ∈ (List.range (c.cancelTry.index - steps + 1)).reverse := by simp
  obtain ⟨i, found⟩ : ∃ i, (List.range (c.cancelTry.index - steps + 1)).reverse.find? c.cancelTry.usable = some i := by
    rw [← Option.isSome_iff_exists, List.find?_isSome]
    exact ⟨0, low, table.lowest_usable⟩
  have usable := List.find?_some found
  unfold RateController.silent
  simp only [found, Option.getD_some]
  exact ⟨⟨table.some_, table.lowest, table.distinct⟩, usable, nofun⟩

section
variable [Libm]

/-- Every decision ends within the table, on rungs the echo allows, whatever came before it. -/
theorem Table.decide (table : c.Table) : c.decide.Allowed := by
  unfold RateController.decide
  extract_lets candidates
  have low : (0 : Nat) ∈ candidates := by
    simp [candidates, table.some_, table.lowest_usable]
  obtain ⟨i, best⟩ := bestOf_some (fun i => c.value (c.modeAt i)) (List.ne_nil_of_mem low)
  have chosen : c.usable i = true := by
    have among := bestOf_mem best
    simp only [candidates, List.mem_filter, Bool.and_eq_true] at among
    exact among.2.1
  split
  · rename_i none_
    cases best.symm.trans none_
  rename_i found
  cases best.symm.trans found
  extract_lets c₁ up mode
  have same : SameTable c c₁ := .unseen rfl
  have table₁ := same.table table
  have chosen₁ : c₁.usable c₁.index = true := chosen
  have above (usable : c₁.usable up = true) : c₁.modeAt up ∈ c₁.modes ∧ ¬c₁.Over (c₁.modeAt up) := by
    obtain ⟨inside, under⟩ := (usable_iff c₁ up).mp usable
    exact ⟨modeAt_mem inside, under⟩
  split
  · rename_i probe trying
    split
    · rename_i kept
      obtain ⟨usable, same_⟩ := Bool.and_eq_true_iff.mp kept |>.imp id of_decide_eq_true
      refine ⟨table₁, chosen₁, fun mode tried => ?_⟩
      have is : mode = probe := Option.some.inj (tried.symm.trans trying)
      rw [is, ← same_]
      exact above usable
    · exact ⟨⟨table₁.some_, table₁.lowest, table₁.distinct⟩, chosen₁, nofun⟩
  · rename_i trying
    have still : c₁.Allowed := ⟨table₁, chosen₁, fun mode tried => by rw [trying] at tried; cases tried⟩
    split
    · exact still
    · rename_i usable
      have usable : c₁.usable up = true := by simpa using usable
      split
      · exact still
      · split
        · refine ⟨⟨table₁.some_, table₁.lowest, table₁.distinct⟩, chosen₁, fun mode tried => ?_⟩
          have is : mode = c₁.modeAt up := (Option.some.inj tried).symm
          rw [is]
          exact above usable
        · exact still

theorem decide_same (c : RateController) : SameTable c c.decide := by
  unfold RateController.decide
  extract_lets candidates
  split
  · exact .unseen rfl
  · extract_lets c₁ up mode
    have same : SameTable c c₁ := .unseen rfl
    split
    · split
      · exact same
      · exact same.trans (.unseen (by rfl))
    · split
      · exact same
      · split
        · exact same
        · split
          · exact same.trans (.unseen (by rfl))
          · exact same

theorem judgeTry_same (c : RateController) (mode : Nat) : SameTable c (c.judgeTry mode).1 := by
  unfold judgeTry
  split <;> exact .unseen rfl

theorem endProbe_same (c : RateController) (measured : Bool) : SameTable c (c.endProbe measured) := by
  unfold endProbe
  split
  · exact .refl c
  · rename_i mode _
    extract_lets c₁
    have first : SameTable c c₁ := .unseen rfl
    split
    · exact first
    · have second := first.trans (judgeTry_same c₁ mode)
      split
      rename_i c₂ carried judged
      have judged : (c₁.judgeTry mode).1 = c₂ := congrArg Prod.fst judged
      rw [judged] at second
      split
      · exact second
      · extract_lets c₃
        have third : SameTable c c₃ := second.trans (.unseen (by rfl))
        split
        · exact third.trans (.unseen (by rfl))
        · exact third

theorem countTry_same (c : RateController) (frames : List FrameOutcome) : SameTable c (c.countTry frames) := by
  unfold countTry
  split
  · exact .refl c
  · extract_lets c₁
    have counted : SameTable c c₁ := .unseen rfl
    split
    · exact counted.trans (endProbe_same _ _)
    · exact counted

theorem surprise_same (snr : ℚ) (c : RateController) (f : FrameOutcome) : SameTable c (c.surprise snr f) := by
  unfold surprise
  split <;> exact .unseen rfl

/-- A transmission's frames are taken without a change of table, and then decided on. -/
theorem observeFrames_decide (c : RateController) (frames : List FrameOutcome) (snrDb : Option ℚ)
    (some_ : frames.isEmpty = false) : ∃ c', SameTable c c' ∧ c.observeFrames frames snrDb = c'.decide := by
  have read := (observeSnr_same c snrDb).1
  unfold RateController.observeFrames
  extract_lets c₁ c₂ c₃ c₄ sent c₅ here atHere clean c₆ c₇
  rw [if_neg (by simp [some_])]
  have second : SameTable c₁ c₂ := by
    unfold c₂
    split
    · split
      · exact .foldl (surprise_same _) frames c₁
      · exact .refl _
    · exact .refl _
  have third : SameTable c₂ c₃ := .foldl (fun _ _ => .unseen (by rfl)) frames c₂
  have fourth : SameTable c₃ c₄ := judgeFamily_same c₃ frames
  have fifth : SameTable c₄ c₅ := .foldl (fun _ _ => .unseen (by rfl)) _ c₄
  have sixth : SameTable c₅ c₆ := .unseen rfl
  have seventh : SameTable c₆ c₇ := .foldl (fun c mode => by
    split
    · exact judgeTry_same c mode
    · exact .refl c) sent c₆
  have all := ((((((read.trans second).trans third).trans fourth).trans fifth).trans sixth).trans seventh).trans
    (countTry_same c₇ frames)
  exact ⟨_, all, rfl⟩

theorem observeFrames_empty (c : RateController) {frames : List FrameOutcome} (snrDb : Option ℚ)
    (none_ : frames.isEmpty = true) : c.observeFrames frames snrDb = c.observeSnr snrDb := by
  unfold RateController.observeFrames
  rw [if_pos none_]

theorem Allowed.observeFrames (allowed : c.Allowed) (frames : List FrameOutcome) (snrDb : Option ℚ) :
    (c.observeFrames frames snrDb).Allowed := by
  cases none_ : frames.isEmpty with
  | true =>
    obtain ⟨read, index, probing⟩ := observeSnr_same c snrDb
    rw [observeFrames_empty c snrDb none_]
    exact allowed.same read index probing
  | false =>
    obtain ⟨c', taken, is⟩ := observeFrames_decide c frames snrDb none_
    rw [is]
    exact (taken.table allowed.table).decide

theorem observeFrames_same (c : RateController) (frames : List FrameOutcome) (snrDb : Option ℚ) :
    SameTable c (c.observeFrames frames snrDb) := by
  cases none_ : frames.isEmpty with
  | true =>
    rw [observeFrames_empty c snrDb none_]
    exact (observeSnr_same c snrDb).1
  | false =>
    obtain ⟨c', taken, is⟩ := observeFrames_decide c frames snrDb none_
    rw [is]
    exact taken.trans (decide_same c')

theorem observeEcho_fixed (c : RateController) (share : Option ℚ) (snrDb : ℚ) :
    Fixed c (c.observeEcho share snrDb) := by
  unfold RateController.observeEcho
  split
  · exact ⟨rfl, rfl, rfl⟩
  · split
    · exact ⟨rfl, rfl, rfl⟩
    · extract_lets w c₁ c₂
      have first : Fixed c c₁ := ⟨rfl, rfl, rfl⟩
      have second : Fixed c₁ c₂ := by
        unfold c₂
        split
        · split <;> exact ⟨rfl, rfl, rfl⟩
        · exact ⟨rfl, rfl, rfl⟩
      split
      · exact (first.trans second).trans ⟨rfl, rfl, rfl⟩
      · exact first.trans second

/-- An echo reading leaves the choice, or the best allowed below it. -/
theorem Allowed.observeEcho (allowed : c.Allowed) (share : Option ℚ) (snrDb : ℚ) :
    (c.observeEcho share snrDb).Allowed := by
  unfold RateController.observeEcho
  split
  · exact allowed
  · rename_i share
    split
    · exact allowed
    · extract_lets w c₁ c₂
      have table₁ : c₁.Table := ⟨allowed.table.some_, allowed.table.lowest, allowed.table.distinct⟩
      have tried₁ (mode : Nat) (trying : mode ∈ c₁.probing) : mode ∈ c₁.modes := (allowed.tried mode trying).1
      have inside₁ : c₁.index < c₁.modes.length := ((usable_iff c c.index).mp allowed.choice).1
      -- the try goes when the new echo rules it out
      have same : SameTable c₁ c₂ ∧ c₂.index = c₁.index ∧
          ∀ mode ∈ c₂.probing, mode ∈ c₁.modes ∧ ¬c₁.Over mode := by
        unfold c₂
        split
        · rename_i at_ found
          split
          · exact ⟨.unseen rfl, rfl, nofun⟩
          · rename_i under
            refine ⟨.refl _, rfl, fun mode trying => ⟨tried₁ mode trying, ?_⟩⟩
            have place : c₁.modes.idxOf? mode = some at_ := by
              rw [Option.mem_def.mp trying] at found
              exact found
            obtain ⟨inside, here, _⟩ := List.idxOf?_eq_some_iff.mp place
            have is : c₁.modeAt at_ = mode := by
              unfold modeAt
              rw [List.getD_eq_getElem _ _ inside, here]
            rw [← is, ← echoOut_iff]
            exact under
        · rename_i none_
          refine ⟨.refl _, rfl, fun mode trying => ?_⟩
          rw [Option.mem_def.mp trying] at none_
          exact absurd (tried₁ mode trying) (List.idxOf?_eq_none_iff.mp none_)
      obtain ⟨same, index, tried⟩ := same
      have table₂ := same.table table₁
      have tried₂ (mode : Nat) (trying : mode ∈ c₂.probing) : mode ∈ c₂.modes ∧ ¬c₂.Over mode := by
        obtain ⟨member, under⟩ := tried mode trying
        exact ⟨same.modes ▸ member, (same.over mode).not.mpr under⟩
      split
      · rename_i out
        have above : 0 < c₂.index := Nat.pos_of_ne_zero fun zero => by
          have lowest := table₂.lowest_usable
          rw [zero] at out
          simp [usable, out] at lowest
        have low : 0 ∈ (List.range c₂.index).filter c₂.usable := by
          simp [above, table₂.lowest_usable]
        have best := bestOf_getD (fun i => c₂.value (c₂.modeAt i)) low
        have usable := (List.mem_filter.mp best).2
        exact ⟨⟨table₂.some_, table₂.lowest, table₂.distinct⟩, usable, tried₂⟩
      · rename_i under
        refine ⟨table₂, ?_, tried₂⟩
        have inside : c₂.index < c₂.modes.length := by rw [index, same.modes]; exact inside₁
        have under : c₂.echoOut c₂.index = false := by simpa using under
        simp [usable, inside, under]

/-- The rung a reading starts a session at is one the echo allows. -/
theorem Table.firstMode (table : c.Table) (snrDb : ℚ) :
    ∃ i, c.firstMode snrDb = c.modeAt i ∧ c.usable i = true := by
  unfold RateController.firstMode
  extract_lets candidates
  have low : (0 : Nat) ∈ candidates := by
    have lowest := table.lowest_usable
    simp only [usable, Bool.and_eq_true] at lowest
    simpa [candidates, table.some_] using lowest.2
  have best := bestOf_getD (fun i => c.priced (c.modeAt i) (c.estimateAt (c.modeAt i) (some snrDb))) low
  have among := List.mem_filter.mp best
  exact ⟨_, rfl, Bool.and_eq_true_iff.mpr ⟨decide_eq_true (List.mem_range.mp among.1), among.2⟩⟩

theorem Allowed.seed (allowed : c.Allowed) (snrDb : ℚ) : (c.seed snrDb).Allowed := by
  unfold RateController.seed
  split
  · exact allowed
  · extract_lets c₁
    have read : SameTable c c₁ := .unseen rfl
    have table := read.table allowed.table
    obtain ⟨i, first, usable⟩ := table.firstMode snrDb
    rw [first, idxOf?_modeAt table ((usable_iff c₁ i).mp usable).1]
    exact ⟨⟨table.some_, table.lowest, table.distinct⟩, usable, allowed.tried⟩

/-! ### Runs -/

inductive Call where
  | seed (snrDb : ℚ)
  | observeFrames (frames : List FrameOutcome) (snrDb : Option ℚ)
  | observeSnr (snrDb : Option ℚ)
  | observeEcho (share : Option ℚ) (snrDb : ℚ)
  | silent (steps : Nat)
  | priceExchanges (controlFloorS controlOrdinaryS gapS : ℚ) (burstFrames : List Nat)
  | setFamilies (ownFloor otherFloor : Bool)

def call (c : RateController) : Call → RateController
  | .seed snrDb => c.seed snrDb
  | .observeFrames frames snrDb => c.observeFrames frames snrDb
  | .observeSnr snrDb => c.observeSnr snrDb
  | .observeEcho share snrDb => c.observeEcho share snrDb
  | .silent steps => c.silent steps
  | .priceExchanges controlFloorS controlOrdinaryS gapS burstFrames =>
    c.priceExchanges controlFloorS controlOrdinaryS gapS burstFrames
  | .setFamilies ownFloor otherFloor => c.setFamilies ownFloor otherFloor

def calls (c : RateController) (made : List Call) : RateController := made.foldl call c

theorem Allowed.call (allowed : c.Allowed) (made : Call) : (c.call made).Allowed := by
  cases made with
  | seed snrDb => exact allowed.seed snrDb
  | observeFrames frames snrDb => exact allowed.observeFrames frames snrDb
  | observeSnr snrDb =>
    obtain ⟨read, index, probing⟩ := observeSnr_same c snrDb
    exact allowed.same read index probing
  | observeEcho share snrDb => exact allowed.observeEcho share snrDb
  | silent steps => exact allowed.silent steps
  | priceExchanges controlFloorS controlOrdinaryS gapS burstFrames => exact allowed.same (.unseen rfl) rfl rfl
  | setFamilies ownFloor otherFloor => exact allowed.same (.unseen rfl) rfl rfl

theorem Allowed.calls (allowed : c.Allowed) (made : List Call) : (c.calls made).Allowed := by
  induction made generalizing c with
  | nil => exact allowed
  | cons first rest ih => exact ih (allowed.call first)

theorem seed_same (c : RateController) (snrDb : ℚ) : SameTable c (c.seed snrDb) := by
  unfold RateController.seed
  split
  · exact .refl c
  · exact .unseen rfl

/-- The table is the controller's for good. -/
theorem call_fixed (c : RateController) (made : Call) : Fixed c (c.call made) := by
  cases made with
  | seed snrDb => exact (seed_same c snrDb).toFixed
  | observeFrames frames snrDb => exact (observeFrames_same c frames snrDb).toFixed
  | observeSnr snrDb => exact (observeSnr_same c snrDb).1.toFixed
  | observeEcho share snrDb => exact observeEcho_fixed c share snrDb
  | silent steps => exact ⟨rfl, rfl, rfl⟩
  | priceExchanges controlFloorS controlOrdinaryS gapS burstFrames => exact ⟨rfl, rfl, rfl⟩
  | setFamilies ownFloor otherFloor => exact ⟨rfl, rfl, rfl⟩

theorem calls_fixed (c : RateController) (made : List Call) : Fixed c (c.calls made) := by
  induction made generalizing c with
  | nil => exact ⟨rfl, rfl, rfl⟩
  | cons first rest ih => exact (call_fixed c first).trans (ih (c.call first))

end

/-- The usable rungs of a table come out of it in order. -/
theorem usableModesByRate_nodup (thresholds : List ℚ) (payload : List Nat) (frameS : List ℚ) :
    (usableModesByRate thresholds payload frameS).Nodup :=
  List.nodup_range.filter _

/-- Over a table whose lowest usable rung has no echo limit, whatever is called: the
choice, a try and a first rung are rungs of the table the echo allows, and the floor's
family is never refused. -/
theorem calls_allowed [Libm] (thresholds : List ℚ) (payload capacity : List Nat) (frameS : List ℚ) (floorModes : Nat)
    (echoLimit : List (Option ℚ)) {lowest : Nat}
    (slowest : (usableModesByRate thresholds payload frameS).head? = some lowest)
    (unlimited : echoLimit.getD lowest none = none) (made : List Call) :
    let c := (forTable thresholds payload capacity frameS floorModes echoLimit).calls made;
    c.index < c.modes.length ∧ ¬c.Over c.choice ∧ (∀ mode ∈ c.probing, ¬c.Over mode) ∧ ¬c.Over c.recommend ∧
      (∀ snrDb, ¬c.Over (c.firstMode snrDb)) ∧
      c.recommend ∈ usableModesByRate thresholds payload frameS ∧ c.echoLimit = echoLimit ∧
      ∀ mode < floorModes, c.refuses mode = false := by
  intro c
  have length : 0 < (usableModesByRate thresholds payload frameS).length :=
    List.length_pos_iff.mpr fun none_ => by
      rw [none_] at slowest
      cases slowest
  have first : (usableModesByRate thresholds payload frameS).getD 0 0 = lowest := by
    rw [List.getD_eq_getElem?_getD, ← List.head?_eq_getElem?, slowest]
    rfl
  have table : (forTable thresholds payload capacity frameS floorModes echoLimit).Table :=
    ⟨length, (congrArg (fun mode => echoLimit.getD mode none) first).trans unlimited,
      usableModesByRate_nodup thresholds payload frameS⟩
  have start : (forTable thresholds payload capacity frameS floorModes echoLimit).Allowed :=
    ⟨table, table.lowest_usable, nofun⟩
  have allowed : c.Allowed := start.calls made
  have fixed : Fixed _ c := calls_fixed _ made
  obtain ⟨inside, under⟩ := (usable_iff c c.index).mp allowed.choice
  have recommended : c.recommend ∈ c.modes ∧ ¬c.Over c.recommend := by
    unfold recommend
    cases tried : c.probing with
    | none => exact ⟨modeAt_mem inside, under⟩
    | some mode => exact allowed.tried mode tried
  have among : c.recommend ∈ (forTable thresholds payload capacity frameS floorModes echoLimit).modes := by
    rw [← fixed.modes]
    exact recommended.1
  refine ⟨inside, under, fun mode tried => (allowed.tried mode tried).2, recommended.2, fun snrDb => ?_, among, fixed.echoLimit, fun mode low => ?_⟩
  · obtain ⟨i, is, usable⟩ := allowed.table.firstMode snrDb
    rw [is]
    exact ((usable_iff c i).mp usable).2
  · have floor : mode < c.floorModes := fixed.floorModes ▸ low
    unfold refuses
    rw [if_pos floor]

open Coarse in
/-- An echo over the two rungs below the top one, and a step down from there. -/
theorem calls_allowed_echo :
    let c := (forTable [-10, -8, -6, -4, -2, 0] [10, 20, 30, 40, 50, 60] [10, 20, 30, 40, 50, 60] [1, 1, 1, 1, 1, 1] 5
      [none, none, none, some (38 / 10000), some (38 / 10000), none]).calls
        [.seed 20, .observeEcho (some (12 / 1000)) 0, .silent 1];
    c.echo = some (12 / 1000) ∧ c.index < c.modes.length ∧ ¬c.Over c.recommend ∧ c.refuses 4 = false := by
  intro c
  have slowest : (usableModesByRate [-10, -8, -6, -4, -2, 0] [10, 20, 30, 40, 50, 60] [1, 1, 1, 1, 1, 1]).head? =
      some 0 := by decide +kernel
  have all := calls_allowed [-10, -8, -6, -4, -2, 0] [10, 20, 30, 40, 50, 60] [10, 20, 30, 40, 50, 60] [1, 1, 1, 1, 1, 1] 5
    [none, none, none, some (38 / 10000), some (38 / 10000), none] slowest rfl
    [.seed 20, .observeEcho (some (12 / 1000)) 0, .silent 1]
  exact ⟨by decide +kernel, all.1, all.2.2.2.1, all.2.2.2.2.2.2.2 4 (by decide)⟩

end RateController

end AetherHF.Link
