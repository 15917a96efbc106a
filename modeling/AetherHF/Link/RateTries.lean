import AetherHF.Link.RateRuns

/-! The rung the rate controller tries: the one just above the choice, from call to call,
until an echo reading moves the choice from under it. -/
namespace AetherHF.Link.RateController

variable {c c' c'' : RateController}

/-! ### What a try is -/

/-- A try, where there is one, is of the usable rung just above the choice, and goes on. -/
def TryAbove (c : RateController) : Prop :=
  ∀ mode ∈ c.probing, c.modes[c.index]? = some c.choice ∧ c.modes[c.index + 1]? = some mode ∧ ¬c.Over mode ∧
    c.tryOver = false

/-- The counts of the try are short of its end; with none there are none. -/
structure Counted (c : RateController) : Prop where
  none_ : c.probing = none → c.probeTries = 0 ∧ c.tryFrames = 0
  short : c.tryOver = false

/-- The same try, as far counted. -/
structure SameTry (c c' : RateController) : Prop where
  probing : c'.probing = c.probing
  probeTries : c'.probeTries = c.probeTries
  tryFrames : c'.tryFrames = c.tryFrames
  priorFrames : c'.priorFrames = c.priorFrames

theorem SameTry.refl (c : RateController) : SameTry c c := ⟨rfl, rfl, rfl, rfl⟩

theorem SameTry.trans (first : SameTry c c') (second : SameTry c' c'') : SameTry c c'' where
  probing := second.probing.trans first.probing
  probeTries := second.probeTries.trans first.probeTries
  tryFrames := second.tryFrames.trans first.tryFrames
  priorFrames := second.priorFrames.trans first.priorFrames

theorem SameTry.foldl {α : Type*} {op : RateController → α → RateController} (each : ∀ c x, SameTry c (op c x))
    (xs : List α) (c : RateController) : SameTry c (xs.foldl op c) := by
  induction xs generalizing c with
  | nil => exact .refl c
  | cons x rest ih => exact (each c x).trans (ih (op c x))

theorem SameTry.over (same : SameTry c c') : c'.tryOver = c.tryOver := by
  unfold tryOver
  rw [same.probeTries, same.tryFrames, same.priorFrames]

theorem Counted.same (counted : c.Counted) (same : SameTry c c') : c'.Counted where
  none_ none_ := by
    rw [same.probeTries, same.tryFrames]
    exact counted.none_ (same.probing.symm.trans none_)
  short := same.over.trans counted.short

/-- A try just begun is not over. -/
theorem tryOver_none (tries : c.probeTries = 0) (frames : c.tryFrames = 0) : c.tryOver = false := by
  unfold tryOver
  simp [tries, frames]

theorem counted_cancelTry (c : RateController) : c.cancelTry.Counted where
  none_ _ := ⟨rfl, rfl⟩
  short := tryOver_none rfl rfl

theorem modes_modeAt {i : Nat} (inside : i < c.modes.length) : c.modes[i]? = some (c.modeAt i) := by
  unfold modeAt
  rw [List.getD_eq_getElem _ _ inside]
  exact List.getElem?_eq_getElem inside

/-- What a usable rung above the choice gives a try of it. -/
theorem tryAbove_of_usable (usable : c.usable (c.index + 1) = true) (counted : c.Counted)
    (tried : ∀ mode ∈ c.probing, mode = c.modeAt (c.index + 1)) : c.TryAbove := by
  intro mode trying
  obtain ⟨inside, under⟩ := (usable_iff c (c.index + 1)).mp usable
  have below : c.index < c.modes.length := by omega
  rw [tried mode trying]
  exact ⟨modes_modeAt below, modes_modeAt inside, under, counted.short⟩

theorem tryAbove_none (none_ : c.probing = none) : c.TryAbove := by
  intro mode trying
  rw [none_] at trying
  cases trying

/-- The same controller but for what its rungs are valued at. -/
theorem TryAbove.same (above : c.TryAbove) (table : SameTable c c') (try_ : SameTry c c') (index : c'.index = c.index) :
    c'.TryAbove := by
  intro mode trying
  obtain ⟨here, next, under, short⟩ := above mode (try_.probing ▸ trying)
  refine ⟨?_, ?_, (table.over mode).not.mpr under, try_.over.trans short⟩
  · rw [table.modes, index, here, choice, choice, index, table.modeAt]
  · rw [table.modes, index, next]

/-! ### The calls -/

section
variable [Libm]

/-- Every decision leaves a try of the usable rung just above, or none. -/
theorem Counted.decide (counted : c.Counted) : c.decide.Counted ∧ c.decide.TryAbove := by
  unfold RateController.decide
  extract_lets candidates
  split
  · exact ⟨counted_cancelTry _, tryAbove_none rfl⟩
  · extract_lets c₁ up mode
    have counted₁ : c₁.Counted := counted.same ⟨rfl, rfl, rfl, rfl⟩
    split
    · rename_i probe trying
      split
      · rename_i kept
        obtain ⟨usable, same⟩ := Bool.and_eq_true_iff.mp kept |>.imp id of_decide_eq_true
        refine ⟨counted₁, tryAbove_of_usable usable counted₁ fun mode tried => ?_⟩
        rw [same]
        exact Option.some.inj (tried.symm.trans trying)
      · exact ⟨counted_cancelTry _, tryAbove_none rfl⟩
    · rename_i trying
      have still : c₁.Counted ∧ c₁.TryAbove := ⟨counted₁, tryAbove_none trying⟩
      split
      · exact still
      · rename_i usable
        have usable : c₁.usable up = true := by simpa using usable
        split
        · exact still
        · split
          · obtain ⟨tries, frames⟩ := counted₁.none_ trying
            have begun : RateController.Counted { c₁ with probing := some mode, sinceProbe := c₁.sinceProbe.set mode (some 0) } :=
              ⟨fun none_ => absurd none_ (Option.some_ne_none mode), tryOver_none tries frames⟩
            exact ⟨begun, tryAbove_of_usable usable begun fun mode tried => (Option.some.inj tried).symm⟩
          · exact still

theorem judgeTry_sameTry (c : RateController) (mode : Nat) : SameTry c (c.judgeTry mode).1 := by
  unfold judgeTry
  split <;> exact ⟨rfl, rfl, rfl, rfl⟩

/-- A try ended is no longer counted. -/
theorem counted_endProbe {probe : Nat} (trying : c.probing = some probe) (measured : Bool) :
    (c.endProbe measured).Counted := by
  unfold endProbe
  rw [trying]
  dsimp only
  have ended := counted_cancelTry c
  split
  · exact ended
  · have judged := ended.same (judgeTry_sameTry c.cancelTry probe)
    split
    · exact judged
    · split
      · exact judged.same ⟨rfl, rfl, rfl, rfl⟩
      · exact judged.same ⟨rfl, rfl, rfl, rfl⟩

theorem Counted.countTry (counted : c.Counted) (frames : List FrameOutcome) : (c.countTry frames).Counted := by
  unfold RateController.countTry
  split
  · exact counted
  · rename_i probe trying
    extract_lets c₁
    split
    · exact counted_endProbe (c := c₁) trying _
    · rename_i goes
      exact ⟨fun none_ => absurd (trying.symm.trans none_) (Option.some_ne_none probe), by simpa using goes⟩

omit [Libm] in
theorem observeSnr_sameTry (c : RateController) (snrDb : Option ℚ) : SameTry c (c.observeSnr snrDb) := by
  unfold observeSnr
  split <;> exact ⟨rfl, rfl, rfl, rfl⟩

/-- A transmission's frames counted to the try, and then decided on. -/
theorem Counted.observeFrames (counted : c.Counted) {frames : List FrameOutcome} (snrDb : Option ℚ)
    (some_ : frames.isEmpty = false) :
    (c.observeFrames frames snrDb).Counted ∧ (c.observeFrames frames snrDb).TryAbove := by
  have read := observeSnr_sameTry c snrDb
  unfold RateController.observeFrames
  extract_lets c₁ c₂ c₃ c₄ sent c₅ here atHere clean c₆ c₇
  rw [if_neg (by simp [some_])]
  have second : SameTry c₁ c₂ := by
    unfold c₂
    split
    · split
      · refine .foldl (fun c f => ?_) frames c₁
        unfold surprise
        split <;> exact ⟨rfl, rfl, rfl, rfl⟩
      · exact .refl _
    · exact .refl _
  have third : SameTry c₂ c₃ := .foldl (fun _ _ => ⟨by rfl, by rfl, by rfl, by rfl⟩) frames c₂
  have fourth : SameTry c₃ c₄ := by
    unfold c₄ judgeFamily
    extract_lets ofdm
    split <;> exact ⟨rfl, rfl, rfl, rfl⟩
  have fifth : SameTry c₄ c₅ := .foldl (fun _ _ => ⟨by rfl, by rfl, by rfl, by rfl⟩) _ c₄
  have sixth : SameTry c₅ c₆ := ⟨rfl, rfl, rfl, rfl⟩
  have seventh : SameTry c₆ c₇ := .foldl (fun c mode => by
    split
    · exact judgeTry_sameTry c mode
    · exact .refl c) sent c₆
  have all := (((((read.trans second).trans third).trans fourth).trans fifth).trans sixth).trans seventh
  exact ((counted.same all).countTry frames).decide

/-! ### Echo readings -/

/-- The echo once a reading of it is in. -/
def heardEcho (c : RateController) (share : ℚ) : RateController :=
  { c with echo := some (match c.echo with
    | some prev => (1 - c.echoWeight) * prev + c.echoWeight * share
    | none => share) }

/-- A call does not rule out the choice, above the lowest rung, and spare the rung tried. -/
def Call.spares (c : RateController) : Call → Prop
  | .observeEcho (some share) snrDb =>
    snrDb < c.echoMinSnrDb ∨ c.index = 0 ∨ (c.heardEcho share).echoOut c.index = false ∨
      ∀ mode ∈ c.probing, (c.heardEcho share).Over mode
  | _ => True

omit [Libm] in
theorem heardEcho_same (c : RateController) (share : ℚ) : SameTry c (c.heardEcho share) := ⟨rfl, rfl, rfl, rfl⟩

/-- A try whose rung the echo rules out ends. -/
def ruleOut (c : RateController) : RateController :=
  match c.probing.bind c.modes.idxOf? with
  | some at_ => if c.echoOut at_ then c.cancelTry else c
  | none => c

omit [Libm] in
theorem ruleOut_same (c : RateController) : SameTable c c.ruleOut ∧ c.ruleOut.index = c.index := by
  unfold ruleOut
  split
  · split
    · exact ⟨.unseen rfl, rfl⟩
    · exact ⟨.refl c, rfl⟩
  · exact ⟨.refl c, rfl⟩

omit [Libm] in
theorem Counted.ruleOut (counted : c.Counted) : c.ruleOut.Counted := by
  unfold RateController.ruleOut
  split
  · split
    · exact counted_cancelTry c
    · exact counted
  · exact counted

/-- The choice an echo reading leaves: the same where it is allowed or the lowest, else one below. -/
theorem observeEcho_index {snrDb : ℚ} (share : ℚ) (read : ¬snrDb < c.echoMinSnrDb) :
    ∃ index, c.observeEcho (some share) snrDb = { (c.heardEcho share).ruleOut with index } ∧
      if (c.heardEcho share).echoOut c.index ∧ 0 < c.index then index < c.index else index = c.index := by
  have is : c.observeEcho (some share) snrDb = if (c.heardEcho share).ruleOut.echoOut (c.heardEcho share).ruleOut.index
      then { (c.heardEcho share).ruleOut with
        index := (bestOf ((List.range (c.heardEcho share).ruleOut.index).filter (c.heardEcho share).ruleOut.usable)
          fun i => (c.heardEcho share).ruleOut.value ((c.heardEcho share).ruleOut.modeAt i)).getD 0 }
      else (c.heardEcho share).ruleOut := by
    rw [observeEcho, if_neg read]
    rfl
  obtain ⟨same, index⟩ := ruleOut_same (c.heardEcho share)
  have index : (c.heardEcho share).ruleOut.index = c.index := index
  have out : (c.heardEcho share).ruleOut.echoOut c.index = (c.heardEcho share).echoOut c.index := by
    rw [Bool.eq_iff_iff, echoOut_iff, echoOut_iff, same.modeAt, same.over]
  rw [is, index, out]
  generalize (c.heardEcho share).ruleOut = d at index
  generalize bestFound : bestOf ((List.range c.index).filter d.usable) (fun i => d.value (d.modeAt i)) = best
  by_cases ruled : (c.heardEcho share).echoOut c.index = true
  · rw [if_pos ruled]
    refine ⟨_, rfl, ?_⟩
    cases best with
    | none =>
      rw [Option.getD_none]
      split
      · rename_i above
        exact above.2
      · rename_i lowest
        exact (Nat.eq_zero_of_not_pos fun above => lowest ⟨ruled, above⟩).symm
    | some i =>
      have below := List.mem_range.mp (List.mem_filter.mp (bestOf_mem bestFound)).1
      rw [Option.getD_some, if_pos ⟨ruled, by omega⟩]
      exact below
  · rw [if_neg ruled]
    refine ⟨c.index, by rw [← index], ?_⟩
    rw [if_neg fun both => ruled both.1]

/-- An echo reading leaves the try above the choice unless it moves the choice from under it. -/
theorem TryAbove.observeEcho (above : c.TryAbove) (distinct : c.modes.Nodup) (share : Option ℚ) (snrDb : ℚ) :
    (c.observeEcho share snrDb).TryAbove ↔ (Call.observeEcho share snrDb).spares c := by
  cases share with
  | none => exact iff_of_true above trivial
  | some share =>
    by_cases read : snrDb < c.echoMinSnrDb
    · have same : c.observeEcho (some share) snrDb = c := if_pos read
      rw [same]
      exact iff_of_true above (.inl read)
    obtain ⟨index, is, moved⟩ := observeEcho_index share read
    rw [is]
    cases trying : c.probing with
    | none =>
      have ended : (c.heardEcho share).ruleOut = c.heardEcho share := by simp [ruleOut, heardEcho, trying]
      rw [ended]
      exact iff_of_true (tryAbove_none trying) (.inr (.inr (.inr fun mode tried => by
        rw [trying] at tried
        cases tried)))
    | some probe =>
      obtain ⟨here, next, under, short⟩ := above probe trying
      obtain ⟨inside, rung⟩ := List.getElem?_eq_some_iff.mp next
      have at_ : c.modeAt (c.index + 1) = probe := by
        rw [modeAt, List.getD_eq_getElem _ _ inside, rung]
      have place : (c.heardEcho share).probing.bind (c.heardEcho share).modes.idxOf? = some (c.index + 1) := by
        have first : c.probing.bind c.modes.idxOf? = some (c.index + 1) := by
          rw [trying, Option.bind_some, List.idxOf?_eq_some_iff]
          refine ⟨inside, rung, fun j before same => ?_⟩
          have := distinct.getElem_inj_iff.mp (same.trans rung.symm)
          omega
        exact first
      have outIff : (c.heardEcho share).echoOut (c.index + 1) = true ↔ (c.heardEcho share).Over probe := by
        rw [echoOut_iff, ← at_]
        exact Iff.rfl
      by_cases out : (c.heardEcho share).Over probe
      · have ended : (c.heardEcho share).ruleOut = (c.heardEcho share).cancelTry := by
          rw [ruleOut, place]
          exact if_pos (outIff.mpr out)
        rw [ended]
        refine iff_of_true (tryAbove_none rfl) (.inr (.inr (.inr fun mode tried => ?_)))
        rw [← Option.some.inj (trying.symm.trans tried)]
        exact out
      · have goes : (c.heardEcho share).ruleOut = c.heardEcho share := by
          rw [ruleOut, place]
          exact if_neg fun ruled => out (outIff.mp ruled)
        rw [goes]
        by_cases falls : (c.heardEcho share).echoOut c.index = true ∧ 0 < c.index
        · -- the choice goes below, and the try's rung stands twice above it no more
          rw [if_pos falls] at moved
          refine iff_of_false (fun still => ?_) (fun spared => ?_)
          · obtain ⟨-, next', -⟩ := still probe trying
            obtain ⟨inside', rung'⟩ := List.getElem?_eq_some_iff.mp next'
            have same : index + 1 = c.index + 1 := distinct.getElem_inj_iff.mp (rung'.trans rung.symm)
            omega
          · rcases spared with early | lowest | allowed | ruled
            · exact read early
            · omega
            · rw [falls.1] at allowed
              cases allowed
            · exact out (ruled probe trying)
        · rw [if_neg falls] at moved
          have spared : (Call.observeEcho (some share) snrDb).spares c := by
            by_cases lowest : c.index = 0
            · exact .inr (.inl lowest)
            · refine .inr (.inr (.inl (Bool.eq_false_iff.mpr fun ruled => falls ⟨ruled, ?_⟩)))
              omega
          refine iff_of_true (fun mode tried => ?_) spared
          obtain rfl : probe = mode := Option.some.inj (trying.symm.trans tried)
          rw [moved]
          exact ⟨here, next, out, short⟩

theorem Counted.observeEcho (counted : c.Counted) (share : Option ℚ) (snrDb : ℚ) :
    (c.observeEcho share snrDb).Counted := by
  cases share with
  | none => exact counted
  | some share =>
    by_cases read : snrDb < c.echoMinSnrDb
    · have same : c.observeEcho (some share) snrDb = c := if_pos read
      rw [same]
      exact counted
    · obtain ⟨index, is, -⟩ := observeEcho_index share read
      rw [is]
      exact (counted.same (heardEcho_same c share)).ruleOut.same ⟨rfl, rfl, rfl, rfl⟩

/-! ### Runs -/

/-- A call that brings frames. -/
def Call.takesFrames : Call → Bool
  | .observeFrames frames _ => !frames.isEmpty
  | _ => false

/-- Every seed comes before any frame. -/
def SeededFirst (made : List Call) : Prop :=
  ∀ n snrDb, made[n]? = some (.seed snrDb) → ∀ call ∈ made.take n, call.takesFrames = false

theorem Counted.call (counted : c.Counted) (made : Call) : (c.call made).Counted := by
  cases made with
  | seed snrDb =>
    refine counted.same ?_
    unfold RateController.call RateController.seed
    dsimp only
    split <;> exact ⟨rfl, rfl, rfl, rfl⟩
  | observeFrames frames snrDb =>
    cases none_ : frames.isEmpty with
    | true =>
      have same : c.call (.observeFrames frames snrDb) = c.observeSnr snrDb := observeFrames_empty c snrDb none_
      rw [same]
      exact counted.same (observeSnr_sameTry c snrDb)
    | false => exact (counted.observeFrames snrDb none_).1
  | observeSnr snrDb => exact counted.same (observeSnr_sameTry c snrDb)
  | observeEcho share snrDb => exact counted.observeEcho share snrDb
  | silent steps => exact (counted_cancelTry c).same ⟨rfl, rfl, rfl, rfl⟩
  | priceExchanges controlFloorS controlOrdinaryS gapS burstFrames => exact counted.same ⟨rfl, rfl, rfl, rfl⟩
  | setFamilies ownFloor otherFloor => exact counted.same ⟨rfl, rfl, rfl, rfl⟩

/-- A call leaves the try above the choice, or puts it there, unless it moves the choice from
under it. -/
theorem TryAbove.call (above : c.TryAbove) (counted : c.Counted) (distinct : c.modes.Nodup) {made : Call}
    (first : ∀ snrDb, made = .seed snrDb → c.probing = none) : (c.call made).TryAbove ↔ made.spares c := by
  cases made with
  | seed snrDb =>
    refine iff_of_true (tryAbove_none ?_) trivial
    unfold RateController.call RateController.seed
    dsimp only
    split <;> exact first snrDb rfl
  | observeFrames frames snrDb =>
    refine iff_of_true ?_ trivial
    cases none_ : frames.isEmpty with
    | true =>
      have same : c.call (.observeFrames frames snrDb) = c.observeSnr snrDb := observeFrames_empty c snrDb none_
      rw [same]
      obtain ⟨table, index, -⟩ := observeSnr_same c snrDb
      exact above.same table (observeSnr_sameTry c snrDb) index
    | false => exact (counted.observeFrames snrDb none_).2
  | observeSnr snrDb =>
    obtain ⟨table, index, -⟩ := observeSnr_same c snrDb
    exact iff_of_true (above.same table (observeSnr_sameTry c snrDb) index) trivial
  | observeEcho share snrDb => exact above.observeEcho distinct share snrDb
  | silent steps => exact iff_of_true (tryAbove_none rfl) trivial
  | priceExchanges controlFloorS controlOrdinaryS gapS burstFrames =>
    exact iff_of_true (above.same (.unseen rfl) ⟨rfl, rfl, rfl, rfl⟩ rfl) trivial
  | setFamilies ownFloor otherFloor => exact iff_of_true (above.same (.unseen rfl) ⟨rfl, rfl, rfl, rfl⟩ rfl) trivial

/-- Nothing is tried before any frame. -/
theorem call_untried (none_ : c.probing = none) {made : Call} (quiet : made.takesFrames = false) :
    (c.call made).probing = none := by
  cases made with
  | seed snrDb =>
    unfold RateController.call RateController.seed
    dsimp only
    split <;> exact none_
  | observeFrames frames snrDb =>
    have empty : frames.isEmpty = true := by simpa [Call.takesFrames] using quiet
    have same : c.call (.observeFrames frames snrDb) = c.observeSnr snrDb := observeFrames_empty c snrDb empty
    rw [same, (observeSnr_same c snrDb).2.2, none_]
  | observeSnr snrDb => exact (observeSnr_same c snrDb).2.2.trans none_
  | observeEcho share snrDb =>
    unfold RateController.call
    dsimp only
    cases share with
    | none => exact none_
    | some share =>
      by_cases read : snrDb < c.echoMinSnrDb
      · have same : c.observeEcho (some share) snrDb = c := if_pos read
        rw [same, none_]
      · obtain ⟨index, is, -⟩ := observeEcho_index share read
        have goes : (c.heardEcho share).ruleOut = c.heardEcho share := by simp [ruleOut, heardEcho, none_]
        rw [is, goes]
        exact none_
  | silent steps => rfl
  | priceExchanges controlFloorS controlOrdinaryS gapS burstFrames => exact none_
  | setFamilies ownFloor otherFloor => exact none_

theorem calls_untried (none_ : c.probing = none) {made : List Call} (quiet : ∀ call ∈ made, call.takesFrames = false) :
    (c.calls made).probing = none := by
  induction made generalizing c with
  | nil => exact none_
  | cons first rest ih =>
    obtain ⟨here, later⟩ := List.forall_mem_cons.mp quiet
    exact ih (call_untried none_ here) later

theorem Counted.calls (counted : c.Counted) (made : List Call) : (c.calls made).Counted := by
  induction made generalizing c with
  | nil => exact counted
  | cons first rest ih => exact ih (counted.call first)

theorem calls_succ (c : RateController) {made : List Call} {n : Nat} {call : Call} (is : made[n]? = some call) :
    c.calls (made.take (n + 1)) = (c.calls (made.take n)).call call := by
  rw [List.take_add_one, is]
  exact List.foldl_append ..

/-- Over any table, whatever is called, seeds before any frame: the try is of the usable rung
just above the choice, and short of its end, after every call, just while no echo reading moves
the choice from under it. -/
theorem calls_tryAbove (thresholds : List ℚ) (payload capacity : List Nat) (frameS : List ℚ) (floorModes : Nat)
    (echoLimit : List (Option ℚ)) {made : List Call} (seeded : SeededFirst made) :
    let c := forTable thresholds payload capacity frameS floorModes echoLimit;
    (∀ n, (c.calls (made.take n)).TryAbove) ↔
      ∀ n (call : Call), made[n]? = some call → call.spares (c.calls (made.take n)) := by
  intro c
  have counted : c.Counted := ⟨fun _ => ⟨rfl, rfl⟩, tryOver_none rfl rfl⟩
  have distinct (made : List Call) : (c.calls made).modes.Nodup := by
    rw [(calls_fixed c made).modes]
    exact usableModesByRate_nodup thresholds payload frameS
  have step {n : Nat} {call : Call} (is : made[n]? = some call) (above : (c.calls (made.take n)).TryAbove) :
      (c.calls (made.take (n + 1))).TryAbove ↔ call.spares (c.calls (made.take n)) := by
    rw [calls_succ c is]
    refine above.call (counted.calls _) (distinct _) fun snrDb seeds => ?_
    exact calls_untried rfl (seeded n snrDb (seeds ▸ is))
  constructor
  · intro all n call is
    exact (step is (all n)).mp (all (n + 1))
  · intro spared n
    induction n with
    | zero => exact tryAbove_none rfl
    | succ n ih =>
      cases is : made[n]? with
      | none => rwa [List.take_add_one, is, Option.toList_none, List.append_nil]
      | some call => exact (step is ih).mpr (spared n call is)

end

/-- A seed first and none after it. -/
theorem seededFirst_cons {first : Call} {rest : List Call} (none_ : ∀ snrDb, .seed snrDb ∉ rest) :
    SeededFirst (first :: rest) := by
  intro n snrDb is
  cases n with
  | zero => exact fun call among => absurd among List.not_mem_nil
  | succ n =>
    have later : rest[n]? = some (.seed snrDb) := is
    exact absurd (List.mem_of_getElem? later) (none_ snrDb)

def sixRungs : RateController :=
  forTable [-10, -8, -6, -4, -2, 0] [10, 20, 30, 40, 50, 60] [10, 20, 30, 40, 50, 60] [1, 1, 1, 1, 1, 1] 5
    [none, none, none, some (38 / 10000), some (38 / 10000), none]

/-- Six frames at the fifth rung, all decoded. -/
def sixFrames : List FrameOutcome := List.replicate 6 ⟨4, 1, 50, true, true, false⟩

open Coarse in
/-- A try of the sixth rung, and an echo the fifth allows. -/
theorem calls_tryAbove_six :
    (sixRungs.calls [.seed (3 / 2), .observeFrames sixFrames (some 3), .observeEcho (some (1 / 1000)) 0]).TryAbove := by
  have seeded : SeededFirst [.seed (3 / 2), .observeFrames sixFrames (some 3), .observeEcho (some (1 / 1000)) 0] :=
    seededFirst_cons (by simp)
  refine (calls_tryAbove _ _ _ _ _ _ seeded).mpr (fun n call is => ?_) 3
  rcases n with - | - | - | n
  · cases is
    trivial
  · cases is
    trivial
  · cases is
    exact .inr (.inr (.inl (by decide +kernel)))
  · cases is

open Coarse in
/-- The echo rules out the fifth rung and the fourth: the choice goes to the third, and the
sixth is tried on. -/
theorem calls_tryAbove_left :
    SeededFirst [.seed (3 / 2), .observeFrames sixFrames (some 3), .observeEcho (some (12 / 1000)) 0] ∧
      ¬(sixRungs.calls [.seed (3 / 2), .observeFrames sixFrames (some 3), .observeEcho (some (12 / 1000)) 0]).TryAbove := by
  refine ⟨seededFirst_cons (by simp), fun above => ?_⟩
  have tried : (sixRungs.calls [.seed (3 / 2), .observeFrames sixFrames (some 3),
      .observeEcho (some (12 / 1000)) 0]).probing = some 5 := by decide +kernel
  have third : (sixRungs.calls [.seed (3 / 2), .observeFrames sixFrames (some 3),
      .observeEcho (some (12 / 1000)) 0]).modes[(sixRungs.calls [.seed (3 / 2), .observeFrames sixFrames (some 3),
        .observeEcho (some (12 / 1000)) 0]).index + 1]? = some 3 := by decide +kernel
  cases third.symm.trans (above 5 tried).2.1

end AetherHF.Link.RateController
