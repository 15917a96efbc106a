import Mathlib.Algebra.Order.Archimedean.Basic
import Mathlib.Tactic.Linarith
import Mathlib.Tactic.Positivity
import AetherHF.Link.Front

/-! What a rung is estimated to carry: never more than it can. The accounts are aged and charged frame
by frame, their bytes, air and frames apart. -/
namespace AetherHF.Link

/-- The library functions are of their kind: an exponential not negative, a half to a power a part of
one. -/
structure Libm.Tame [Libm] : Prop where
  exp : ∀ x, 0 ≤ Libm.exp x
  halves : ∀ x, 0 ≤ x → 0 < Libm.powf (1 / 2) x ∧ Libm.powf (1 / 2) x ≤ 1

/-! ### One account -/

def Account.take (account : Account) (f : FrameOutcome) : Account where
  bytes := if f.decoded then account.bytes + f.capacity else account.bytes
  airS := account.airS + f.airS
  frames := account.frames + 1

/-- An account of frames of a rung: of no more bytes than its air carries. -/
structure Earned (capacity airS : ℚ) (account : Account) : Prop where
  bytes : 0 ≤ account.bytes
  air : 0 ≤ account.airS
  frames : 0 ≤ account.frames
  carried : account.bytes * airS ≤ account.airS * capacity

variable {capacity airS k : ℚ} {account : Account}

theorem earned_empty : Earned capacity airS {} := ⟨le_rfl, le_rfl, le_rfl, by simp⟩

theorem Earned.scale (earned : Earned capacity airS account) (part : 0 ≤ k) : Earned capacity airS (account.scale k) where
  bytes := mul_nonneg earned.bytes part
  air := mul_nonneg earned.air part
  frames := mul_nonneg earned.frames part
  carried := by
    have scaled := mul_le_mul_of_nonneg_right earned.carried part
    simp only [Account.scale]
    linarith

theorem Earned.take {f : FrameOutcome} (earned : Earned f.capacity airS account) (positive : 0 < airS)
    (long : airS ≤ f.airS) : Earned f.capacity airS (account.take f) := by
  have some_ : (0 : ℚ) ≤ f.capacity := f.capacity.cast_nonneg
  have carried : airS * f.capacity ≤ f.airS * f.capacity := mul_le_mul_of_nonneg_right long some_
  have more := mul_nonneg positive.le some_
  have before := earned.carried
  refine ⟨?_, by simp only [Account.take]; linarith [earned.air], by simp only [Account.take]; linarith [earned.frames], ?_⟩
  · simp only [Account.take]
    split <;> linarith [earned.bytes]
  · simp only [Account.take]
    split <;> linarith

/-- Mixed with a prior of frames of the rung, it says no more than the rung carries. -/
theorem Earned.estimate (earned : Earned capacity airS account) (positive : 0 < airS) (weight : 0 < k) {prior : ℚ}
    (least : 0 ≤ prior) (most : prior ≤ capacity) :
    0 ≤ (account.bytes + k * prior) / (account.airS + k * airS) ∧
      (account.bytes + k * prior) / (account.airS + k * airS) ≤ capacity / airS := by
  have air : 0 < account.airS + k * airS := add_pos_of_nonneg_of_pos earned.air (mul_pos weight positive)
  have bytes : 0 ≤ account.bytes + k * prior := add_nonneg earned.bytes (mul_nonneg weight.le least)
  refine ⟨div_nonneg bytes air.le, ?_⟩
  rw [div_le_div_iff₀ air positive]
  have priors : k * prior * airS ≤ k * capacity * airS :=
    mul_le_mul_of_nonneg_right (mul_le_mul_of_nonneg_left most weight.le) positive.le
  linarith [earned.carried]

/-- A sum of which a part is kept as each term comes settles. -/
theorem settles {total term most : ℚ} (part : 0 ≤ k) (rest : k ≤ 1) (settled : total * (1 - k) ≤ most) (short : term ≤ most) :
    (total * k + term) * (1 - k) ≤ most := by
  have kept := mul_le_mul_of_nonneg_right settled part
  have come := mul_le_mul_of_nonneg_right short (sub_nonneg.mpr rest)
  linarith

theorem settles_aged {total part kept most : ℚ} (some_ : 0 ≤ part) (rest : part ≤ 1) (most_ : 0 ≤ most)
    (settled : total * (1 - kept) ≤ most) : total * part * (1 - kept) ≤ most := by
  have aged := mul_le_mul_of_nonneg_right settled some_
  have less := mul_le_mul_of_nonneg_left rest most_
  linarith

namespace RateController

variable {c c' c'' c₀ : RateController}

/-! ### What the calls leave alone -/

/-- What no call changes. -/
def settings (c : RateController) :
    (List ℚ × List Nat × List ℚ × Nat) × (ℚ × ℚ × ℚ × ℚ) × Nat × Nat :=
  ((c.thresholds, c.capacity, c.frameS, c.floorModes), (c.halfLife, c.priorFrames, c.slopeDb, c.priorMarginDb),
    c.probeEvery, c.probeWaitMax)

/-- Every rung's wait is a wait. -/
structure Waits (c : RateController) : Prop where
  some_ : c.probeEvery ≤ c.probeWaitMax
  least : ∀ mode, c.probeEvery ≤ c.wait mode
  most : ∀ mode, c.wait mode ≤ c.probeWaitMax

/-- The same accounts, offsets and prices, and waits still. -/
structure Books (c c' : RateController) : Prop where
  settings : c'.settings = c.settings
  accounts : c'.accounts = c.accounts
  family : c'.family = c.family
  prices : (c'.controlS, c'.gapS) = (c.controlS, c.gapS)
  waits : c.Waits → c'.Waits

theorem Books.refl (c : RateController) : Books c c := ⟨rfl, rfl, rfl, rfl, id⟩

theorem Books.trans (first : Books c c') (second : Books c' c'') : Books c c'' where
  settings := second.settings.trans first.settings
  accounts := second.accounts.trans first.accounts
  family := second.family.trans first.family
  prices := second.prices.trans first.prices
  waits waits := second.waits (first.waits waits)

theorem Books.foldl {α : Type*} {op : RateController → α → RateController} (each : ∀ c x, Books c (op c x))
    (xs : List α) (c : RateController) : Books c (xs.foldl op c) := by
  induction xs generalizing c with
  | nil => exact .refl c
  | cons x rest ih => exact (each c x).trans (ih (op c x))

theorem Books.unseen (same : (c'.settings, c'.accounts, c'.family, c'.controlS, c'.gapS, c'.probeWait) =
    (c.settings, c.accounts, c.family, c.controlS, c.gapS, c.probeWait)) : Books c c' := by
  simp only [Prod.mk.injEq] at same
  obtain ⟨set_, accounts, family, control, gap, waits⟩ := same
  refine ⟨set_, accounts, family, by rw [control, gap], fun was => ?_⟩
  simp only [RateController.settings, Prod.mk.injEq] at set_
  obtain ⟨-, -, every, max_⟩ := set_
  have wait (mode : Nat) : c'.wait mode = c.wait mode := by rw [wait, wait, waits, every]
  exact ⟨by rw [every, max_]; exact was.some_, fun mode => by rw [wait, every]; exact was.least mode,
    fun mode => by rw [wait, max_]; exact was.most mode⟩

theorem observeSnr_books (c : RateController) (snrDb : Option ℚ) : Books c (c.observeSnr snrDb) := by
  unfold observeSnr
  split <;> exact .unseen rfl

theorem judgeFamily_books (c : RateController) (frames : List FrameOutcome) : Books c (c.judgeFamily frames) := by
  unfold judgeFamily
  extract_lets ofdm
  split <;> exact .unseen rfl

theorem passAir_books (c : RateController) (air : ℚ) : Books c (c.passAir air) := .foldl (fun _ _ => .unseen (by rfl)) _ c

theorem cancelTry_books (c : RateController) : Books c c.cancelTry := .unseen rfl

theorem Waits.set (waits : c.Waits) (mode : Nat) {wait : Nat} (least : c.probeEvery ≤ wait) (most : wait ≤ c.probeWaitMax) :
    ({ c with probeWait := c.probeWait.set mode (some wait) } : RateController).Waits := by
  have is (m : Nat) : ({ c with probeWait := c.probeWait.set mode (some wait) } : RateController).wait m = wait ∨
      ({ c with probeWait := c.probeWait.set mode (some wait) } : RateController).wait m = c.wait m := by
    simp only [RateController.wait, List.getD_eq_getElem?_getD, List.getElem?_set]
    split
    · split
      · exact .inl rfl
      · rename_i same past
        refine .inr ?_
        rw [← same, List.getElem?_eq_none (not_lt.mp past)]
    · exact .inr rfl
  refine ⟨waits.some_, fun m => ?_, fun m => ?_⟩
  · rcases is m with is | is
    · rw [is]; exact least
    · rw [is]; exact waits.least m
  · rcases is m with is | is
    · rw [is]; exact most
    · rw [is]; exact waits.most m

section
variable [Libm]

theorem judgeTry_books (c : RateController) (mode : Nat) : Books c (c.judgeTry mode).1 := by
  unfold judgeTry
  split
  · exact ⟨rfl, rfl, rfl, rfl, fun waits => waits.set mode le_rfl waits.some_⟩
  · have longer : Books c { c with probeWait := c.probeWait.set mode (some (min c.probeWaitMax (2 * c.wait mode))) } := by
      refine ⟨rfl, rfl, rfl, rfl, fun waits => waits.set mode (le_min waits.some_ ?_) (min_le_left ..)⟩
      have least := waits.least mode
      omega
    exact longer.trans (.unseen (by rfl))

theorem endProbe_books (c : RateController) (measured : Bool) : Books c (c.endProbe measured) := by
  unfold endProbe
  split
  · exact .refl c
  · rename_i mode _
    extract_lets c₁
    have first : Books c c₁ := cancelTry_books c
    split
    · exact first
    · have second := first.trans (judgeTry_books c₁ mode)
      split
      rename_i c₂ carried judged
      have judged : (c₁.judgeTry mode).1 = c₂ := congrArg Prod.fst judged
      rw [judged] at second
      split
      · exact second
      · extract_lets c₃
        have third : Books c c₃ := second.trans (.unseen (by rfl))
        split
        · exact third.trans (.unseen (by rfl))
        · exact third

theorem countTry_books (c : RateController) (frames : List FrameOutcome) : Books c (c.countTry frames) := by
  unfold countTry
  split
  · exact .refl c
  · extract_lets c₁
    have counted : Books c c₁ := .unseen rfl
    split
    · exact counted.trans (endProbe_books _ _)
    · exact counted

theorem decide_books (c : RateController) : Books c c.decide := by
  unfold RateController.decide
  extract_lets candidates
  split
  · exact .unseen rfl
  · extract_lets c₁ up mode
    have same : Books c c₁ := .unseen rfl
    split
    · split
      · exact same
      · exact same.trans (cancelTry_books c₁)
    · split
      · exact same
      · split
        · exact same
        · split
          · exact same.trans (.unseen (by rfl))
          · exact same

theorem observeEcho_books (c : RateController) (share : Option ℚ) (snrDb : ℚ) : Books c (c.observeEcho share snrDb) := by
  cases share with
  | none => exact .refl c
  | some share =>
    by_cases read : snrDb < c.echoMinSnrDb
    · have same : c.observeEcho (some share) snrDb = c := if_pos read
      rw [same]
      exact .refl c
    · obtain ⟨index, is, -⟩ := observeEcho_index (c := c) share read
      have heard : Books c (c.heardEcho share) := .unseen rfl
      have ruled : Books (c.heardEcho share) (c.heardEcho share).ruleOut := by
        unfold ruleOut
        split
        · split
          · exact cancelTry_books _
          · exact .refl _
        · exact .refl _
      rw [is]
      exact (heard.trans ruled).trans (.unseen (by rfl))

theorem seed_books (c : RateController) (snrDb : ℚ) : Books c (c.seed snrDb) := by
  unfold RateController.seed
  split
  · exact .refl c
  · exact .unseen rfl

/-- A transmission's frames: the offsets moved by each, every account by each, and nothing else of the
books. -/
theorem observeFrames_books (c : RateController) {frames : List FrameOutcome} (snrDb : Option ℚ)
    (some_ : frames.isEmpty = false) : ∃ c₁ c₂, Books c c₁ ∧
      (c₂ = c₁ ∨ ∃ snr, c₂ = frames.foldl (fun c f => c.surprise snr f) c₁) ∧
      Books (frames.foldl (fun c f => c.charge f) c₂) (c.observeFrames frames snrDb) := by
  have read := observeSnr_books c snrDb
  unfold RateController.observeFrames
  extract_lets c₁ c₂ c₃ c₄ sent c₅ here atHere clean c₆ c₇
  rw [if_neg (by simp [some_])]
  have second : c₂ = c₁ ∨ ∃ snr, c₂ = frames.foldl (fun c f => c.surprise snr f) c₁ := by
    unfold c₂
    split
    · rename_i snr _
      split
      · exact .inr ⟨snr, rfl⟩
      · exact .inl rfl
    · exact .inl rfl
  have fourth : Books c₃ c₄ := judgeFamily_books c₃ frames
  have fifth : Books c₄ c₅ := passAir_books c₄ _
  have sixth : Books c₅ c₆ := .unseen rfl
  have seventh : Books c₆ c₇ := .foldl (fun c mode => by
    split
    · exact judgeTry_books c mode
    · exact .refl c) sent c₆
  exact ⟨c₁, c₂, read, second, (((fourth.trans fifth).trans sixth).trans seventh).trans
    ((countTry_books c₇ frames).trans (decide_books _))⟩

/-! ### What they keep -/

/-- What a frame's rung keeps of its account for a frame of its own. -/
def ownDecay : ℚ := Libm.powf (1 / 2) (1 / 12)

/-- Something that an empty account has, and one aged, and one that takes a frame. -/
structure Kept (P : Nat → Account → Prop) (good : FrameOutcome → Prop) : Prop where
  empty : ∀ mode, P mode {}
  aged : ∀ mode a k, 0 < k → k ≤ 1 → P mode a → P mode (a.scale k)
  takes : ∀ f a, good f → P f.mode a → P f.mode ((a.scale ownDecay).take f)

/-- One frame's charge: its rung's account takes it, another ages, and an empty one stays. -/
theorem charge_cases (tame : Libm.Tame) (life : c.halfLife = 12) (air : ∀ s ∈ c.frameS, 0 < s) {f : FrameOutcome}
    (positive : 0 ≤ f.airS) (mode : Nat) :
    (c.charge f).account mode = {} ∨ (c.charge f).account mode = c.account mode ∨
      mode = f.mode ∧ (c.charge f).account mode = ((c.account mode).scale ownDecay).take f ∨
      ∃ k, 0 < k ∧ k ≤ 1 ∧ (c.charge f).account mode = (c.account mode).scale k := by
  have frame : 0 ≤ c.frameS.getD mode 0 := by
    rw [List.getD_eq_getElem?_getD]
    cases is : c.frameS[mode]? with
    | none => exact le_rfl
    | some s => exact (air s (List.mem_of_getElem? is)).le
  unfold charge account
  simp only [List.getD_eq_getElem?_getD, List.getElem?_set, List.length_mapIdx, List.getElem?_mapIdx]
  by_cases same : f.mode = mode
  · rw [if_pos same]
    split
    · refine .inr (.inr (.inl ⟨same.symm, ?_⟩))
      rw [same, life]
      rfl
    · rename_i past
      rw [← same, List.getElem?_eq_none (not_lt.mp past)]
      exact .inl rfl
  · rw [if_neg same]
    cases is : c.accounts[mode]? with
    | none => exact .inl rfl
    | some old =>
      have other : mode ≠ f.mode := fun is => same is.symm
      rw [Option.map_some, if_neg other]
      cases old with
      | none => exact .inl rfl
      | some old =>
        refine .inr (.inr (.inr ⟨Libm.powf (1 / 2) (f.airS / (c.halfLife * c.frameS.getD mode 0)), ?_⟩))
        have turns : 0 ≤ f.airS / (c.halfLife * c.frameS.getD mode 0) := by
          rw [life]
          positivity
        obtain ⟨some_, part⟩ := tame.halves _ turns
        refine ⟨some_, part, ?_⟩
        rw [List.getD_eq_getElem?_getD]
        rfl

/-- A frame of a table's rung: of its data bytes, and of its air at least. -/
structure OfTable (capacity : List Nat) (frameS : List ℚ) (f : FrameOutcome) : Prop where
  capacity : f.capacity = capacity.getD f.mode 0
  long : frameS.getD f.mode 1 ≤ f.airS

/-- What holds of a controller over a table, whatever was called. -/
structure Sound (c₀ : RateController) (P : Nat → Account → Prop) (c : RateController) : Prop where
  settings : c.settings = c₀.settings
  accounts : ∀ mode, P mode (c.account mode)
  family : ∀ floor, -5 ≤ c.family.get floor ∧ c.family.get floor ≤ 20
  prices : (∀ control ∈ c.controlS, ∀ floor, 0 ≤ control.get floor) ∧ 0 ≤ c.gapS
  waits : c.Waits

variable {P : Nat → Account → Prop} {good : FrameOutcome → Prop}

omit [Libm] in
theorem Sound.books (sound : Sound c₀ P c) (books : Books c c') : Sound c₀ P c' where
  settings := books.settings.trans sound.settings
  accounts mode := by
    have is : c'.account mode = c.account mode := by rw [account, account, books.accounts]
    exact is ▸ sound.accounts mode
  family := books.family ▸ sound.family
  prices := by
    obtain ⟨control, gap⟩ := Prod.mk.inj books.prices
    rw [control, gap]
    exact sound.prices
  waits := books.waits sound.waits

theorem Sound.surprise (sound : Sound c₀ P c) (snr : ℚ) (f : FrameOutcome) : Sound c₀ P (c.surprise snr f) := by
  unfold RateController.surprise
  split
  · exact sound
  · extract_lets floor offset
    refine ⟨sound.settings, sound.accounts, fun other => ?_, sound.prices, sound.waits.some_, sound.waits.least,
      sound.waits.most⟩
    have clamped : -5 ≤ max (-5) (min 20 offset) ∧ max (-5) (min 20 offset) ≤ 20 :=
      ⟨le_max_left .., max_le (by norm_num) (min_le_left ..)⟩
    have before := sound.family other
    unfold ByFamily.get ByFamily.set at *
    split <;> split <;> simp_all

theorem Sound.charge (sound : Sound c₀ P c) (tame : Libm.Tame) (life : c₀.halfLife = 12) (air : ∀ s ∈ c₀.frameS, 0 < s)
    (kept : Kept P good) {f : FrameOutcome} (positive : 0 ≤ f.airS) (good_ : good f) : Sound c₀ P (c.charge f) := by
  refine ⟨sound.settings, fun mode => ?_, sound.family, sound.prices, sound.waits.some_, sound.waits.least, sound.waits.most⟩
  have set_ := sound.settings
  simp only [RateController.settings, Prod.mk.injEq] at set_
  obtain ⟨⟨-, -, frames, -⟩, ⟨half, -⟩, -⟩ := set_
  have before := sound.accounts mode
  rcases charge_cases tame (half.trans life) (frames ▸ air) positive mode with is | is | ⟨rfl, is⟩ | ⟨k, some_, part, is⟩
  · rw [is]; exact kept.empty mode
  · rw [is]; exact before
  · rw [is]; exact kept.takes f _ good_ before
  · rw [is]; exact kept.aged mode _ k some_ part before

end

def Call.Fair (good : FrameOutcome → Prop) : Call → Prop
  | .observeFrames frames _ => ∀ f ∈ frames, 0 ≤ f.airS ∧ good f
  | .priceExchanges controlFloorS controlOrdinaryS gapS _ => 0 ≤ controlFloorS ∧ 0 ≤ controlOrdinaryS ∧ 0 ≤ gapS
  | _ => True

section
variable [Libm] {P : Nat → Account → Prop} {good : FrameOutcome → Prop}

theorem Sound.observeFrames (sound : Sound c₀ P c) (tame : Libm.Tame) (life : c₀.halfLife = 12)
    (air : ∀ s ∈ c₀.frameS, 0 < s) (kept : Kept P good) {frames : List FrameOutcome}
    (fair : ∀ f ∈ frames, 0 ≤ f.airS ∧ good f) (snrDb : Option ℚ) : Sound c₀ P (c.observeFrames frames snrDb) := by
  cases none_ : frames.isEmpty with
  | true =>
    rw [observeFrames_empty c snrDb none_]
    exact sound.books (observeSnr_books c snrDb)
  | false =>
    obtain ⟨c₁, c₂, first, second, last⟩ := observeFrames_books c snrDb none_
    have read := sound.books first
    have surprised : Sound c₀ P c₂ := by
      rcases second with rfl | ⟨snr, rfl⟩
      · exact read
      · exact List.foldlRecOn frames _ read fun c sound f _ => sound.surprise snr f
    have charged : Sound c₀ P (frames.foldl (fun c f => c.charge f) c₂) :=
      List.foldlRecOn frames _ surprised fun c sound f member =>
        sound.charge tame life air kept (fair f member).1 (fair f member).2
    exact charged.books last

theorem Sound.call (sound : Sound c₀ P c) (tame : Libm.Tame) (life : c₀.halfLife = 12) (air : ∀ s ∈ c₀.frameS, 0 < s)
    (kept : Kept P good) {made : Call} (fair : made.Fair good) : Sound c₀ P (c.call made) := by
  cases made with
  | seed snrDb => exact sound.books (seed_books c snrDb)
  | observeFrames frames snrDb => exact sound.observeFrames tame life air kept fair snrDb
  | observeSnr snrDb => exact sound.books (observeSnr_books c snrDb)
  | observeEcho share snrDb => exact sound.books (observeEcho_books c share snrDb)
  | silent steps => exact sound.books ((cancelTry_books c).trans (.unseen rfl))
  | priceExchanges controlFloorS controlOrdinaryS gapS burstFrames =>
    obtain ⟨floor, ordinary, gap⟩ := fair
    refine ⟨sound.settings, sound.accounts, sound.family, ⟨fun control is isFloor => ?_, gap⟩, sound.waits.some_,
      sound.waits.least, sound.waits.most⟩
    obtain rfl := Option.some.inj is
    unfold ByFamily.get
    split <;> assumption
  | setFamilies ownFloor otherFloor => exact sound.books (.unseen rfl)

theorem Sound.calls (sound : Sound c₀ P c) (tame : Libm.Tame) (life : c₀.halfLife = 12) (air : ∀ s ∈ c₀.frameS, 0 < s)
    (kept : Kept P good) {made : List Call} (fair : ∀ call ∈ made, call.Fair good) : Sound c₀ P (c.calls made) := by
  induction made generalizing c with
  | nil => exact sound
  | cons first rest ih =>
    obtain ⟨here, later⟩ := List.forall_mem_cons.mp fair
    exact ih (sound.call tame life air kept here) later

theorem sound_forTable (thresholds : List ℚ) (payload capacity : List Nat) (frameS : List ℚ) (floorModes : Nat)
    (echoLimit : List (Option ℚ)) (kept : Kept P good) :
    Sound (forTable thresholds payload capacity frameS floorModes echoLimit) P
      (forTable thresholds payload capacity frameS floorModes echoLimit) := by
  have none_ (α : Type) (n mode : Nat) : (List.replicate n (none : Option α)).getD mode none = none := by
    rw [List.getD_eq_getElem?_getD, List.getElem?_replicate]
    split <;> rfl
  have wait (mode : Nat) : (forTable thresholds payload capacity frameS floorModes echoLimit).wait mode = 6 := by
    simp only [RateController.wait, forTable, none_]
    rfl
  refine ⟨rfl, fun mode => ?_, fun floor => ?_, ⟨fun _ member => (by cases member), le_rfl⟩, (by decide : 6 ≤ 48),
    fun mode => (wait mode).ge, fun mode => ?_⟩
  · have is : (forTable thresholds payload capacity frameS floorModes echoLimit).account mode = {} := by
      simp only [account, forTable, none_]
      rfl
    rw [is]
    exact kept.empty mode
  · simp [forTable, ByFamily.get]
  · rw [wait]
    exact (by decide : 6 ≤ 48)

/-! ### What is kept of the accounts -/

theorem ownDecay_part (tame : Libm.Tame) : 0 < ownDecay ∧ ownDecay ≤ 1 := tame.halves _ (by norm_num)

theorem kept_earned (tame : Libm.Tame) {capacity : List Nat} {frameS : List ℚ} (air : ∀ mode, 0 < frameS.getD mode 1) :
    Kept (fun mode account => Earned (capacity.getD mode 0 : Nat) (frameS.getD mode 1) account)
      (OfTable capacity frameS) where
  empty mode := earned_empty
  aged mode a k some_ _ earned := earned.scale some_.le
  takes f a of earned := by
    have aged := earned.scale (ownDecay_part tame).1.le
    rw [← of.capacity] at aged ⊢
    exact aged.take (air f.mode) of.long

/-- No account's frames are past where one frame after another would settle. -/
theorem kept_frames (tame : Libm.Tame) : Kept (fun _ account => account.frames * (1 - ownDecay) ≤ 1) fun _ => True where
  empty mode := by simp
  aged mode a k some_ part settled := settles_aged some_.le part zero_le_one settled
  takes f a _ settled := settles (ownDecay_part tame).1.le (ownDecay_part tame).2 settled le_rfl

theorem kept_air (tame : Libm.Tame) {longest : ℚ} (some_ : 0 ≤ longest) :
    Kept (fun _ account => account.airS * (1 - ownDecay) ≤ longest) fun f => f.airS ≤ longest where
  empty mode := by simpa using some_
  aged mode a k positive part settled := settles_aged positive.le part some_ settled
  takes f a short settled := settles (ownDecay_part tame).1.le (ownDecay_part tame).2 settled short

/-! ### What is made of them -/

theorem decodeProbability_chance (tame : Libm.Tame) (snrDb thresholdDb slopeDb : ℚ) :
    0 ≤ decodeProbability snrDb thresholdDb slopeDb ∧ decodeProbability snrDb thresholdDb slopeDb ≤ 1 := by
  unfold decodeProbability
  extract_lets x
  have exp := tame.exp (-x)
  split
  · exact ⟨le_rfl, zero_le_one⟩
  · refine ⟨by positivity, ?_⟩
    rw [div_le_one (by positivity)]
    linarith [div_nonneg exp (by norm_num : (0 : ℚ) ≤ 9)]

/-- A rung whose account is one of its frames carries what it is estimated to, or more. -/
theorem estimate_le (tame : Libm.Tame) (mode : Nat) (positive : 0 < c.frameS.getD mode 1) (weight : 0 < c.priorFrames)
    (earned : Earned (c.capacity.getD mode 0 : Nat) (c.frameS.getD mode 1) (c.account mode)) :
    0 ≤ c.estimate mode ∧ c.estimate mode ≤ c.lossless mode := by
  unfold estimate estimateAt lossless
  extract_lets cap air prior acc
  have some_ : 0 ≤ cap := Nat.cast_nonneg _
  have within : 0 ≤ prior ∧ prior ≤ cap := by
    unfold prior
    split
    · obtain ⟨least, most⟩ := decodeProbability_chance tame
        (‹ℚ› - c.family.get (c.isFloor mode) - c.priorMarginDb) (c.thresholds.getD mode 0) c.slopeDb
      exact ⟨mul_nonneg some_ least, mul_le_of_le_one_right some_ most⟩
    · exact ⟨le_rfl, some_⟩
  exact earned.estimate positive weight within.1 within.2

omit [Libm] in
/-- What an exchange takes besides its frames. -/
def overhead (c : RateController) (mode : Nat) : ℚ :=
  match c.controlS with
  | none => 0
  | some control =>
    control.get (c.families.getD (c.isFloor mode, c.isFloor mode)).1 +
      control.get (c.families.getD (c.isFloor mode, c.isFloor mode)).2 + c.gapS

omit [Libm] in
theorem priced_eq (mode : Nat) (perAir : ℚ) : c.priced mode perAir =
    if c.controlS = none ∨ c.burstFrames.getD mode 0 = 0 then perAir
    else perAir * ((c.burstFrames.getD mode 0 : Nat) * c.frameS.getD mode 1) /
      ((c.burstFrames.getD mode 0 : Nat) * c.frameS.getD mode 1 + c.overhead mode) := by
  unfold priced overhead
  cases c.controlS with
  | none => simp
  | some control =>
    dsimp only
    split <;> simp_all

omit [Libm] in
theorem Sound.overhead (sound : Sound c₀ P c) (mode : Nat) : 0 ≤ c.overhead mode := by
  unfold RateController.overhead
  split
  · exact le_rfl
  · rename_i control is
    have least := sound.prices.1 control is
    exact add_nonneg (add_nonneg (least _) (least _)) sound.prices.2

omit [Libm] in
/-- A price is of an estimate, and keeps their order. -/
theorem Sound.priced (sound : Sound c₀ P c) (mode : Nat) (positive : 0 < c.frameS.getD mode 1) {low high : ℚ} (least : 0 ≤ low)
    (le : low ≤ high) : 0 ≤ c.priced mode low ∧ c.priced mode low ≤ c.priced mode high := by
  have shared := sound.overhead mode
  rw [priced_eq, priced_eq]
  split
  · exact ⟨least, le⟩
  · constructor
    · positivity
    · gcongr

/-- Every divisor of what a rung is measured and ranked by is positive. -/
structure Divides (c : RateController) (mode : Nat) : Prop where
  frame : 0 < c.frameS.getD mode 1
  account : 0 < (c.account mode).airS + c.priorFrames * c.frameS.getD mode 1
  slope : 0 < c.slopeDb
  chance : ∀ x, 0 < 1 + Libm.exp x / 9
  exchange : 0 < c.burstFrames.getD mode 0 →
    0 < (c.burstFrames.getD mode 0 : Nat) * c.frameS.getD mode 1 + c.overhead mode
  life : 0 < c.halfLife
  ages : mode < c.frameS.length → 0 < c.halfLife * c.frameS.getD mode 0

/-- No rung is estimated to carry more than it can, nor valued at more than that is worth, whatever
frames of the table are observed; nothing is divided by zero, the accounts settle under their bounds,
and the offsets and the waits stay within theirs. -/
theorem never_past_lossless (tame : Libm.Tame) {thresholds : List ℚ} {payload : List Nat} {frameS : List ℚ}
    (table : RungTable thresholds payload frameS) (capacity : List Nat) (floorModes : Nat) (echoLimit : List (Option ℚ))
    {made : List Call} (fair : ∀ call ∈ made, call.Fair (OfTable capacity frameS)) :
    let c := (forTable thresholds payload capacity frameS floorModes echoLimit).calls made;
    (∀ mode, 0 ≤ c.estimate mode ∧ c.estimate mode ≤ c.lossless mode) ∧
    (∀ mode, 0 ≤ c.value mode ∧ c.value mode ≤ c.priced mode (c.lossless mode)) ∧
    (∀ mode, c.Divides mode) ∧
    (∀ mode, 0 ≤ (c.account mode).frames ∧ 0 ≤ (c.account mode).airS ∧
      (ownDecay < 1 → (c.account mode).frames ≤ 1 / (1 - ownDecay) ∧
        ∀ longest, 0 ≤ longest → (∀ call ∈ made, call.Fair fun f => f.airS ≤ longest) →
          (c.account mode).airS ≤ longest / (1 - ownDecay))) ∧
    (∀ floor, -5 ≤ c.family.get floor ∧ c.family.get floor ≤ 20) ∧
    (∀ mode, c.probeEvery ≤ c.wait mode ∧ c.wait mode ≤ c.probeWaitMax) ∧
    ∀ mode ∈ c.probing, c.estimate mode ≤ c.lossless mode := by
  intro c
  have air (mode : Nat) : 0 < frameS.getD mode 1 := by
    rw [List.getD_eq_getElem?_getD]
    cases is : frameS[mode]? with
    | none => exact one_pos
    | some s => exact table.air s (List.mem_of_getElem? is)
  have sound {P : Nat → Account → Prop} {good : FrameOutcome → Prop} (kept : Kept P good)
      (fair : ∀ call ∈ made, call.Fair good) : Sound (forTable thresholds payload capacity frameS floorModes echoLimit) P c :=
    (sound_forTable thresholds payload capacity frameS floorModes echoLimit kept).calls tame rfl table.air kept fair
  have earned := sound (kept_earned tame air) fair
  have set_ : c.settings = (forTable thresholds payload capacity frameS floorModes echoLimit).settings := earned.settings
  simp only [settings, forTable, Prod.mk.injEq] at set_
  obtain ⟨⟨-, capacities, frames, -⟩, ⟨life, weight, slope, -⟩, -⟩ := set_
  have frame (mode : Nat) : 0 < c.frameS.getD mode 1 := frames ▸ air mode
  have account (mode : Nat) : Earned (c.capacity.getD mode 0 : Nat) (c.frameS.getD mode 1) (c.account mode) := by
    rw [capacities, frames]
    exact earned.accounts mode
  have priorFrames : 0 < c.priorFrames := by rw [weight]; norm_num
  have estimate (mode : Nat) := estimate_le tame mode (frame mode) priorFrames (account mode)
  have every : ∀ call ∈ made, call.Fair fun _ => True := by
    intro call member
    have holds := fair call member
    cases call with
    | observeFrames frames snrDb => exact fun f among => ⟨(holds f among).1, trivial⟩
    | priceExchanges => exact holds
    | _ => trivial
  have decay := ownDecay_part tame
  refine ⟨estimate, fun mode => earned.priced mode (frame mode) (estimate mode).1 (estimate mode).2, fun mode => ?_,
    fun mode => ⟨(account mode).frames, (account mode).air, fun short => ⟨?_, fun longest some_ within => ?_⟩⟩,
    earned.family, fun mode => ⟨earned.waits.least mode, earned.waits.most mode⟩, fun mode _ => (estimate mode).2⟩
  · have positive := frame mode
    have shared := earned.overhead mode
    refine ⟨positive, add_pos_of_nonneg_of_pos (account mode).air (mul_pos priorFrames positive), ?_, fun x => ?_,
      fun some_ => ?_, ?_, fun inside => ?_⟩
    · rw [slope]; norm_num
    · linarith [div_nonneg (tame.exp x) (by norm_num : (0 : ℚ) ≤ 9)]
    · have frames : (0 : ℚ) < (c.burstFrames.getD mode 0 : Nat) := Nat.cast_pos.mpr some_
      exact add_pos_of_pos_of_nonneg (mul_pos frames positive) shared
    · rw [life]; norm_num
    · rw [List.getD_eq_getElem _ _ inside] at positive ⊢
      rw [life]
      linarith
  · rw [le_div_iff₀ (sub_pos.mpr short)]
    exact (sound (kept_frames tame) every).accounts mode
  · rw [le_div_iff₀ (sub_pos.mpr short)]
    exact (sound (kept_air tame some_) within).accounts mode

end

end RateController

namespace Undecayed

/-- Functions of their kind under which nothing ages. -/
scoped instance libm : Libm where
  exp _ := 0
  powf _ _ := 1
  log10 _ := 0

theorem tame : Libm.Tame := ⟨fun _ => le_rfl, fun _ _ => ⟨one_pos, le_rfl⟩⟩

end Undecayed

namespace RateController

open Undecayed

/-- A frame of a second, lost. -/
def lostFrame : FrameOutcome := ⟨0, 1, 10, false, false, false⟩

/-- A ladder of one rung, frames of a second. -/
def oneRung : RateController := forTable [0] [13] [10] [1] 0 [none]

theorem frames_undecayed (n : Nat) :
    let c := oneRung.calls (List.replicate n (.observeFrames [lostFrame] none));
    c.accounts.length = 1 ∧ (c.account 0).frames = n := by
  induction n with
  | zero => exact ⟨rfl, rfl⟩
  | succ n ih =>
    rw [List.replicate_succ', calls, List.foldl_append, List.foldl_cons, List.foldl_nil, ← calls]
    generalize oneRung.calls (List.replicate n (.observeFrames [lostFrame] none)) = c at ih
    obtain ⟨length, counted⟩ := ih
    obtain ⟨c₁, c₂, first, second, last⟩ := observeFrames_books c none (show [lostFrame].isEmpty = false from rfl)
    have same : c₂.accounts = c.accounts := by
      rw [← first.accounts]
      rcases second with rfl | ⟨snr, rfl⟩
      · rfl
      · rw [List.foldl_cons, List.foldl_nil, surprise]
        split <;> rfl
    have accounts : (c.call (.observeFrames [lostFrame] none)).accounts = (c₂.charge lostFrame).accounts := last.accounts
    have was : c₂.account 0 = c.account 0 := by rw [account, account, same]
    dsimp only
    constructor
    · rw [accounts, charge, List.length_set, List.length_mapIdx, same, length]
    · rw [account, accounts, charge]
      simp only [List.getD_eq_getElem?_getD, List.getElem?_set, List.length_mapIdx, same, length]
      simp only [lostFrame, if_pos, Nat.zero_lt_one, Option.getD_some, was, Account.scale, counted]
      push_cast
      simp [Libm.powf]

/-- A frame with decay, on a ladder of one rung. -/
theorem never_past_lossless_one :
    (oneRung.calls [.observeFrames [lostFrame] (some 3)]).estimate 0 ≤
      (oneRung.calls [.observeFrames [lostFrame] (some 3)]).lossless 0 := by
  have table : RungTable [0] [13] [1] := ⟨by simp, rfl, rfl, by simp⟩
  have fair : ∀ call ∈ [Call.observeFrames [lostFrame] (some 3)], call.Fair (OfTable [10] [1]) := by
    intro call member
    obtain rfl := List.mem_singleton.mp member
    intro f among
    obtain rfl := List.mem_singleton.mp among
    exact ⟨by decide, rfl, le_rfl⟩
  exact ((never_past_lossless tame table [10] 0 [none] fair).1 0).2

/-- Where a frame takes no time there is nothing to divide by; and with no decay frames go past any
bound. -/
theorem never_past_lossless_unbounded :
    (let c := forTable [0] [13] [10] [0] 0 [none];
      c.frameS.getD 0 1 = 0 ∧ (c.account 0).airS + c.priorFrames * c.frameS.getD 0 1 = 0) ∧
    ¬∃ bound, ∀ n, ((oneRung.calls (List.replicate n (.observeFrames [lostFrame] none))).account 0).frames ≤ bound := by
  refine ⟨by decide +kernel, fun ⟨bound, under⟩ => ?_⟩
  obtain ⟨n, past⟩ := exists_nat_gt bound
  have most := under n
  rw [(frames_undecayed n).2] at most
  exact absurd past (not_lt.mpr most)

end RateController

end AetherHF.Link
