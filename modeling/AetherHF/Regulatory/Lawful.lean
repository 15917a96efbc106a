import Mathlib.Tactic.Linarith
import Mathlib.Tactic.Ring
import AetherHF.Regulatory.Policy
import AetherHF.Regulatory.UsFcc

/-! What the policy asks of a data emission before it lets it go, and what the rules ask:
off the channels' band the two agree, and on it the policy asks less. -/
namespace AetherHF.Regulatory

variable {profile : Profile} {s : Situation} {tx : Transmission}

/-! ### A transmission on the air -/

/-- A transmission of which everything the rules need is known. -/
structure Placed (profile : Profile) (s : Situation) (tx : Transmission) where
  control : ControlMode
  license : LicenseClass
  sideband : Sideband
  dial : ℚ
  region : s.ituRegion = profile.ituRegion
  control_eq : s.control = some control
  license_eq : s.license = some license
  sideband_eq : s.sideband = some sideband
  dial_eq : s.dialHz = some dial

namespace Placed

variable (p : Placed profile s tx)

/-- The audio it occupies as the profile reads bandwidth. -/
def audio (_ : Placed profile s tx) : ℚ × ℚ := tx.audio.range profile.reading

def width : ℚ := p.audio.2 - p.audio.1

def lo : ℚ := (rfRange p.dial p.sideband p.audio.1 p.audio.2).1

def hi : ℚ := (rfRange p.dial p.sideband p.audio.1 p.audio.2).2

/-- The range on the air widened by the margin. -/
def glo : ℚ := p.lo - s.marginHz

def ghi : ℚ := p.hi + s.marginHz

/-- Under automatic control, and no operator's test. -/
def Automatic : Prop := p.control = .automatic ∧ tx.direction ≠ .operator

instance : Decidable p.Automatic := inferInstanceAs (Decidable (_ ∧ _))

theorem unique (p' p : Placed profile s tx) : p' = p := by
  obtain ⟨control, license, sideband, dial, _, control_eq, license_eq, sideband_eq, dial_eq⟩ := p
  obtain ⟨control', license', sideband', dial', _, control_eq', license_eq', sideband_eq', dial_eq'⟩ := p'
  obtain rfl := Option.some.inj (control_eq.symm.trans control_eq')
  obtain rfl := Option.some.inj (license_eq.symm.trans license_eq')
  obtain rfl := Option.some.inj (sideband_eq.symm.trans sideband_eq')
  obtain rfl := Option.some.inj (dial_eq.symm.trans dial_eq')
  rfl

/-- The width on the air is the audio's. -/
theorem hi_sub_lo : p.hi - p.lo = p.width := by
  unfold hi lo width
  cases p.sideband <;> simp only [rfRange] <;> ring

theorem glo_le_ghi (ordered : tx.audio.Ordered) (margin : 0 ≤ s.marginHz) : p.glo ≤ p.ghi := by
  have audio : p.audio.1 ≤ p.audio.2 := ordered.range profile.reading
  have width := p.hi_sub_lo
  unfold Placed.width at width
  unfold glo ghi
  linarith

end Placed

/-! ### What the policy asks -/

/-- Automatic control: a segment for it, or what is asked elsewhere. -/
def AutomaticHolds (profile : Profile) (direction : Direction) (width glo ghi : ℚ) : Prop :=
  (∃ a ∈ profile.automatic.segments, a.holds glo ghi = true) ∨
    ∃ e, profile.automatic.elsewhere = some e ∧ width ≤ e.maxBandwidthHz ∧
      (e.requiresResponse = true → direction = .respond)

/-- Off the channels' band, as the policy finds it. -/
structure ByData (p : Placed profile s tx) : Prop where
  segment : ∃ seg, profile.dataSegments.find? (·.range.holds p.glo p.ghi) = some seg ∧
    p.width ≤ (seg.dataLimit profile.data).1
  privilege : ∃ pr, (privilegesOf profile p.license).find? (·.range.holds p.glo p.ghi) = some pr ∧
    pr.allows "data" = true
  automatic : p.Automatic → AutomaticHolds profile tx.direction p.width p.glo p.ghi

/-- On the first channel it touches, set up as the channel is. -/
def OnChannel (p : Placed profile s tx) (channels : Channels) : Prop :=
  ∃ channel, (channels.list.find? fun ch => (channelRange channels ch).overlaps (p.lo - s.marginHz) (p.hi + s.marginHz)) =
      some channel ∧ p.sideband.name = channels.sideband ∧
    |p.dial - (channel.centerHz - channels.carrierOffsetHz)| ≤ channels.carrierToleranceHz ∧
    (channelRange channels channel).holds p.glo p.ghi = true

/-- On no channel, in a segment of their band. -/
def OffChannel (p : Placed profile s tx) (channels : Channels) : Prop :=
  (channels.list.find? fun ch => (channelRange channels ch).overlaps (p.lo - s.marginHz) (p.hi + s.marginHz)) = none ∧
    (∃ seg, (profile.dataSegments.find? fun seg => seg.band == channels.band && seg.range.holds p.glo p.ghi) = some seg) ∧
    p.width ≤ profile.data.maxBandwidthHz

/-- In the channels' band, as the policy finds it. -/
structure BySixty (p : Placed profile s tx) (channels : Channels) : Prop where
  privilege : ∃ pr ∈ privilegesOf profile p.license, pr.range.holds p.lo p.hi = true
  emission : ∀ e, profile.sixtyMeterEmissions = some e → "data" ∈ e.allowed
  place : OnChannel p channels ∨ OffChannel p channels

/-- The band the policy finds, automatic control not excluded from it. -/
structure InBand (p : Placed profile s tx) (band : Band) : Prop where
  holding : profile.bandHolding p.glo p.ghi = some band
  open_ : p.Automatic → ∀ x ∈ profile.automatic.excludedBands, x.band ≠ band.name

/-- What the policy asks of a data emission. -/
def Admitted (p : Placed profile s tx) : Prop :=
  ∃ band, InBand p band ∧
    ((∃ channels, profile.channels = some channels ∧ channels.band = band.name ∧ BySixty p channels) ∨
      (∀ channels, profile.channels = some channels → channels.band ≠ band.name) ∧ ByData p)

/-! ### The judgements -/

theorem powerNote_allowed {decision : Decision} (allowed : decision.allowed = true) (license : LicenseClass) (lo hi : ℚ)
    (limit : PowerLimit) : (powerNote s license lo hi decision limit).allowed = true := by
  unfold powerNote
  simp only
  cases s.powerW.filter (limit.maxW < ·) with
  | none => exact allowed
  | some power =>
    by_cases applies : (limit.range.overlaps lo hi && limit.classes.all fun c => c.any (· == license.name)) = true
    · simp only [if_pos applies]
      rfl
    · simp only [if_neg applies]
      exact allowed

theorem planNote_allowed {decision : Decision} (allowed : decision.allowed = true) (lo hi : ℚ) :
    (planNote s profile lo hi decision).allowed = true := by
  unfold planNote
  split
  · exact allowed
  · split
    · rfl
    · split
      · exact allowed
      · rfl

/-- Advice blocks nothing. -/
theorem advise_allowed {decision : Decision} (allowed : decision.allowed = true) (license : LicenseClass) (lo hi : ℚ) :
    (advise profile s license decision lo hi).allowed = true := by
  unfold advise
  refine planNote_allowed ?_ lo hi
  induction profile.power generalizing decision with
  | nil => exact allowed
  | cons limit rest ih => exact ih (powerNote_allowed allowed license lo hi limit)

theorem outsideSegment_allowed (d : Draft) (lo hi m : ℚ) (rfText : String) :
    (outsideSegment profile d lo hi m rfText).allowed = false := by
  unfold outsideSegment
  split <;> rfl

theorem privilegeRefusal_eq_none {privileges : List Privilege} {license : LicenseClass} {glo ghi : ℚ}
    {emission rfText : String} : privilegeRefusal privileges license glo ghi emission rfText = none ↔
      ∃ pr, privileges.find? (·.range.holds glo ghi) = some pr ∧ pr.allows emission = true := by
  unfold privilegeRefusal
  cases privileges.find? (·.range.holds glo ghi) with
  | none => simp
  | some pr => simp

theorem automaticData_allowed (d : Draft) (glo ghi : ℚ) (rfText : String) (segment : Segment) :
    (automaticData profile s tx d glo ghi rfText segment).allowed = true ↔
      AutomaticHolds profile tx.direction d.width glo ghi := by
  unfold automaticData AutomaticHolds
  cases found : profile.automatic.segments.find? (·.holds glo ghi) with
  | some auto =>
    have holds := List.find?_some found
    have inside : ∃ a ∈ profile.automatic.segments, a.holds glo ghi = true :=
      ⟨auto, List.mem_of_find?_eq_some found, holds⟩
    exact iff_of_true (advise_allowed rfl _ _ _) (.inl inside)
  | none =>
    have outside : ¬∃ a ∈ profile.automatic.segments, a.holds glo ghi = true := fun ⟨a, member, holds⟩ =>
      List.find?_eq_none.mp found a member holds
    simp only [outside, false_or]
    cases profile.automatic.elsewhere with
    | none => simp
    | some e =>
      simp only [Option.some.injEq, exists_eq_left']
      by_cases wide : e.maxBandwidthHz < d.width
      · simp [wide]
      · by_cases starts : (e.requiresResponse && tx.direction ≠ .respond) = true
        · have refused : ¬(e.requiresResponse = true → tx.direction = .respond) := by simpa using starts
          simp only [if_neg wide, if_pos starts, Draft.allowed_blocked]
          simp [refused]
        · have answers : e.requiresResponse = true → tx.direction = .respond := by simpa using starts
          simp only [if_neg wide, if_neg starts]
          exact iff_of_true (advise_allowed rfl _ _ _) ⟨not_lt.mp wide, answers⟩

/-- What `prerequisites` makes of a placed transmission. -/
def Placed.case (p : Placed profile s tx) : Case where
  profile
  s
  tx
  control := p.control
  license := p.license
  dial := p.dial
  lo := p.lo
  hi := p.hi
  glo := p.glo
  ghi := p.ghi
  automatic := p.control = .automatic && tx.direction ≠ .operator
  rfText := tx.what ++ " occupies " ++ fixed 0 p.width ++ " Hz of audio (" ++ fixed 0 p.audio.1 ++ "–" ++
    fixed 0 p.audio.2 ++ " Hz), so " ++ atHz p.lo ++ "–" ++ atHz p.hi ++ " on the air with the dial at " ++
    atHz p.dial ++ " (" ++ p.sideband.name.toUpper ++ ")"

theorem Placed.case_automatic (p : Placed profile s tx) : p.case.automatic = true ↔ p.Automatic := by
  simp [Placed.case, Placed.Automatic]

theorem prerequisites_placed (p : Placed profile s tx) :
    prerequisites profile s tx (Draft.new s tx profile.reading) = .ok p.case := by
  unfold prerequisites Draft.new
  simp only [p.region, p.control_eq, p.license_eq, p.sideband_eq, p.dial_eq, ne_eq, not_true_eq_false, if_false]
  rfl

theorem placed_of_prerequisites {c : Case} (ok : prerequisites profile s tx (Draft.new s tx profile.reading) = .ok c) :
    Nonempty (Placed profile s tx) := by
  unfold prerequisites at ok
  by_cases region : s.ituRegion = profile.ituRegion
  swap
  · simp [region] at ok
  rw [if_neg (not_not.mpr region)] at ok
  cases control : s.control with
  | none => simp [control] at ok
  | some mode =>
    cases license : s.license with
    | none => simp [control, license] at ok
    | some class_ =>
      cases sideband : s.sideband with
      | none => simp [control, license, sideband] at ok
      | some side =>
        cases dial : s.dialHz with
        | none => simp [control, license, sideband, dial] at ok
        | some hz => exact ⟨⟨mode, class_, side, hz, region, control, license, sideband, dial⟩⟩

/-- Off the channels' band. -/
theorem judgeData_allowed (p : Placed profile s tx) (band : String) {d : Draft} (width : d.width = p.width) :
    (judgeData p.case band d).allowed = true ↔ ByData p := by
  unfold judgeData
  cases found : profile.dataSegments.find? (·.range.holds p.glo p.ghi) with
  | none =>
    have not_ : ¬ByData p := fun by_ => by
      obtain ⟨seg, here, _⟩ := by_.segment
      rw [found] at here
      cases here
    refine iff_of_false (fun allowed => ?_) not_
    simp only [Placed.case, found] at allowed
    split at allowed
    · cases allowed
    · rw [outsideSegment_allowed] at allowed
      cases allowed
  | some seg =>
    have here : profile.dataSegments.find? (·.range.holds p.case.glo p.case.ghi) = some seg := found
    simp only [show p.case.profile = profile from rfl, here, width]
    by_cases wide : (seg.dataLimit profile.data).1 < p.width
    · refine iff_of_false (by simp [wide]) fun by_ => ?_
      obtain ⟨seg', here', fits⟩ := by_.segment
      obtain rfl := Option.some.inj (found.symm.trans here')
      exact absurd fits (not_le.mpr wide)
    rw [if_neg wide]
    have segment : ∃ seg, profile.dataSegments.find? (·.range.holds p.glo p.ghi) = some seg ∧
        p.width ≤ (seg.dataLimit profile.data).1 := ⟨seg, found, not_lt.mp wide⟩
    cases refused : privilegeRefusal (privilegesOf profile p.case.license) p.case.license p.case.glo p.case.ghi "data"
        p.case.rfText with
    | some text =>
      have refuses := privilegeRefusal_eq_none.not.mp (by rw [refused]; exact Option.some_ne_none text)
      exact iff_of_false (by simp) fun by_ => refuses by_.privilege
    | none =>
      have privilege := privilegeRefusal_eq_none.mp refused
      simp only
      by_cases automatic : p.case.automatic = true
      · rw [if_pos automatic, automaticData_allowed]
        have holds := p.case_automatic.mp automatic
        rw [show Draft.width { d with segment := some (seg.range, seg.rule) } = p.width from width]
        exact ⟨fun asked => ⟨segment, privilege, fun _ => asked⟩, fun by_ => by_.automatic holds⟩
      · rw [if_neg automatic]
        refine iff_of_true (advise_allowed rfl _ _ _) ⟨segment, privilege, fun holds => ?_⟩
        exact absurd (p.case_automatic.mpr holds) automatic

theorem sixtyChannel_allowed (p : Placed profile s tx) (data : tx.kind = .data) (channels : Channels) (channel : Channel)
    (d : Draft) : (sixtyChannel p.case channels channel d).allowed = true ↔ p.sideband.name = channels.sideband ∧
      |p.dial - (channel.centerHz - channels.carrierOffsetHz)| ≤ channels.carrierToleranceHz ∧
      (channelRange channels channel).holds p.glo p.ghi = true := by
  unfold sixtyChannel
  have kind : ¬p.case.tx.kind = .cw := by
    rw [show p.case.tx = tx from rfl, data]
    decide
  simp only [if_neg kind]
  have sideband : (p.case.s.sideband.any fun sb => sb.name == channels.sideband) = true ↔
      p.sideband.name = channels.sideband := by
    rw [show p.case.s.sideband = some p.sideband from p.sideband_eq]
    simp
  have asked : ((p.case.s.sideband.any fun sb => sb.name == channels.sideband) &&
      decide (|p.case.dial - (channel.centerHz - channels.carrierOffsetHz)| ≤ channels.carrierToleranceHz) &&
      (channelRange channels channel).holds p.case.glo p.case.ghi) = true ↔ p.sideband.name = channels.sideband ∧
        |p.dial - (channel.centerHz - channels.carrierOffsetHz)| ≤ channels.carrierToleranceHz ∧
        (channelRange channels channel).holds p.glo p.ghi = true := by
    rw [Bool.and_eq_true, Bool.and_eq_true, sideband, decide_eq_true_iff, and_assoc]
    rfl
  rw [← asked]
  cases ((p.case.s.sideband.any fun sb => sb.name == channels.sideband) &&
      decide (|p.case.dial - (channel.centerHz - channels.carrierOffsetHz)| ≤ channels.carrierToleranceHz) &&
      (channelRange channels channel).holds p.case.glo p.case.ghi) with
  | false => simp
  | true =>
    simp only [Bool.not_true, Bool.false_eq_true, if_false, iff_true]
    cases p.case.s.powerW.filter (100 < ·) <;> rfl

theorem sixtySegment_allowed (p : Placed profile s tx) (data : tx.kind = .data) (segment : Segment) {d : Draft}
    (width : d.width = p.width) :
    (sixtySegment p.case segment d).allowed = true ↔ p.width ≤ profile.data.maxBandwidthHz := by
  have width' : Draft.width { d with segment := some (segment.range, segment.rule) } = p.width := width
  unfold sixtySegment
  simp only [show p.case.tx.kind = .data from data, show p.case.profile = profile from rfl, true_and, width']
  by_cases wide : profile.data.maxBandwidthHz < p.width
  · simp [wide]
  · simp only [if_neg wide]
    refine iff_of_true ?_ (not_lt.mp wide)
    cases p.case.s.powerW.filter (915 / 100 < ·) <;> rfl

/-- In the channels' band. -/
theorem sixty_allowed (p : Placed profile s tx) (data : tx.kind = .data) (channels : Channels) {d : Draft}
    (width : d.width = p.width) : (sixty p.case channels d).allowed = true ↔ BySixty p channels := by
  unfold sixty
  have privileged : (privilegesOf p.case.profile p.case.license).any (·.range.holds p.case.lo p.case.hi) = true ↔
      ∃ pr ∈ privilegesOf profile p.license, pr.range.holds p.lo p.hi = true := List.any_eq_true
  by_cases privilege : (privilegesOf p.case.profile p.case.license).any (·.range.holds p.case.lo p.case.hi) = true
  swap
  · refine iff_of_false (by simp [privilege]) fun by_ => privilege (privileged.mpr by_.privilege)
  have kind : ¬p.case.tx.kind = .nothing := by
    rw [show p.case.tx = tx from rfl, data]
    decide
  simp only [privilege, Bool.not_true, Bool.false_eq_true, if_false, if_neg kind]
  cases refused : p.case.profile.sixtyMeterEmissions.filter fun allowed =>
      !allowed.allowed.any (· == p.case.tx.kind.name) with
  | some e =>
    obtain ⟨given, lacks⟩ := Option.filter_eq_some_iff.mp refused
    refine iff_of_false (by simp) fun by_ => ?_
    have named := by_.emission e given
    rw [show p.case.tx = tx from rfl, data] at lacks
    have none_ : ∀ x ∈ e.allowed, ¬x = "data" := by simpa [EmissionKind.name] using lacks
    exact none_ _ named rfl
  | none =>
    have emission : ∀ e, profile.sixtyMeterEmissions = some e → "data" ∈ e.allowed := by
      intro e given
      have passes := Option.filter_eq_none_iff.mp refused e given
      rw [show p.case.tx = tx from rfl, data] at passes
      simpa [EmissionKind.name] using passes
    simp only
    cases touched : channels.list.find? fun ch =>
        (channelRange channels ch).overlaps (p.case.lo - p.case.s.marginHz) (p.case.hi + p.case.s.marginHz) with
    | some channel =>
      simp only
      rw [sixtyChannel_allowed p data]
      constructor
      · intro set_
        exact ⟨privileged.mp privilege, emission, .inl ⟨channel, touched, set_⟩⟩
      · intro by_
        rcases by_.place with ⟨channel', touched', set_⟩ | ⟨none_, _⟩
        · obtain rfl := Option.some.inj (touched.symm.trans touched')
          exact set_
        · exact absurd (touched.symm.trans none_) (Option.some_ne_none channel)
    | none =>
      simp only
      cases found : p.case.profile.dataSegments.find? fun seg =>
          seg.band == channels.band && seg.range.holds p.case.glo p.case.ghi with
      | some segment =>
        simp only
        rw [sixtySegment_allowed p data segment width]
        constructor
        · intro narrow
          exact ⟨privileged.mp privilege, emission, .inr ⟨touched, ⟨segment, found⟩, narrow⟩⟩
        · intro by_
          rcases by_.place with ⟨channel, touched', _⟩ | ⟨_, _, narrow⟩
          · exact absurd (touched'.symm.trans touched) (Option.some_ne_none channel)
          · exact narrow
      | none =>
        refine iff_of_false (by simp) fun by_ => ?_
        rcases by_.place with ⟨channel, touched', _⟩ | ⟨_, ⟨segment, found'⟩, _⟩
        · exact absurd (touched'.symm.trans touched) (Option.some_ne_none channel)
        · exact absurd (found'.symm.trans found) (Option.some_ne_none segment)

/-- A data emission is let go exactly when what the policy asks of it holds. -/
theorem evaluate_allowed_iff (data : tx.kind = .data) :
    ((Policy.rules profile).evaluate s tx).allowed = true ↔ ∃ p : Placed profile s tx, Admitted p := by
  have unfolded : (Policy.rules profile).evaluate s tx =
      evaluate profile s tx (Draft.new s tx profile.reading) := rfl
  rw [unfolded]
  by_cases some_ : Nonempty (Placed profile s tx)
  swap
  · refine iff_of_false (fun allowed => ?_) fun ⟨p, _⟩ => some_ ⟨p⟩
    unfold evaluate at allowed
    cases ok : prerequisites profile s tx (Draft.new s tx profile.reading) with
    | error missing => simp [ok] at allowed
    | ok c => exact some_ (placed_of_prerequisites ok)
  obtain ⟨p⟩ := some_
  have once : (∃ p : Placed profile s tx, Admitted p) ↔ Admitted p :=
    ⟨fun ⟨p', admitted⟩ => p'.unique p ▸ admitted, fun admitted => ⟨p, admitted⟩⟩
  rw [once]
  unfold evaluate
  rw [prerequisites_placed p]
  simp only
  cases holding : profile.bandHolding p.case.glo p.case.ghi with
  | none =>
    refine iff_of_false (by simp) fun ⟨band, inBand, _⟩ => ?_
    exact absurd (inBand.holding.symm.trans holding) (Option.some_ne_none band)
  | some band =>
    simp only
    cases excluded : (if p.case.automatic then profile.automatic.excludedBands.find? (·.band == band.name) else none) with
    | some x =>
      refine iff_of_false (by simp) fun ⟨band', inBand, _⟩ => ?_
      obtain rfl := Option.some.inj (holding.symm.trans inBand.holding)
      by_cases automatic : p.case.automatic = true
      · rw [if_pos automatic] at excluded
        have same := List.find?_some excluded
        exact inBand.open_ (p.case_automatic.mp automatic) x (List.mem_of_find?_eq_some excluded) (by simpa using same)
      · rw [if_neg automatic] at excluded
        cases excluded
    | none =>
      have inBand : InBand p band := ⟨holding, fun automatic x member same => by
        rw [if_pos (p.case_automatic.mpr automatic)] at excluded
        exact List.find?_eq_none.mp excluded x member (by simpa using same)⟩
      have one {band' : Band} (inBand' : InBand p band') : band' = band :=
        Option.some.inj (inBand'.holding.symm.trans holding)
      simp only
      cases own : profile.channels.filter (·.band == band.name) with
      | some channels =>
        obtain ⟨given, named⟩ := Option.filter_eq_some_iff.mp own
        have same : channels.band = band.name := by simpa using named
        simp only
        rw [sixty_allowed p data channels rfl]
        constructor
        · exact fun by_ => ⟨band, inBand, .inl ⟨channels, given, same, by_⟩⟩
        · rintro ⟨band', inBand', ⟨channels', given', _, by_⟩ | ⟨off, _⟩⟩
          · obtain rfl := Option.some.inj (given.symm.trans given')
            exact by_
          · exact absurd (one inBand' ▸ same) (off channels given)
      | none =>
        have off : ∀ channels, profile.channels = some channels → channels.band ≠ band.name := fun channels given same => by
          have passes := Option.filter_eq_none_iff.mp own channels given
          exact passes (by simpa using same)
        simp only [data, if_true]
        rw [judgeData_allowed p band.name rfl]
        constructor
        · exact fun by_ => ⟨band, inBand, .inr ⟨off, by_⟩⟩
        · rintro ⟨band', inBand', ⟨channels, given, same, _⟩ | ⟨_, by_⟩⟩
          · exact absurd (one inBand' ▸ same) (off channels given)
          · exact by_

theorem authorize_ok_iff {policy : Policy} :
    (∃ leave, policy.authorize s tx = .ok leave) ↔ (policy.evaluate s tx).allowed = true := by
  unfold Policy.authorize
  by_cases allowed : (policy.evaluate s tx).allowed = true
  · simp [allowed]
  · simp [allowed]

/-! ### What the rules ask -/

def InSegment (p : Placed profile s tx) : Prop :=
  ∃ seg ∈ profile.dataSegments, seg.range.holds p.glo p.ghi = true ∧ p.width ≤ (seg.dataLimit profile.data).1

def InChannel (p : Placed profile s tx) (band : Band) : Prop :=
  ∃ channels, profile.channels = some channels ∧ channels.band = band.name ∧ p.sideband.name = channels.sideband ∧
    ∃ channel ∈ channels.list, (channelRange channels channel).holds p.glo p.ghi = true ∧
      |p.dial - (channel.centerHz - channels.carrierOffsetHz)| ≤ channels.carrierToleranceHz

def Privileged (p : Placed profile s tx) : Prop :=
  ∃ pr ∈ privilegesOf profile p.license, pr.range.holds p.glo p.ghi = true ∧ pr.allows "data" = true

/-- A data emission the rules allow. -/
structure Lawful (p : Placed profile s tx) : Prop where
  place : ∃ band ∈ profile.bands, band.range.holds p.glo p.ghi = true ∧
    (p.Automatic → ∀ x ∈ profile.automatic.excludedBands, x.band ≠ band.name) ∧ (InSegment p ∨ InChannel p band)
  privilege : Privileged p
  automatic : p.Automatic → AutomaticHolds profile tx.direction p.width p.glo p.ghi

theorem ByData.inSegment {p : Placed profile s tx} (by_ : ByData p) : InSegment p := by
  obtain ⟨seg, found, narrow⟩ := by_.segment
  have holds := List.find?_some found
  exact ⟨seg, List.mem_of_find?_eq_some found, holds, narrow⟩

theorem ByData.privileged {p : Placed profile s tx} (by_ : ByData p) : Privileged p := by
  obtain ⟨pr, found, allows⟩ := by_.privilege
  have holds := List.find?_some found
  exact ⟨pr, List.mem_of_find?_eq_some found, holds, allows⟩

theorem OnChannel.inChannel {p : Placed profile s tx} {band : Band} {channels : Channels}
    (given : profile.channels = some channels) (named : channels.band = band.name) (on : OnChannel p channels) :
    InChannel p band := by
  obtain ⟨channel, found, sideband, carrier, holds⟩ := on
  exact ⟨channels, given, named, sideband, channel, List.mem_of_find?_eq_some found, holds, carrier⟩

/-- Touching no channel is being in none. -/
theorem OffChannel.not_inChannel {p : Placed profile s tx} {channels : Channels} (given : profile.channels = some channels)
    (ordered : p.glo ≤ p.ghi) (off : OffChannel p channels) (band : Band) : ¬InChannel p band := by
  rintro ⟨channels', given', _, _, channel, member, holds, _⟩
  obtain rfl := Option.some.inj (given.symm.trans given')
  exact List.find?_eq_none.mp off.1 channel member (Range.overlaps_of_holds ordered holds)

/-- What the policy does not ask in the channels' band. -/
structure Sound (p : Placed profile s tx) (channels : Channels) : Prop where
  privilege : Privileged p
  automatic : p.Automatic → AutomaticHolds profile tx.direction p.width p.glo p.ghi
  limit : OffChannel p channels → InSegment p

theorem Admitted.lawful {p : Placed profile s tx} (admitted : Admitted p)
    (sound : ∀ (band : Band) (channels : Channels), InBand p band → profile.channels = some channels →
      channels.band = band.name → BySixty p channels → Sound p channels) : Lawful p := by
  obtain ⟨band, inBand, asked⟩ := admitted
  have holds := List.find?_some inBand.holding
  have member := List.mem_of_find?_eq_some inBand.holding
  rcases asked with ⟨channels, given, named, by_⟩ | ⟨_, by_⟩
  · have whole := sound band channels inBand given named by_
    refine ⟨⟨band, member, holds, inBand.open_, ?_⟩, whole.privilege, whole.automatic⟩
    rcases by_.place with on | off
    · exact .inr (on.inChannel given named)
    · exact .inl (whole.limit off)
  · exact ⟨⟨band, member, holds, inBand.open_, .inl by_.inSegment⟩, by_.privileged, by_.automatic⟩

/-- The policy lets go only what the rules allow, exactly where what it lets go in the
channels' band is sound. -/
theorem authorized_lawful_iff (profile : Profile) (s : Situation) (tx : Transmission) (data : tx.kind = .data)
    (ordered : tx.audio.Ordered) (margin : 0 ≤ s.marginHz) :
    (∀ leave, (Policy.rules profile).authorize s tx = .ok leave → ∃ p : Placed profile s tx, Lawful p) ↔
      ∀ (p : Placed profile s tx) (band : Band) (channels : Channels), InBand p band → profile.channels = some channels →
        channels.band = band.name → BySixty p channels → Sound p channels := by
  constructor
  · intro lawful p band channels inBand given named by_
    obtain ⟨leave, authorized⟩ := authorize_ok_iff.mpr
      ((evaluate_allowed_iff data).mpr ⟨p, band, inBand, .inl ⟨channels, given, named, by_⟩⟩)
    obtain ⟨p', holds⟩ := lawful leave authorized
    obtain rfl := p'.unique p
    refine ⟨holds.privilege, holds.automatic, fun off => ?_⟩
    obtain ⟨band', _, _, _, inside | onChannel⟩ := holds.place
    · exact inside
    · exact absurd onChannel (off.not_inChannel given (p'.glo_le_ghi ordered margin) band')
  · intro sound leave authorized
    obtain ⟨p, admitted⟩ := (evaluate_allowed_iff data).mp (authorize_ok_iff.mp ⟨leave, authorized⟩)
    exact ⟨p, admitted.lawful (sound p)⟩

def atSixty : Situation where
  dialHz := some 5355000
  dialSource := some .radio
  sideband := some .usb
  control := some .local
  license := some .general
  ituRegion := 2
  marginHz := 50
  bandPlan := false
  powerW := none

def burst : Transmission := ⟨"a data burst", .data, ⟨(400, 2600), (400, 2600)⟩, .originate⟩

theorem authorized_lawful_atSixty :
    (∀ leave, (Policy.rules UsFcc.profile).authorize atSixty burst = .ok leave →
      ∃ p : Placed UsFcc.profile atSixty burst, Lawful p) ↔
    ∀ (p : Placed UsFcc.profile atSixty burst) (band : Band) (channels : Channels), InBand p band →
      UsFcc.profile.channels = some channels → channels.band = band.name → BySixty p channels → Sound p channels :=
  authorized_lawful_iff UsFcc.profile atSixty burst rfl ⟨by decide, by decide⟩ (by decide)

/-- A General's 60 m privileges cut down to CW. -/
def cwOnly : Profile :=
  { UsFcc.profile with privileges := { UsFcc.profile.privileges with
      general := [⟨⟨5330500, 5406400⟩, some ["cw"], some "§97.307(f)(9)"⟩] } }

/-- Data goes out on 60 m under a privilege that allows CW only. -/
theorem cwOnly_authorized : ¬∀ (profile : Profile) (s : Situation) (tx : Transmission), profile.check = .ok () →
    0 ≤ s.marginHz → tx.kind = .data → tx.audio.Ordered →
      ∀ leave, (Policy.rules profile).authorize s tx = .ok leave → ∃ p : Placed profile s tx, Lawful p := by
  intro all
  have goes : ((Policy.rules cwOnly).evaluate atSixty burst).allowed = true := by decide +kernel
  obtain ⟨leave, authorized⟩ := authorize_ok_iff.mpr goes
  obtain ⟨p, lawful⟩ := all cwOnly atSixty burst (by decide) (by decide) rfl
    ⟨by decide, by decide⟩ leave authorized
  obtain ⟨pr, member, _, allows⟩ := lawful.privilege
  have general : p.license = .general := (Option.some.inj p.license_eq).symm
  rw [general] at member
  obtain rfl := List.mem_singleton.mp member
  exact absurd allows (by decide)

end AetherHF.Regulatory
