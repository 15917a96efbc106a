import AetherHF.Base.Lists
import AetherHF.Regulatory.SafeDials

/-! The dials offered and the judgement made agree, for a profile whose tables are tidy:
ranges of a kind share at most an end, and the channels' band is one privilege or none. -/
namespace AetherHF.Regulatory

/-! ### Tidy tables -/

namespace Range

variable {a b : Range} {low high : ℚ}

/-- Ranges that share at most an end. -/
def Apart (a b : Range) : Prop := a.highHz ≤ b.lowHz ∨ b.highHz ≤ a.lowHz

/-- Ranges that share nothing. -/
def Clear (a b : Range) : Prop := a.highHz < b.lowHz ∨ b.highHz < a.lowHz

instance (a b : Range) : Decidable (a.Apart b) := inferInstanceAs (Decidable (_ ∨ _))

instance (a b : Range) : Decidable (a.Clear b) := inferInstanceAs (Decidable (_ ∨ _))

/-- Nothing with width lies in both. -/
theorem Apart.not_holds (apart : a.Apart b) (wide : low < high) (inside : a.holds low high = true) :
    ¬b.holds low high = true := by
  obtain ⟨above, below⟩ := holds_iff.mp inside
  intro inside'
  obtain ⟨above', below'⟩ := holds_iff.mp inside'
  rcases apart with before | after <;> linarith

/-- What lies in one touches not the other. -/
theorem Clear.not_overlaps (clear : a.Clear b) (inside : a.holds low high = true) : ¬b.overlaps low high = true := by
  obtain ⟨above, below⟩ := holds_iff.mp inside
  intro touched
  obtain ⟨start, stop⟩ := overlaps_iff.mp touched
  rcases clear with before | after <;> linarith

theorem holds_trans (outer : a.holds b.lowHz b.highHz = true) (inner : b.holds low high = true) :
    a.holds low high = true := by
  obtain ⟨above, below⟩ := holds_iff.mp outer
  obtain ⟨above', below'⟩ := holds_iff.mp inner
  exact holds_iff.mpr ⟨above.trans above', below'.trans below⟩

end Range

structure TidyChannels (profile : Profile) (channels : Channels) : Prop where
  sideband : channels.sideband = Sideband.usb.name
  wide : 0 < channels.widthHz
  narrow : channels.widthHz ≤ profile.data.maxBandwidthHz
  tolerance : 0 ≤ channels.carrierToleranceHz
  excluded : ∃ x ∈ profile.automatic.excludedBands, x.band = channels.band
  emission : ∀ e, profile.sixtyMeterEmissions = some e → "data" ∈ e.allowed
  /-- Every channel is inside the channels' band. -/
  home : ∃ b ∈ profile.bands, b.name = channels.band ∧ ∀ channel ∈ channels.list,
    b.range.holds (channelRange channels channel).lowHz (channelRange channels channel).highHz = true
  /-- A privilege has all of that band, for data too, or nothing of it. -/
  privilege : ∀ b ∈ profile.bands, b.name = channels.band → ∀ license, ∀ pr ∈ privilegesOf profile license,
    pr.range.Apart b.range ∨ pr.range.holds b.range.lowHz b.range.highHz = true ∧ pr.allows "data" = true
  /-- The band's segments have no limit of their own, and are clear of the channels. -/
  segment : ∀ seg ∈ profile.dataSegments, seg.band = channels.band → seg.maxBandwidthHz = none ∧
    ∀ channel ∈ channels.list, seg.range.Clear (channelRange channels channel)
  clear : ∀ channel ∈ channels.list, ∀ channel' ∈ channels.list,
    channel = channel' ∨ (channelRange channels channel).Clear (channelRange channels channel')

structure Tidy (profile : Profile) : Prop where
  bands : ∀ b ∈ profile.bands, ∀ b' ∈ profile.bands, b = b' ∨ b.range.Apart b'.range
  segments : ∀ seg ∈ profile.dataSegments, ∀ seg' ∈ profile.dataSegments, seg = seg' ∨ seg.range.Apart seg'.range
  privileges : ∀ license, ∀ pr ∈ privilegesOf profile license, ∀ pr' ∈ privilegesOf profile license,
    pr = pr' ∨ pr.range.Apart pr'.range
  /-- Every segment is inside the band it names. -/
  home : ∀ seg ∈ profile.dataSegments, ∃ b ∈ profile.bands, b.name = seg.band ∧
    b.range.holds seg.range.lowHz seg.range.highHz = true
  channels : ∀ channels, profile.channels = some channels → TidyChannels profile channels

theorem tidy_us : Tidy UsFcc.profile where
  bands := by decide
  segments := by decide
  privileges license := by cases license <;> decide
  home := by decide
  channels channels given := by
    obtain rfl : UsFcc.channels = channels := Option.some.inj given
    have emission : "data" ∈ ["data", "rtty", "phone", "cw"] := by decide
    exact {
      sideband := rfl
      wide := by decide
      narrow := by decide
      tolerance := by decide
      excluded := by decide
      emission := fun e found => (Option.some.inj found) ▸ emission
      home := by decide +kernel
      privilege := fun b member named license => by
        revert b
        cases license <;> decide
      segment := by decide +kernel
      clear := by decide +kernel }

/-! ### What is asked and what is offered -/

variable {profile : Profile} {s : Situation} {tx : Transmission}

/-- What a placed transmission asks of the tables. -/
def Placed.asked (p : Placed profile s tx) : Asked where
  sideband := p.sideband
  license := p.license
  low := p.audio.1
  high := p.audio.2
  margin := s.marginHz
  automatic := p.control = .automatic && tx.direction ≠ .operator
  direction := tx.direction

theorem Placed.asked_automatic (p : Placed profile s tx) : p.asked.automatic = true ↔ p.Automatic := p.case_automatic

theorem Placed.asked_attended (p : Placed profile s tx) : p.asked.automatic = false ↔ ¬p.Automatic := by
  rw [← p.asked_automatic, Bool.not_eq_true]

theorem Placed.lo_lt_hi (p : Placed profile s tx) (wide : tx.audio.Wide) : p.lo < p.hi := by
  have audio : p.audio.1 < p.audio.2 := wide.range profile.reading
  have width := p.hi_sub_lo
  unfold Placed.width at width
  linarith

theorem Placed.glo_lt_ghi (p : Placed profile s tx) (margin : 0 ≤ s.marginHz) (wide : tx.audio.Wide) : p.glo < p.ghi := by
  have spread := p.lo_lt_hi wide
  unfold Placed.glo Placed.ghi
  linarith

section
variable {p : Placed profile s tx} (margin : 0 ≤ s.marginHz)
include margin

/-- What holds the widened range holds the range. -/
theorem Placed.holds_edges {range : Range} (inside : range.holds p.glo p.ghi = true) : range.holds p.lo p.hi = true := by
  obtain ⟨above, below⟩ := Range.holds_iff.mp inside
  unfold Placed.glo at above
  unfold Placed.ghi at below
  exact Range.holds_iff.mpr ⟨by linarith, by linarith⟩

theorem Placed.width_le {range : Range} (inside : range.holds p.glo p.ghi = true) :
    p.width ≤ range.highHz - range.lowHz := by
  obtain ⟨above, below⟩ := Range.holds_iff.mp (Placed.holds_edges margin inside)
  have width := p.hi_sub_lo
  linarith

end

/-- Elsewhere or in its segments, as automatic control is asked. -/
theorem Asked.automaticHolds_iff {p : Placed profile s tx} (automatic : p.Automatic) :
    AutomaticHolds profile tx.direction p.width p.glo p.ghi ↔ (Asked.Confined profile p.asked →
      ∃ auto ∈ profile.automatic.segments, auto.holds (p.asked.glo p.dial) (p.asked.ghi p.dial) = true) := by
  have automatic' := p.asked_automatic.mpr automatic
  have elsewhere : p.asked.elsewhereOk profile = true ↔ ∃ e, profile.automatic.elsewhere = some e ∧
      p.width ≤ e.maxBandwidthHz ∧ (e.requiresResponse = true → tx.direction = .respond) := by
    unfold Asked.elsewhereOk
    rw [Option.any_eq_true]
    refine exists_congr fun e => and_congr_right fun _ => ?_
    simp only [Bool.and_eq_true, decide_eq_true_eq, Bool.or_eq_true, Bool.not_eq_true']
    refine and_congr_right fun _ => ?_
    cases e.requiresResponse <;> simp [Placed.asked]
  unfold AutomaticHolds Asked.Confined
  rw [← elsewhere]
  cases p.asked.elsewhereOk profile with
  | true => simp
  | false =>
    simp only [Bool.false_eq_true, or_false, and_true]
    exact ⟨fun inside _ => inside, fun confined => confined automatic'⟩

section
variable {p : Placed profile s tx} (tidy : Tidy profile) (wide : p.glo < p.ghi)
include tidy wide

/-- A band that holds the signal is the band found. -/
theorem Tidy.band_eq {b b' : Band} (member : b ∈ profile.bands) (member' : b' ∈ profile.bands)
    (inside : b.range.holds p.glo p.ghi = true) (inside' : b'.range.holds p.glo p.ghi = true) : b = b' := by
  rcases tidy.bands b member b' member' with same | apart
  · exact same
  · exact absurd inside' (apart.not_holds wide inside)

theorem Tidy.bandHolding {b : Band} (member : b ∈ profile.bands) (inside : b.range.holds p.glo p.ghi = true) :
    profile.bandHolding p.glo p.ghi = some b :=
  find?_eq_some_of_unique member inside fun _ member' inside' => tidy.band_eq wide member' member inside' inside

/-- A dial a segment is offered for is let go. -/
theorem Tidy.admitted_of_fits (margin : 0 ≤ s.marginHz) {seg : Segment} (member : seg ∈ profile.dataSegments)
    (fits : Asked.Fits profile p.asked p.dial seg) : Admitted p := by
  obtain ⟨band, listed, named, around⟩ := tidy.home seg member
  have inside : seg.range.holds p.glo p.ghi = true := fits.inside
  have inBand : InBand p band := by
    refine ⟨tidy.bandHolding wide listed (Range.holds_trans around inside), fun automatic x among same => ?_⟩
    exact fits.open_ (p.asked_automatic.mpr automatic) x among (same.trans named)
  obtain ⟨pr, held, allows, reaches⟩ := fits.privilege
  refine ⟨band, inBand, ?_⟩
  by_cases own : ∃ channels, profile.channels = some channels ∧ channels.band = band.name
  · obtain ⟨channels, given, same⟩ := own
    have tidy' := tidy.channels channels given
    obtain ⟨general, clear⟩ := tidy'.segment seg member (named.symm.trans same.symm)
    have off : (channels.list.find? fun ch =>
        (channelRange channels ch).overlaps (p.lo - s.marginHz) (p.hi + s.marginHz)) = none :=
      List.find?_eq_none.mpr fun channel among => (clear channel among).not_overlaps inside
    have found : ∃ seg', (profile.dataSegments.find? fun seg =>
        seg.band == channels.band && seg.range.holds p.glo p.ghi) = some seg' := by
      refine Option.isSome_iff_exists.mp (List.find?_isSome.mpr ⟨seg, member, ?_⟩)
      rw [inside, Bool.and_true]
      exact beq_iff_eq.mpr (named.symm.trans same.symm)
    have narrow : p.width ≤ profile.data.maxBandwidthHz := by
      have limit := fits.narrow
      unfold Segment.dataLimit at limit
      rw [general] at limit
      exact limit
    exact .inl ⟨channels, given, same, ⟨pr, held, Placed.holds_edges margin reaches⟩, tidy'.emission, .inr ⟨off, found, narrow⟩⟩
  · refine .inr ⟨fun channels given same => own ⟨channels, given, same⟩, ⟨seg, ?_, fits.narrow⟩, ⟨pr, ?_, allows⟩,
      fun automatic => (Asked.automaticHolds_iff automatic).mpr fits.automatic⟩
    · refine find?_eq_some_of_unique member inside fun seg' member' inside' => ?_
      rcases tidy.segments seg' member' seg member with same | apart
      · exact same
      · exact absurd inside (apart.not_holds wide inside')
    · refine find?_eq_some_of_unique held reaches fun pr' held' reaches' => ?_
      rcases tidy.privileges _ pr' held' pr held with same | apart
      · exact same
      · exact absurd reaches (apart.not_holds wide reaches')

/-- So is the dial of a channel offered. -/
theorem Tidy.admitted_of_channel (margin : 0 ≤ s.marginHz) {channels : Channels} (given : profile.channels = some channels)
    (channelled : Asked.Channelled profile p.asked channels) {channel : Channel} (member : channel ∈ channels.list)
    (carrier : p.dial = channel.centerHz - channels.carrierOffsetHz)
    (inside : (channelRange channels channel).holds p.glo p.ghi = true) : Admitted p := by
  have tidy' := tidy.channels channels given
  obtain ⟨band, listed, named, around⟩ := tidy'.home
  have within := Range.holds_trans (around channel member) inside
  have attended := p.asked_attended.mp channelled.attended
  have inBand : InBand p band := ⟨tidy.bandHolding wide listed within, fun automatic => absurd automatic attended⟩
  obtain ⟨pr, held, other, among, centred, _⟩ := channelled.privilege
  -- a privilege with a channel's centre in it has the whole band
  have whole : pr.range.holds band.range.lowHz band.range.highHz = true := by
    rcases tidy'.privilege band listed named p.license pr held with apart | ⟨whole, _⟩
    · obtain ⟨low, high⟩ := Range.holds_iff.mp (around other among)
      obtain ⟨above, below⟩ := Range.holds_iff.mp centred
      have room := tidy'.wide
      unfold channelRange at low high
      simp only at low high
      rcases apart with before | after <;> linarith
    · exact whole
  have sideband : p.sideband.name = channels.sideband := by
    rw [tidy'.sideband, show p.sideband = .usb from channelled.upper]
  have on : (channels.list.find? fun ch =>
      (channelRange channels ch).overlaps (p.lo - s.marginHz) (p.hi + s.marginHz)) = some channel := by
    refine find?_eq_some_of_unique member (Range.overlaps_of_holds wide.le inside) fun channel' member' touched => ?_
    rcases tidy'.clear channel member channel' member' with same | clear
    · exact same.symm
    · exact absurd touched (clear.not_overlaps inside)
  refine ⟨band, inBand, .inl ⟨channels, given, named.symm, ⟨pr, held, ?_⟩, tidy'.emission,
    .inl ⟨channel, on, sideband, ?_, inside⟩⟩⟩
  · exact Placed.holds_edges margin (Range.holds_trans whole within)
  · rw [carrier, sub_self, abs_zero]
    exact tidy'.tolerance

omit wide in
/-- In the channels' band, a privilege that reaches the signal reaches all of it. -/
theorem Tidy.whole_privilege (margin : 0 ≤ s.marginHz) (spread : p.lo < p.hi) {band : Band} (inBand : InBand p band)
    {channels : Channels} (given : profile.channels = some channels) (named : channels.band = band.name)
    (by_ : BySixty p channels) : ¬p.Automatic ∧ ∃ pr ∈ privilegesOf profile p.license,
      pr.range.holds band.range.lowHz band.range.highHz = true ∧ pr.allows "data" = true := by
  have tidy' := tidy.channels channels given
  have within := List.find?_some inBand.holding
  refine ⟨fun automatic => ?_, ?_⟩
  · obtain ⟨x, among, same⟩ := tidy'.excluded
    exact inBand.open_ automatic x among (same.trans named)
  · obtain ⟨pr, held, reaches⟩ := by_.privilege
    rcases tidy'.privilege band (List.mem_of_find?_eq_some inBand.holding) named.symm p.license pr held with apart | whole
    · exact absurd (Placed.holds_edges margin within) (apart.not_holds spread reaches)
    · exact ⟨pr, held, whole⟩

/-- On a channel, near where its carrier goes. -/
def NearChannel (p : Placed profile s tx) (channels : Channels) (channel : Channel) : Prop :=
  channel ∈ channels.list ∧ |p.dial - (channel.centerHz - channels.carrierOffsetHz)| ≤ channels.carrierToleranceHz ∧
    (channelRange channels channel).holds p.glo p.ghi = true

omit wide in
/-- With tidy tables the channels' band is no exception: what is let go is lawful. -/
theorem Tidy.lawful (margin : 0 ≤ s.marginHz) (spread : p.lo < p.hi) (admitted : Admitted p) : Lawful p := by
  refine admitted.lawful fun band channels inBand given named by_ => ?_
  have within := List.find?_some inBand.holding
  obtain ⟨attended, pr, held, whole, allows⟩ := tidy.whole_privilege margin spread inBand given named by_
  refine ⟨⟨pr, held, Range.holds_trans whole within, allows⟩, fun automatic => absurd automatic attended, ?_⟩
  rintro ⟨_, ⟨seg, found⟩, narrow⟩
  have holds := List.find?_some found
  obtain ⟨own, inside⟩ := Bool.and_eq_true_iff.mp holds
  have member := List.mem_of_find?_eq_some found
  obtain ⟨general, _⟩ := (tidy.channels channels given).segment seg member (beq_iff_eq.mp own)
  refine ⟨seg, member, inside, ?_⟩
  unfold Segment.dataLimit
  rw [general]
  exact narrow

/-- What is let go is offered, or near a channel's carrier. -/
theorem Tidy.offered_of_admitted (margin : 0 ≤ s.marginHz) (spread : p.lo < p.hi) (admitted : Admitted p) :
    (∃ seg ∈ profile.dataSegments, Asked.Fits profile p.asked p.dial seg) ∨
      ∃ channels, profile.channels = some channels ∧ Asked.Channelled profile p.asked channels ∧
        ∃ channel, NearChannel p channels channel := by
  obtain ⟨band, inBand, asks⟩ := admitted
  have within := List.find?_some inBand.holding
  have listed := List.mem_of_find?_eq_some inBand.holding
  rcases asks with ⟨channels, given, same, by_⟩ | ⟨_, by_⟩
  · have tidy' := tidy.channels channels given
    obtain ⟨attended, pr, held, whole, allows⟩ := tidy.whole_privilege margin spread inBand given same by_
    rcases by_.place with ⟨channel, found, sideband, carrier, inside⟩ | ⟨off, ⟨seg, found⟩, narrow⟩
    · have member := List.mem_of_find?_eq_some found
      obtain ⟨home, listed', _, around⟩ := tidy'.home
      obtain rfl := tidy.band_eq wide listed' listed (Range.holds_trans (around channel member) inside) within
      refine .inr ⟨channels, given, ⟨p.asked_attended.mpr attended, ?_, ?_, pr, held, channel, member, ?_, allows⟩,
        channel, member, carrier, inside⟩
      · have room := Placed.width_le margin inside
        unfold channelRange at room
        simp only at room
        exact (by linarith : p.width ≤ channels.widthHz).trans tidy'.narrow
      · rw [tidy'.sideband] at sideband
        change p.sideband = .usb
        cases side : p.sideband with
        | usb => rfl
        | lsb =>
          rw [side] at sideband
          exact absurd sideband (by decide)
      · refine Range.holds_trans whole (Range.holds_trans (around channel member) (Range.holds_iff.mpr ?_))
        have room := tidy'.wide
        unfold channelRange
        constructor <;> simp only <;> linarith
    · have holds := List.find?_some found
      obtain ⟨named, inside⟩ := Bool.and_eq_true_iff.mp holds
      have member := List.mem_of_find?_eq_some found
      obtain ⟨general, _⟩ := tidy'.segment seg member (beq_iff_eq.mp named)
      refine .inl ⟨seg, member, ?_, fun automatic => absurd (p.asked_automatic.mp automatic) attended, inside,
        ⟨pr, held, allows, Range.holds_trans whole within⟩,
        fun confined => absurd (p.asked_automatic.mp confined.1) attended⟩
      unfold Segment.dataLimit
      rw [general]
      exact narrow
  · obtain ⟨seg, found, narrow⟩ := by_.segment
    have inside := List.find?_some found
    have member := List.mem_of_find?_eq_some found
    obtain ⟨pr, found', allows⟩ := by_.privilege
    have reaches := List.find?_some found'
    obtain ⟨home, listed', named, around⟩ := tidy.home seg member
    obtain rfl := tidy.band_eq wide listed' listed (Range.holds_trans around inside) within
    refine .inl ⟨seg, member, narrow, fun automatic x among => ?_, inside,
      ⟨pr, List.mem_of_find?_eq_some found', allows, reaches⟩, fun confined => ?_⟩
    · rw [← named]
      exact inBand.open_ (p.asked_automatic.mp automatic) x among
    · have automatic := p.asked_automatic.mp confined.1
      exact (Asked.automaticHolds_iff automatic).mp (by_.automatic automatic) confined

end

/-! ### Agreement -/

/-- A station with its dial set. -/
def Situation.at (s : Situation) (dial : ℚ) : Situation := { s with dialHz := some dial }

theorem mem_safeDials {dial : ℚ} (p : Placed profile (s.at dial) tx) {dials : SafeDial} :
    dials ∈ (Policy.rules profile).safeDials s tx.audio tx.direction ↔
      (∃ seg ∈ profile.dataSegments, dials ∈ p.asked.segmentDials profile seg) ∨
        ∃ channels, profile.channels = some channels ∧ dials ∈ p.asked.channelDials profile channels := by
  have control : s.control = some p.control := p.control_eq
  have license : s.license = some p.license := p.license_eq
  have sideband : s.sideband = some p.sideband := p.sideband_eq
  have listed {onChannels : List SafeDial}
      (channels : (profile.channels.map (p.asked.channelDials profile)).getD [] = onChannels) :
      (Policy.rules profile).safeDials s tx.audio tx.direction =
        (profile.dataSegments.flatMap (p.asked.segmentDials profile) ++ onChannels).insertionSort
          fun a b => a.dialLowHz ≤ b.dialLowHz := by
    subst channels
    unfold Policy.safeDials
    simp only [control, license, sideband]
    cases profile.channels with
    | none => rfl
    | some channels => rfl
  rw [listed rfl, List.mem_insertionSort, List.mem_append, List.mem_flatMap]
  refine or_congr_right ?_
  cases profile.channels with
  | none => simp
  | some channels => simp

/-- A signal on the upper sideband, inside a channel with the margin. -/
def FitsChannel (profile : Profile) (s : Situation) (audio : Edges) (channels : Channels) (channel : Channel) (dial : ℚ) :
    Prop :=
  (channelRange channels channel).holds
    ((rfRange dial .usb (audio.range profile.reading).1 (audio.range profile.reading).2).1 - s.marginHz)
    ((rfRange dial .usb (audio.range profile.reading).1 (audio.range profile.reading).2).2 + s.marginHz) = true

theorem Placed.dial_at {dial : ℚ} (p : Placed profile (s.at dial) tx) : p.dial = dial :=
  (Option.some.inj p.dial_eq).symm

section
variable {dial : ℚ} (tidy : Tidy profile) (p : Placed profile (s.at dial) tx) (margin : 0 ≤ s.marginHz)
  (wide : tx.audio.Wide)
include tidy margin wide

theorem Tidy.admitted_of_offered {dials : SafeDial}
    (offered : dials ∈ (Policy.rules profile).safeDials s tx.audio tx.direction) (holds : dials.holds dial) :
    Admitted p := by
  have guarded := p.glo_lt_ghi margin wide
  have holds' : dials.holds p.dial := p.dial_at.symm ▸ holds
  rcases (mem_safeDials p).mp offered with ⟨seg, listed, inside⟩ | ⟨channels, given, inside⟩
  · have fits : Asked.Fits profile p.asked p.dial seg :=
      (@Asked.mem_segmentDials profile p.asked p.dial guarded seg).mp ⟨dials, inside, holds'⟩
    exact tidy.admitted_of_fits guarded margin listed fits
  · obtain ⟨channelled, channel, listed, fits, rfl⟩ := Asked.mem_channelDials.mp inside
    have carrier : p.dial = channel.centerHz - channels.carrierOffsetHz := le_antisymm holds'.2 holds'.1
    simp only [← carrier] at fits
    exact tidy.admitted_of_channel guarded margin given channelled listed carrier fits

theorem Tidy.offered_or_near (admitted : Admitted p) :
    (∃ dials ∈ (Policy.rules profile).safeDials s tx.audio tx.direction, dials.holds dial) ∨
      ∃ channels, profile.channels = some channels ∧ ∃ channel ∈ channels.list, s.sideband = some .usb ∧
        |dial - (channel.centerHz - channels.carrierOffsetHz)| ≤ channels.carrierToleranceHz ∧
        FitsChannel profile s tx.audio channels channel dial ∧
        (FitsChannel profile s tx.audio channels channel (channel.centerHz - channels.carrierOffsetHz) →
          ∃ dials ∈ (Policy.rules profile).safeDials s tx.audio tx.direction,
            dials.dialLowHz = channel.centerHz - channels.carrierOffsetHz ∧
            dials.dialHighHz = channel.centerHz - channels.carrierOffsetHz) := by
  have guarded := p.glo_lt_ghi margin wide
  have at_ := p.dial_at
  rcases tidy.offered_of_admitted guarded margin (p.lo_lt_hi wide) admitted with ⟨seg, listed, fits⟩ |
    ⟨channels, given, channelled, channel, listed, near, inside⟩
  · obtain ⟨dials, inside, holds⟩ := (@Asked.mem_segmentDials profile p.asked p.dial guarded seg).mpr fits
    exact .inl ⟨dials, (mem_safeDials p).mpr (.inl ⟨seg, listed, inside⟩), at_ ▸ holds⟩
  · have upper : p.sideband = .usb := channelled.upper
    have fitting (d : ℚ) : FitsChannel profile s tx.audio channels channel d ↔
        (channelRange channels channel).holds (p.asked.glo d) (p.asked.ghi d) = true := by
      unfold FitsChannel Asked.glo Asked.ghi
      rw [show p.asked.sideband = .usb from upper]
      rfl
    have placed : (channelRange channels channel).holds (p.asked.glo p.dial) (p.asked.ghi p.dial) = true := inside
    rw [at_] at near placed
    refine .inr ⟨channels, given, channel, listed, p.sideband_eq.trans (congrArg some upper), near,
      (fitting dial).mpr placed, fun fits => ?_⟩
    exact ⟨_, (mem_safeDials p).mpr (.inr ⟨channels, given, Asked.mem_channelDials.mpr
      ⟨channelled, channel, listed, (fitting _).mp fits, rfl⟩⟩), rfl, rfl⟩

end

/-- For the United States profile: the dials offered are let go, and a dial that is let go
is offered, or is within the tolerance of a channel's carrier. -/
theorem us_dials_agree (profile : Profile) (loaded : load "us-fcc-part97" = .ok profile) (s : Situation)
    (region : s.ituRegion = profile.ituRegion) (control : s.control.isSome) (license : s.license.isSome)
    (sideband : s.sideband.isSome) (margin : 0 ≤ s.marginHz) (audio : Edges) (wide : audio.Wide) (direction : Direction)
    (what : String) (dial : ℚ) :
    let offered := (Policy.rules profile).safeDials s audio direction
    let allows := ((Policy.rules profile).evaluate (s.at dial) ⟨what, .data, audio, direction⟩).allowed = true
    (∀ dials ∈ offered, dials.holds dial → allows) ∧
      (allows → (∃ dials ∈ offered, dials.holds dial) ∨
        ∃ channels, profile.channels = some channels ∧ ∃ channel ∈ channels.list, s.sideband = some .usb ∧
          |dial - (channel.centerHz - channels.carrierOffsetHz)| ≤ channels.carrierToleranceHz ∧
          FitsChannel profile s audio channels channel dial ∧
          (FitsChannel profile s audio channels channel (channel.centerHz - channels.carrierOffsetHz) →
            ∃ dials ∈ offered, dials.dialLowHz = channel.centerHz - channels.carrierOffsetHz ∧
              dials.dialHighHz = channel.centerHz - channels.carrierOffsetHz)) := by
  intro offered allows
  have tidy : Tidy profile := by
    obtain rfl := Except.ok.inj (load_us.symm.trans loaded)
    exact tidy_us
  obtain ⟨mode, control_eq⟩ := Option.isSome_iff_exists.mp control
  obtain ⟨class_, license_eq⟩ := Option.isSome_iff_exists.mp license
  obtain ⟨side, sideband_eq⟩ := Option.isSome_iff_exists.mp sideband
  obtain ⟨p⟩ : Nonempty (Placed profile (s.at dial) ⟨what, .data, audio, direction⟩) :=
    ⟨⟨mode, class_, side, dial, region, control_eq, license_eq, sideband_eq, rfl⟩⟩
  have goes := @evaluate_allowed_iff profile (s.at dial) ⟨what, .data, audio, direction⟩ rfl
  constructor
  · intro dials member holds
    exact goes.mpr ⟨p, tidy.admitted_of_offered p margin wide member holds⟩
  · intro allowed
    obtain ⟨p', admitted⟩ := goes.mp allowed
    have found := tidy.offered_or_near p' margin wide admitted
    exact found

/-- For the United States profile, every data emission authorized is lawful. -/
theorem us_lawful {s : Situation} {tx : Transmission} (data : tx.kind = .data) (wide : tx.audio.Wide)
    (margin : 0 ≤ s.marginHz) {leave : Authorization}
    (authorized : (Policy.rules UsFcc.profile).authorize s tx = .ok leave) :
    ∃ p : Placed UsFcc.profile s tx, Lawful p := by
  obtain ⟨p, admitted⟩ := (evaluate_allowed_iff data).mp (authorize_ok_iff.mp ⟨leave, authorized⟩)
  exact ⟨p, tidy_us.lawful margin (p.lo_lt_hi wide) admitted⟩

/-- A station under local control whose dial is not set yet. -/
def attended : Situation where
  dialHz := none
  dialSource := none
  sideband := some .usb
  control := some .local
  license := some .general
  ituRegion := 2
  marginHz := 0
  bandPlan := false
  powerW := none

/-- Audio that fits a channel only with the carrier a little high. -/
def lowAudio : Edges := ⟨(95, 1000), (95, 1000)⟩

theorem us_dials_agree_attended : ((Policy.rules UsFcc.profile).evaluate (attended.at 5346505)
    ⟨"a data burst", .data, lowAudio, .originate⟩).allowed = true ∧
      ((∃ dials ∈ (Policy.rules UsFcc.profile).safeDials attended lowAudio .originate, dials.holds 5346505) ∨
        ∃ channels, UsFcc.profile.channels = some channels ∧ ∃ channel ∈ channels.list,
          |5346505 - (channel.centerHz - channels.carrierOffsetHz)| ≤ channels.carrierToleranceHz) := by
  have allowed : ((Policy.rules UsFcc.profile).evaluate (attended.at 5346505)
      ⟨"a data burst", .data, lowAudio, .originate⟩).allowed = true := by decide +kernel
  have agree := us_dials_agree UsFcc.profile load_us attended rfl rfl rfl rfl (by decide) lowAudio
    ⟨by decide, by decide⟩ .originate "a data burst" 5346505
  refine ⟨allowed, ?_⟩
  rcases agree.2 allowed with offered | ⟨channels, given, channel, listed, _, near, _⟩
  · exact .inl offered
  · exact .inr ⟨channels, given, channel, listed, near⟩

/-- A dial five hertz off a channel's carrier is let go, and no channel is offered. -/
theorem offCarrier_unoffered : ¬∀ (profile : Profile) (_ : load "us-fcc-part97" = .ok profile) (s : Situation)
    (_ : s.ituRegion = profile.ituRegion) (_ : s.control.isSome) (_ : s.license.isSome) (_ : s.sideband.isSome)
    (_ : 0 ≤ s.marginHz) (audio : Edges) (_ : audio.Wide) (direction : Direction) (what : String) (dial : ℚ),
    ((Policy.rules profile).evaluate (s.at dial) ⟨what, .data, audio, direction⟩).allowed = true →
      ∃ dials ∈ (Policy.rules profile).safeDials s audio direction, dials.holds dial ∨
        ∃ channels, profile.channels = some channels ∧ (|dial - dials.dialLowHz| ≤ channels.carrierToleranceHz ∨
          |dial - dials.dialHighHz| ≤ channels.carrierToleranceHz) := by
  intro all
  obtain ⟨dials, offered, near⟩ := all UsFcc.profile load_us attended rfl rfl rfl rfl (by decide) lowAudio
    ⟨by decide, by decide⟩ .originate "a data burst" 5346505 (by decide +kernel)
  have far : ∀ dials ∈ (Policy.rules UsFcc.profile).safeDials attended lowAudio .originate, ¬dials.holds 5346505 ∧
      ¬(|5346505 - dials.dialLowHz| ≤ UsFcc.channels.carrierToleranceHz ∨
        |5346505 - dials.dialHighHz| ≤ UsFcc.channels.carrierToleranceHz) := by
    decide +kernel
  rcases near with inside | ⟨channels, given, close⟩
  · exact (far dials offered).1 inside
  · obtain rfl : UsFcc.channels = channels := Option.some.inj given
    exact (far dials offered).2 close

end AetherHF.Regulatory
