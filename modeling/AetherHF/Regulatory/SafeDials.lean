import Mathlib.Data.List.Sort
import AetherHF.Regulatory.Lawful

/-! The dial ranges where a data transmission is lawful for a station: the segments inside
its privileges, the mapping from audio to the air inverted, and the channels it fits. -/
namespace AetherHF.Regulatory

/-- A dial range where a transmission fits a segment. -/
structure SafeDial where
  band : String
  segment : Range
  rule : String
  dialLowHz : ℚ
  dialHighHz : ℚ
  deriving DecidableEq

def SafeDial.holds (dials : SafeDial) (dial : ℚ) : Prop := dials.dialLowHz ≤ dial ∧ dial ≤ dials.dialHighHz

instance (dials : SafeDial) (dial : ℚ) : Decidable (dials.holds dial) := inferInstanceAs (Decidable (_ ∧ _))

/-- The dial range that puts an audio range inside `segment` with `margin` to spare on each
side, if any does. -/
def dialRange (segment : Range) (sideband : Sideband) (audioLow audioHigh margin : ℚ) : Option (ℚ × ℚ) :=
  let (low, high) := match sideband with
    | .usb => (segment.lowHz - audioLow + margin, segment.highHz - audioHigh - margin)
    | .lsb => (segment.lowHz + audioHigh + margin, segment.highHz + audioLow - margin)
  if low ≤ high then some (low, high) else none

/-- The overlap of two ranges, if they have one. -/
def intersect (a b : Range) : Option Range :=
  let low := max a.lowHz b.lowHz
  let high := min a.highHz b.highHz
  if low < high then some ⟨low, high⟩ else none

/-- What a station asks for: the facts `safeDials` draws from its situation. -/
structure Asked where
  sideband : Sideband
  license : LicenseClass
  /-- The audio edges, as the profile reads bandwidth. -/
  low : ℚ
  high : ℚ
  margin : ℚ
  automatic : Bool
  direction : Direction

namespace Asked

variable (profile : Profile) (asked : Asked)

def width : ℚ := asked.high - asked.low

/-- Whether automatic control is allowed outside its segments. -/
def elsewhereOk : Bool :=
  profile.automatic.elsewhere.any fun e =>
    asked.width ≤ e.maxBandwidthHz && (asked.direction = .respond || !e.requiresResponse)

/-- A piece of a segment inside a privilege, or what of it is for automatic control. -/
def pieces (segment : Segment) (inter : Range) : List (Range × String) :=
  if asked.automatic && !asked.elsewhereOk profile then
    (profile.automatic.segments.filterMap fun auto => intersect inter auto).map fun r =>
      (r, profile.automatic.segmentsRule)
  else [(inter, segment.rule)]

/-- The dials of a data segment. -/
def segmentDials (segment : Segment) : List SafeDial :=
  if (segment.dataLimit profile.data).1 < asked.width then []
  else if asked.automatic && profile.automatic.excludedBands.any (·.band == segment.band) then []
  else ((privilegesOf profile asked.license).filter (·.allows "data")).flatMap fun privilege =>
    match intersect segment.range privilege.range with
    | none => []
    | some inter => (asked.pieces profile segment inter).filterMap fun (range, rule) =>
      (dialRange range asked.sideband asked.low asked.high asked.margin).map fun (low, high) =>
        { band := segment.band, segment := range, rule, dialLowHz := low, dialHighHz := high }

/-- The dials of the channels, each a single one. -/
def channelDials (channels : Channels) : List SafeDial :=
  if !asked.automatic && asked.width ≤ profile.data.maxBandwidthHz && asked.sideband = .usb &&
      (privilegesOf profile asked.license).any fun p => channels.list.any fun c =>
        p.range.holds c.centerHz c.centerHz && p.allows "data" then
    channels.list.filterMap fun channel =>
      let dial := channel.centerHz - channels.carrierOffsetHz
      let range := channelRange channels channel
      let (lo, hi) := rfRange dial asked.sideband asked.low asked.high
      if range.holds (lo - asked.margin) (hi + asked.margin) then
        some { band := channels.band, segment := range, rule := channels.rule, dialLowHz := dial, dialHighHz := dial }
      else none
  else []

end Asked

/-- Every dial range where a data transmission occupying `audio` is lawful for this station. -/
def Policy.safeDials (policy : Policy) (s : Situation) (audio : Edges) (direction : Direction) : List SafeDial :=
  match policy with
  | .rules profile => match s.sideband, s.license, s.control with
    | some sideband, some license, some control =>
      let (low, high) := audio.range profile.reading
      let asked : Asked :=
        { sideband, license, low, high, margin := s.marginHz, direction
          automatic := control = .automatic && direction ≠ .operator }
      let channels := match profile.channels with
        | some channels => asked.channelDials profile channels
        | none => []
      (profile.dataSegments.flatMap (asked.segmentDials profile) ++ channels).insertionSort fun a b =>
        a.dialLowHz ≤ b.dialLowHz
    | _, _, _ => []
  | _ => []

/-! ### What is offered -/

/-- The dials offered for a range are those that put the signal inside it. -/
theorem dialRange_holds {segment : Range} {sideband : Sideband} {low high margin dial : ℚ} :
    (∃ l h, dialRange segment sideband low high margin = some (l, h) ∧ l ≤ dial ∧ dial ≤ h) ↔
      segment.holds ((rfRange dial sideband low high).1 - margin) ((rfRange dial sideband low high).2 + margin) = true := by
  rw [Range.holds_iff]
  constructor
  · rintro ⟨l, h, found, above, below⟩
    unfold dialRange at found
    cases sideband <;>
    · simp only at found
      split at found
      · obtain ⟨rfl, rfl⟩ := Prod.mk.inj (Option.some.inj found)
        constructor <;> simp only [rfRange] <;> linarith
      · cases found
  · rintro ⟨above, below⟩
    cases sideband with
    | usb =>
      simp only [rfRange] at above below
      refine ⟨_, _, if_pos ?_, ?_, ?_⟩ <;> linarith
    | lsb =>
      simp only [rfRange] at above below
      refine ⟨_, _, if_pos ?_, ?_, ?_⟩ <;> linarith

/-- What has width and lies in both ranges lies in their overlap. -/
theorem intersect_holds {a b : Range} {low high : ℚ} (wide : low < high) :
    (∃ r, intersect a b = some r ∧ r.holds low high = true) ↔ a.holds low high = true ∧ b.holds low high = true := by
  simp only [Range.holds_iff]
  constructor
  · rintro ⟨r, found, above, below⟩
    unfold intersect at found
    simp only at found
    split at found
    · obtain rfl := Option.some.inj found
      obtain ⟨first, second⟩ := max_le_iff.mp above
      obtain ⟨third, fourth⟩ := le_min_iff.mp below
      exact ⟨⟨first, third⟩, second, fourth⟩
    · cases found
  · rintro ⟨⟨first, third⟩, second, fourth⟩
    have above := max_le first second
    have below := le_min third fourth
    exact ⟨_, if_pos (above.trans_lt (wide.trans_le below)), above, below⟩

namespace Asked

variable {profile : Profile} {asked : Asked} {dial : ℚ}

/-- The range on the air with the margin, on a dial. -/
def glo (asked : Asked) (dial : ℚ) : ℚ := (rfRange dial asked.sideband asked.low asked.high).1 - asked.margin

def ghi (asked : Asked) (dial : ℚ) : ℚ := (rfRange dial asked.sideband asked.low asked.high).2 + asked.margin

theorem glo_lt_ghi (wide : asked.low < asked.high) (margin : 0 ≤ asked.margin) (dial : ℚ) :
    asked.glo dial < asked.ghi dial := by
  unfold glo ghi
  cases asked.sideband <;> simp only [rfRange] <;> linarith

/-- Automatic control keeps to its segments. -/
def Confined (profile : Profile) (asked : Asked) : Prop := asked.automatic = true ∧ asked.elsewhereOk profile = false

theorem pieces_holds (wide : asked.glo dial < asked.ghi dial) (segment : Segment) (inter : Range) :
    (∃ piece ∈ asked.pieces profile segment inter, piece.1.holds (asked.glo dial) (asked.ghi dial) = true) ↔
      inter.holds (asked.glo dial) (asked.ghi dial) = true ∧ (Confined profile asked →
        ∃ auto ∈ profile.automatic.segments, auto.holds (asked.glo dial) (asked.ghi dial) = true) := by
  unfold pieces
  by_cases confined : Confined profile asked
  · rw [if_pos (by simpa [Confined] using confined)]
    constructor
    · rintro ⟨piece, member, holds⟩
      obtain ⟨r, among, rfl⟩ := List.mem_map.mp member
      obtain ⟨auto, listed, overlap⟩ := List.mem_filterMap.mp among
      obtain ⟨inside, inside'⟩ := (intersect_holds wide).mp ⟨r, overlap, holds⟩
      exact ⟨inside, fun _ => ⟨auto, listed, inside'⟩⟩
    · rintro ⟨inside, automatic⟩
      obtain ⟨auto, listed, inside'⟩ := automatic confined
      obtain ⟨r, overlap, holds⟩ := (intersect_holds wide).mpr ⟨inside, inside'⟩
      exact ⟨_, List.mem_map.mpr ⟨r, List.mem_filterMap.mpr ⟨auto, listed, overlap⟩, rfl⟩, holds⟩
  · rw [if_neg (by simpa [Confined] using confined)]
    simp [confined]

/-- A dial in the ranges of a segment: the signal fits it and a privilege, and what
automatic control asks. -/
structure Fits (profile : Profile) (asked : Asked) (dial : ℚ) (segment : Segment) : Prop where
  narrow : asked.width ≤ (segment.dataLimit profile.data).1
  open_ : asked.automatic = true → ∀ x ∈ profile.automatic.excludedBands, x.band ≠ segment.band
  inside : segment.range.holds (asked.glo dial) (asked.ghi dial) = true
  privilege : ∃ pr ∈ privilegesOf profile asked.license, pr.allows "data" = true ∧
    pr.range.holds (asked.glo dial) (asked.ghi dial) = true
  automatic : Confined profile asked →
    ∃ auto ∈ profile.automatic.segments, auto.holds (asked.glo dial) (asked.ghi dial) = true

theorem mem_segmentDials (wide : asked.glo dial < asked.ghi dial) (segment : Segment) :
    (∃ dials ∈ asked.segmentDials profile segment, dials.holds dial) ↔ Fits profile asked dial segment := by
  unfold segmentDials
  by_cases narrow : (segment.dataLimit profile.data).1 < asked.width
  · rw [if_pos narrow]
    exact iff_of_false (by simp) fun fits => absurd fits.narrow (not_le.mpr narrow)
  rw [if_neg narrow]
  by_cases excluded : (asked.automatic && profile.automatic.excludedBands.any (·.band == segment.band)) = true
  · rw [if_pos excluded]
    refine iff_of_false (by simp) fun fits => ?_
    obtain ⟨automatic, some_⟩ := Bool.and_eq_true_iff.mp excluded
    obtain ⟨x, member, same⟩ := List.any_eq_true.mp some_
    exact fits.open_ automatic x member (by simpa using same)
  rw [if_neg excluded]
  have open_ : asked.automatic = true → ∀ x ∈ profile.automatic.excludedBands, x.band ≠ segment.band := by
    intro automatic x member same
    exact excluded (by rw [automatic, Bool.true_and]; exact List.any_eq_true.mpr ⟨x, member, by simpa using same⟩)
  constructor
  · rintro ⟨dials, member, holds⟩
    obtain ⟨pr, among, found⟩ := List.mem_flatMap.mp member
    obtain ⟨listed, allows⟩ := List.mem_filter.mp among
    cases overlap : intersect segment.range pr.range with
    | none => simp [overlap] at found
    | some inter =>
      simp only [overlap] at found
      obtain ⟨⟨range, rule⟩, piece, fits⟩ := List.mem_filterMap.mp found
      obtain ⟨⟨low, high⟩, offered, rfl⟩ := Option.map_eq_some_iff.mp fits
      have inside := dialRange_holds.mp ⟨low, high, offered, holds.1, holds.2⟩
      obtain ⟨both, automatic⟩ := (pieces_holds wide segment inter).mp ⟨_, piece, inside⟩
      obtain ⟨first, second⟩ := (intersect_holds wide).mp ⟨inter, overlap, both⟩
      exact ⟨not_lt.mp narrow, open_, first, ⟨pr, listed, allows, second⟩, automatic⟩
  · intro fits
    obtain ⟨pr, listed, allows, second⟩ := fits.privilege
    obtain ⟨inter, overlap, both⟩ := (intersect_holds wide).mpr ⟨fits.inside, second⟩
    obtain ⟨⟨range, rule⟩, piece, inside⟩ := (pieces_holds wide segment inter).mpr ⟨both, fits.automatic⟩
    obtain ⟨low, high, offered, above, below⟩ := dialRange_holds.mpr inside
    refine ⟨⟨segment.band, range, rule, low, high⟩, List.mem_flatMap.mpr
      ⟨pr, List.mem_filter.mpr ⟨listed, allows⟩, ?_⟩, above, below⟩
    simp only [overlap]
    exact List.mem_filterMap.mpr ⟨(range, rule), piece, Option.map_eq_some_iff.mpr ⟨(low, high), offered, rfl⟩⟩

/-- What the channels ask of a station before any of them is offered. -/
structure Channelled (profile : Profile) (asked : Asked) (channels : Channels) : Prop where
  attended : asked.automatic = false
  narrow : asked.width ≤ profile.data.maxBandwidthHz
  upper : asked.sideband = .usb
  privilege : ∃ pr ∈ privilegesOf profile asked.license, ∃ c ∈ channels.list,
    pr.range.holds c.centerHz c.centerHz = true ∧ pr.allows "data" = true

theorem mem_channelDials {channels : Channels} {dials : SafeDial} :
    dials ∈ asked.channelDials profile channels ↔ Channelled profile asked channels ∧ ∃ channel ∈ channels.list,
      let carrier := channel.centerHz - channels.carrierOffsetHz
      (channelRange channels channel).holds (asked.glo carrier) (asked.ghi carrier) = true ∧
        dials = ⟨channels.band, channelRange channels channel, channels.rule, carrier, carrier⟩ := by
  unfold channelDials
  have asks : (!asked.automatic && asked.width ≤ profile.data.maxBandwidthHz && asked.sideband = .usb &&
      (privilegesOf profile asked.license).any fun p => channels.list.any fun c =>
        p.range.holds c.centerHz c.centerHz && p.allows "data") = true ↔ Channelled profile asked channels := by
    simp only [Bool.and_eq_true, Bool.not_eq_true', decide_eq_true_eq, List.any_eq_true]
    exact ⟨fun ⟨⟨⟨attended, narrow⟩, upper⟩, privilege⟩ => ⟨attended, narrow, upper, privilege⟩,
      fun ⟨attended, narrow, upper, privilege⟩ => ⟨⟨⟨attended, narrow⟩, upper⟩, privilege⟩⟩
  by_cases channelled : Channelled profile asked channels
  · rw [if_pos (asks.mpr channelled), List.mem_filterMap]
    constructor
    · rintro ⟨channel, member, fits⟩
      simp only at fits
      split at fits
      · rename_i inside
        exact ⟨channelled, channel, member, inside, (Option.some.inj fits).symm⟩
      · cases fits
    · rintro ⟨_, channel, member, inside, rfl⟩
      exact ⟨channel, member, if_pos inside⟩
  · rw [if_neg fun holds => channelled (asks.mp holds)]
    exact iff_of_false (by simp) fun both => channelled both.1

end Asked

end AetherHF.Regulatory
