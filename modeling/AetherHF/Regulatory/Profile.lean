import Mathlib.Algebra.Order.Ring.Rat
import AetherHF.Base.Exact

/-! A regulatory profile: one administration's rules for the bands, as data. Frequencies
are exact hertz, both ends of a range inclusive. -/
namespace AetherHF

/-- `{:.places}` of a float: ties to even, and the sign kept at zero. -/
def fixed (places : Nat) (x : ℚ) : String :=
  let n := (roundTiesEven (|x| * 10 ^ places)).toNat
  let rest := toString (n % 10 ^ places)
  (if x < 0 then "-" else "") ++ toString (n / 10 ^ places) ++
    if places = 0 then "" else "." ++ "".pushn '0' (places - rest.length) ++ rest

/-- `{}` of a float: as many decimals as it has, up to a float's seventeen. -/
def display (x : ℚ) : String :=
  fixed (((List.range 17).find? fun places => (x * 10 ^ places).den = 1).getD 17) x

namespace Regulatory

/-! ### Occupied spectrum -/

/-- Which reading turns a spectrum into a bandwidth. -/
inductive Reading where
  | power
  | spectral
  | wider
  deriving DecidableEq, Repr

/-- The audio a transmission occupies under both readings, low and high edge. -/
structure Edges where
  power : ℚ × ℚ
  spectral : ℚ × ℚ
  deriving DecidableEq

/-- The edges a reading takes. -/
def Edges.range (edges : Edges) : Reading → ℚ × ℚ
  | .power => edges.power
  | .spectral => edges.spectral
  | .wider => (min edges.power.1 edges.spectral.1, max edges.power.2 edges.spectral.2)

/-- Low to high, under each reading. -/
def Edges.Ordered (edges : Edges) : Prop := edges.power.1 ≤ edges.power.2 ∧ edges.spectral.1 ≤ edges.spectral.2

instance (edges : Edges) : Decidable edges.Ordered := inferInstanceAs (Decidable (_ ∧ _))

theorem Edges.Ordered.range {edges : Edges} (ordered : edges.Ordered) (reading : Reading) :
    (edges.range reading).1 ≤ (edges.range reading).2 := by
  cases reading with
  | power => exact ordered.1
  | spectral => exact ordered.2
  | wider => exact (min_le_left ..).trans (ordered.1.trans (le_max_left ..))

/-- With some width, under each reading. -/
def Edges.Wide (edges : Edges) : Prop := edges.power.1 < edges.power.2 ∧ edges.spectral.1 < edges.spectral.2

theorem Edges.Wide.range {edges : Edges} (wide : edges.Wide) (reading : Reading) :
    (edges.range reading).1 < (edges.range reading).2 := by
  cases reading with
  | power => exact wide.1
  | spectral => exact wide.2
  | wider => exact (min_le_left ..).trans_lt (wide.1.trans_le (le_max_left ..))

/-! ### The tables -/

structure Range where
  lowHz : ℚ
  highHz : ℚ
  deriving DecidableEq

namespace Range

/-- Whether `low..=high` lies inside. -/
def holds (range : Range) (low high : ℚ) : Bool := range.lowHz ≤ low && high ≤ range.highHz

/-- Whether `low..=high` touches it at all. -/
def overlaps (range : Range) (low high : ℚ) : Bool := low ≤ range.highHz && range.lowHz ≤ high

theorem holds_iff {range : Range} {low high : ℚ} : range.holds low high = true ↔ range.lowHz ≤ low ∧ high ≤ range.highHz := by
  simp [holds]

theorem overlaps_iff {range : Range} {low high : ℚ} :
    range.overlaps low high = true ↔ low ≤ range.highHz ∧ range.lowHz ≤ high := by
  simp [overlaps]

/-- What lies inside touches. -/
theorem overlaps_of_holds {range : Range} {low high : ℚ} (ordered : low ≤ high) (inside : range.holds low high = true) :
    range.overlaps low high = true := by
  obtain ⟨above, below⟩ := holds_iff.mp inside
  exact overlaps_iff.mpr ⟨ordered.trans below, above.trans ordered⟩

end Range

/-- Hertz as kilohertz with no more decimals than it needs. -/
def khz (hz : ℚ) : String :=
  let k := hz / 1000
  if |k - roundTiesEven k| < 1 / 10 ^ 6 then fixed 0 k
  else if |k * 10 - roundTiesEven (k * 10)| < 1 / 10 ^ 6 then fixed 1 k
  else fixed 3 k

def Range.khz (range : Range) : String :=
  Regulatory.khz range.lowHz ++ "–" ++ Regulatory.khz range.highHz ++ " kHz"

structure Band where
  name : String
  range : Range
  deriving DecidableEq

/-- A limit with its rule. -/
structure DataLimit where
  maxBandwidthHz : ℚ
  rule : String
  deriving DecidableEq

/-- A segment where data emissions are authorized. -/
structure Segment where
  band : String
  range : Range
  rule : String
  /-- The widest emission allowed here, where it is not the general limit. -/
  maxBandwidthHz : Option ℚ := none
  bandwidthRule : Option String := none
  deriving DecidableEq

/-- The widest data emission allowed in this segment, and the rule for it. -/
def Segment.dataLimit (segment : Segment) (general : DataLimit) : ℚ × String :=
  match segment.maxBandwidthHz with
  | some max => (max, segment.bandwidthRule.getD general.rule)
  | none => (general.maxBandwidthHz, general.rule)

/-- A privilege of a license class, with the emissions it allows when they are fewer than
the segments'. -/
structure Privilege where
  range : Range
  emissions : Option (List String) := none
  rule : Option String := none
  deriving DecidableEq

/-- Whether this privilege allows an emission of this name. -/
def Privilege.allows (privilege : Privilege) (emission : String) : Bool :=
  privilege.emissions.all fun list => list.any (· == emission)

/-- The privileges, per class. -/
structure Privileges where
  extra : List Privilege
  advanced : List Privilege
  general : List Privilege
  technician : List Privilege
  novice : List Privilege
  rule : String
  deriving DecidableEq

/-- Every class's list, in the order of the classes' names. -/
def Privileges.all (privileges : Privileges) : List (List Privilege) :=
  [privileges.advanced, privileges.extra, privileges.general, privileges.novice, privileges.technician]

structure Channel where
  centerHz : ℚ
  deriving DecidableEq

/-- The discrete channels of one band. -/
structure Channels where
  band : String
  rule : String
  /-- A channel's width, centred on its centre frequency. -/
  widthHz : ℚ
  /-- How far below the centre a data emission's carrier is set. -/
  carrierOffsetHz : ℚ
  /-- How far from the prescribed carrier a dial may be. -/
  carrierToleranceHz : ℚ
  sideband : String
  list : List Channel
  why : String
  deriving DecidableEq

structure SixtyEmissions where
  allowed : List String
  rule : String
  deriving DecidableEq

/-- A band where automatic control is not allowed at all. -/
structure Excluded where
  band : String
  rule : String
  why : String
  deriving DecidableEq

/-- Automatic control outside the designated segments. -/
structure Elsewhere where
  maxBandwidthHz : ℚ
  requiresResponse : Bool
  rule : String
  deriving DecidableEq

structure Automatic where
  segments : List Range
  segmentsRule : String
  elsewhere : Option Elsewhere
  excludedBands : List Excluded
  deriving DecidableEq

/-- A power limit, for a reminder. -/
structure PowerLimit where
  range : Range
  maxW : ℚ
  measure : String
  classes : Option (List String) := none
  rule : String
  deriving DecidableEq

structure PlanArea where
  range : Range
  label : String
  deriving DecidableEq

/-- The voluntary band plan: guidance, never a rule. -/
structure BandPlan where
  authority : String
  data : List PlanArea
  avoid : List PlanArea
  deriving DecidableEq

/-- One administration's rules. -/
structure Profile where
  id : String
  name : String
  ituRegion : Nat
  /-- How the profile reads bandwidth. -/
  reading : Reading
  data : DataLimit
  bands : List Band
  dataSegments : List Segment
  channels : Option Channels
  sixtyMeterEmissions : Option SixtyEmissions
  privileges : Privileges
  automatic : Automatic
  power : List PowerLimit
  bandPlan : Option BandPlan
  deriving DecidableEq

namespace Profile

variable (profile : Profile)

/-- Every range with its name, as `check` goes through them. -/
def ranges : List (String × Range) :=
  profile.bands.map (fun b => ("band", b.range)) ++
    profile.dataSegments.map (fun s => ("data segment", s.range)) ++
    profile.automatic.segments.map (fun r => ("automatic segment", r)) ++
    profile.privileges.all.flatMap fun list => list.map fun p => ("privilege", p.range)

/-- A profile that does not hold together is not used. -/
def check : Except String Unit :=
  match profile.ranges.find? fun r => !decide (r.2.lowHz < r.2.highHz) with
  | some (what, range) => .error ("the " ++ profile.id ++ " profile has a " ++ what ++ " of " ++ range.khz)
  | none =>
    if profile.bands.isEmpty || profile.dataSegments.isEmpty then
      .error ("the " ++ profile.id ++ " profile names no bands or no data segments")
    else match profile.dataSegments.find? fun segment =>
        !profile.bands.any fun b => b.range.holds segment.range.lowHz segment.range.highHz with
      | some segment =>
        .error ("the " ++ profile.id ++ " profile's data segment " ++ segment.range.khz ++ " is in no band")
      | none =>
        if (profile.dataSegments.filterMap (·.maxBandwidthHz)).any (· ≤ 0) then
          .error ("the " ++ profile.id ++ " profile has a data segment with no bandwidth limit")
        else if profile.data.maxBandwidthHz ≤ 0 then
          .error ("the " ++ profile.id ++ " profile has no data bandwidth limit")
        else .ok ()

/-- The band holding `low..=high`, if one does. -/
def bandHolding (low high : ℚ) : Option Band := profile.bands.find? (·.range.holds low high)

/-- A band `low..=high` touches, if any. -/
def bandTouching (low high : ℚ) : Option Band := profile.bands.find? (·.range.overlaps low high)

end Profile

end Regulatory

end AetherHF
