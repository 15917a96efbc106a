import AetherHF.Regulatory.Agreement

/-! Sending less from where a station stands: with tables that are clear of each other, what
the policy lets go it lets go again in narrower audio. -/
namespace AetherHF.Regulatory

/-! ### Audio inside audio -/

namespace Edges

/-- The smallest edges that hold both: a burst of frames of more than one kind. -/
def union (edges other : Edges) : Edges where
  power := (min edges.power.1 other.power.1, max edges.power.2 other.power.2)
  spectral := (min edges.spectral.1 other.spectral.1, max edges.spectral.2 other.spectral.2)

/-- Inside, under each reading. -/
instance : LE Edges where
  le inner outer := (outer.power.1 ≤ inner.power.1 ∧ inner.power.2 ≤ outer.power.2) ∧
    outer.spectral.1 ≤ inner.spectral.1 ∧ inner.spectral.2 ≤ outer.spectral.2

instance (inner outer : Edges) : Decidable (inner ≤ outer) := inferInstanceAs (Decidable (_ ∧ _))

instance : SemilatticeSup Edges where
  sup := union
  le_refl _ := ⟨⟨le_rfl, le_rfl⟩, le_rfl, le_rfl⟩
  le_trans _ _ _ first second := ⟨⟨second.1.1.trans first.1.1, first.1.2.trans second.1.2⟩,
    second.2.1.trans first.2.1, first.2.2.trans second.2.2⟩
  le_antisymm a b below above := by
    have power : a.power = b.power := Prod.ext (le_antisymm above.1.1 below.1.1) (le_antisymm below.1.2 above.1.2)
    have spectral : a.spectral = b.spectral :=
      Prod.ext (le_antisymm above.2.1 below.2.1) (le_antisymm below.2.2 above.2.2)
    cases a
    cases b
    simp only at power spectral
    rw [power, spectral]
  le_sup_left _ _ := ⟨⟨min_le_left .., le_max_left ..⟩, min_le_left .., le_max_left ..⟩
  le_sup_right _ _ := ⟨⟨min_le_right .., le_max_right ..⟩, min_le_right .., le_max_right ..⟩
  sup_le _ _ _ first second := ⟨⟨le_min first.1.1 second.1.1, max_le first.1.2 second.1.2⟩,
    le_min first.2.1 second.2.1, max_le first.2.2 second.2.2⟩

theorem sup_eq_union (edges other : Edges) : edges ⊔ other = edges.union other := rfl

variable {inner outer : Edges}

/-- Inside, however the profile reads bandwidth. -/
theorem range_inside (inside : inner ≤ outer) (reading : Reading) :
    (outer.range reading).1 ≤ (inner.range reading).1 ∧ (inner.range reading).2 ≤ (outer.range reading).2 := by
  obtain ⟨power, spectral⟩ := inside
  cases reading with
  | power => exact power
  | spectral => exact spectral
  | wider => exact ⟨min_le_min power.1 spectral.1, max_le_max power.2 spectral.2⟩

/-- Low to high still, with the margin on each side. -/
def Upright (edges : Edges) (reading : Reading) (margin : ℚ) : Prop :=
  (edges.range reading).1 - margin ≤ (edges.range reading).2 + margin

instance (edges : Edges) (reading : Reading) (margin : ℚ) : Decidable (edges.Upright reading margin) :=
  inferInstanceAs (Decidable (_ ≤ _))

theorem Ordered.upright {edges : Edges} (ordered : edges.Ordered) (reading : Reading) {margin : ℚ} (some_ : 0 ≤ margin) :
    edges.Upright reading margin := by
  have range := ordered.range reading
  unfold Upright
  linarith

theorem Upright.mono {reading : Reading} {margin : ℚ} (upright : inner.Upright reading margin) (inside : inner ≤ outer) :
    outer.Upright reading margin := by
  obtain ⟨low, high⟩ := range_inside inside reading
  unfold Upright at *
  linarith

end Edges

/-! ### Sending less -/

variable {profile : Profile} {s : Situation} {tx tx' : Transmission}

/-- Another transmission from where this one is sent. -/
def Placed.sending (p : Placed profile s tx) (tx' : Transmission) : Placed profile s tx' :=
  ⟨p.control, p.license, p.sideband, p.dial, p.region, p.control_eq, p.license_eq, p.sideband_eq, p.dial_eq⟩

theorem Admitted.renamed {what : String} {kind : EmissionKind} {audio : Edges} {direction : Direction}
    {p : Placed profile s ⟨what, kind, audio, direction⟩} (admitted : Admitted p) (what' : String) :
    Admitted (p.sending ⟨what', kind, audio, direction⟩) := by
  obtain ⟨band, inBand, ⟨channels, given, named, by_⟩ | ⟨off, by_⟩⟩ := admitted
  · exact ⟨band, ⟨inBand.holding, inBand.open_⟩, .inl ⟨channels, given, named, by_.privilege, by_.emission, by_.place⟩⟩
  · exact ⟨band, ⟨inBand.holding, inBand.open_⟩, .inr ⟨off, by_.segment, by_.privilege, by_.automatic⟩⟩

/-- From the same place to the same purpose, no further either way. -/
structure Narrows (p' : Placed profile s tx') (p : Placed profile s tx) : Prop where
  control : p'.control = p.control
  license : p'.license = p.license
  sideband : p'.sideband = p.sideband
  dial : p'.dial = p.dial
  direction : tx'.direction = tx.direction
  lo : p.lo ≤ p'.lo
  hi : p'.hi ≤ p.hi
  upright : p'.glo ≤ p'.ghi

theorem Placed.narrows (p : Placed profile s tx) (inside : tx'.audio ≤ tx.audio) (direction : tx'.direction = tx.direction)
    (upright : tx'.audio.Upright profile.reading s.marginHz) : Narrows (p.sending tx') p := by
  obtain ⟨low, high⟩ := Edges.range_inside inside profile.reading
  have width := (p.sending tx').hi_sub_lo
  refine ⟨rfl, rfl, rfl, rfl, direction, ?_, ?_, ?_⟩
  · unfold Placed.lo Placed.audio
    rw [show (p.sending tx').sideband = p.sideband from rfl, show (p.sending tx').dial = p.dial from rfl]
    cases p.sideband <;> simp only [rfRange] <;> linarith
  · unfold Placed.hi Placed.audio
    rw [show (p.sending tx').sideband = p.sideband from rfl, show (p.sending tx').dial = p.dial from rfl]
    cases p.sideband <;> simp only [rfRange] <;> linarith
  · unfold Placed.width Placed.audio at width
    unfold Edges.Upright at upright
    unfold Placed.glo Placed.ghi
    linarith

theorem Range.holds_mono {range : Range} {low high low' high' : ℚ} (inside : range.holds low high = true)
    (above : low ≤ low') (below : high' ≤ high) : range.holds low' high' = true := by
  obtain ⟨start, stop⟩ := Range.holds_iff.mp inside
  exact Range.holds_iff.mpr ⟨start.trans above, below.trans stop⟩

theorem Range.overlaps_mono {range : Range} {low high low' high' : ℚ} (touched : range.overlaps low' high' = true)
    (above : low ≤ low') (below : high' ≤ high) : range.overlaps low high = true := by
  obtain ⟨start, stop⟩ := Range.overlaps_iff.mp touched
  exact Range.overlaps_iff.mpr ⟨above.trans start, stop.trans below⟩

/-- Nothing lies in both. -/
theorem Range.Clear.not_holds {a b : Range} {low high : ℚ} (clear : a.Clear b) (ordered : low ≤ high)
    (inside : a.holds low high = true) : ¬b.holds low high = true :=
  fun inside' => clear.not_overlaps inside (Range.overlaps_of_holds ordered inside')

/-- Tables in which narrower audio finds no other entry, but perhaps a privilege that allows
data where the one before it did. -/
structure Steady (profile : Profile) : Prop where
  bands : ∀ b ∈ profile.bands, ∀ b' ∈ profile.bands, b = b' ∨ b.range.Clear b'.range
  segments : ∀ seg ∈ profile.dataSegments, ∀ seg' ∈ profile.dataSegments, seg = seg' ∨ seg.range.Clear seg'.range
  privileges : ∀ license, (privilegesOf profile license).Pairwise fun pr later =>
    pr.range.Clear later.range ∨ (later.allows "data" = true → pr.allows "data" = true)
  channels : ∀ channels, profile.channels = some channels → ∀ channel ∈ channels.list, ∀ channel' ∈ channels.list,
    channel = channel' ∨ (channelRange channels channel).Clear (channelRange channels channel')

theorem steady_us : Steady UsFcc.profile where
  bands := by decide
  segments := by decide
  privileges license := by cases license <;> decide
  channels channels given := (tidy_us.channels channels given).clear

namespace Narrows

variable {p' : Placed profile s tx'} {p : Placed profile s tx} (narrows : Narrows p' p)
include narrows

theorem glo : p.glo ≤ p'.glo := sub_le_sub_right narrows.lo _

theorem ghi : p'.ghi ≤ p.ghi := add_le_add_left narrows.hi _

theorem width : p'.width ≤ p.width := by
  have outer := p.hi_sub_lo
  have inner := p'.hi_sub_lo
  have low := narrows.lo
  have high := narrows.hi
  linarith

theorem automatic : p'.Automatic ↔ p.Automatic := by
  unfold Placed.Automatic
  rw [narrows.control, narrows.direction]

theorem holds {range : Range} (inside : range.holds p.glo p.ghi = true) : range.holds p'.glo p'.ghi = true :=
  Range.holds_mono inside narrows.glo narrows.ghi

/-- In one of two clear ranges, the narrower audio is not in the other. -/
theorem only {range other : Range} (clear : range.Clear other) (inside : range.holds p.glo p.ghi = true) :
    ¬other.holds p'.glo p'.ghi = true :=
  clear.not_holds narrows.upright (narrows.holds inside)

theorem automaticHolds (asked : AutomaticHolds profile tx.direction p.width p.glo p.ghi) :
    AutomaticHolds profile tx'.direction p'.width p'.glo p'.ghi := by
  rcases asked with ⟨a, listed, inside⟩ | ⟨e, given, narrow, answers⟩
  · exact .inl ⟨a, listed, narrows.holds inside⟩
  · exact .inr ⟨e, given, narrows.width.trans narrow, narrows.direction ▸ answers⟩

variable (steady : Steady profile)
include steady

theorem byData (by_ : ByData p) : ByData p' := by
  obtain ⟨seg, found, narrow⟩ := by_.segment
  have inside := List.find?_some found
  have listed := List.mem_of_find?_eq_some found
  refine ⟨⟨seg, ?_, narrows.width.trans narrow⟩, ?_, fun automatic => ?_⟩
  · refine find?_eq_some_of_unique listed (narrows.holds inside) fun seg' listed' inside' => ?_
    rcases steady.segments seg listed seg' listed' with same | clear
    · exact same.symm
    · exact absurd inside' (narrows.only clear inside)
  · obtain ⟨pr, held, allows⟩ := by_.privilege
    have reaches := List.find?_some held
    rw [narrows.license]
    refine exists_find?_of_pairwise held (narrows.holds reaches) ((steady.privileges p.license).imp ?_) allows
    rintro pr' later (clear | keeps) reaches' inside' allows'
    · exact absurd (narrows.holds inside') (clear.not_holds narrows.upright reaches')
    · exact keeps allows'
  · exact narrows.automaticHolds (by_.automatic (narrows.automatic.mp automatic))

/-- The channel it is on is the channel the narrower audio touches. -/
theorem onChannel {channels : Channels} (given : profile.channels = some channels) (on : OnChannel p channels) :
    OnChannel p' channels := by
  obtain ⟨channel, found, sideband, carrier, inside⟩ := on
  have listed := List.mem_of_find?_eq_some found
  have inside' := narrows.holds inside
  refine ⟨channel, ?_, narrows.sideband ▸ sideband, narrows.dial ▸ carrier, inside'⟩
  refine find?_eq_some_of_unique listed (Range.overlaps_of_holds narrows.upright inside') fun channel' listed' touched => ?_
  rcases steady.channels channels given channel listed channel' listed' with same | clear
  · exact same.symm
  · exact absurd touched (clear.not_overlaps inside')

omit steady in
theorem offChannel {channels : Channels} (off : OffChannel p channels) : OffChannel p' channels := by
  obtain ⟨none_, ⟨seg, found⟩, narrow⟩ := off
  refine ⟨?_, ?_, narrows.width.trans narrow⟩
  · refine List.find?_eq_none.mpr fun channel listed touched => ?_
    exact List.find?_eq_none.mp none_ channel listed (Range.overlaps_mono touched narrows.glo narrows.ghi)
  · have here := List.find?_some found
    obtain ⟨own, inside⟩ := Bool.and_eq_true_iff.mp here
    refine Option.isSome_iff_exists.mp (List.find?_isSome.mpr ⟨seg, List.mem_of_find?_eq_some found, ?_⟩)
    rw [own, narrows.holds inside]
    rfl

theorem bySixty {channels : Channels} (given : profile.channels = some channels) (by_ : BySixty p channels) :
    BySixty p' channels := by
  obtain ⟨pr, held, reaches⟩ := by_.privilege
  refine ⟨⟨pr, ?_, Range.holds_mono reaches narrows.lo narrows.hi⟩, by_.emission, ?_⟩
  · rw [narrows.license]
    exact held
  · rcases by_.place with on | off
    · exact .inl (narrows.onChannel steady given on)
    · exact .inr (narrows.offChannel off)

theorem inBand {band : Band} (inBand : InBand p band) : InBand p' band := by
  have inside := List.find?_some inBand.holding
  have listed := List.mem_of_find?_eq_some inBand.holding
  refine ⟨?_, fun automatic => inBand.open_ (narrows.automatic.mp automatic)⟩
  refine find?_eq_some_of_unique listed (narrows.holds inside) fun band' listed' inside' => ?_
  rcases steady.bands band listed band' listed' with same | clear
  · exact same.symm
  · exact absurd inside' (narrows.only clear inside)

theorem admitted (admitted : Admitted p) : Admitted p' := by
  obtain ⟨band, inBand, ⟨channels, given, named, by_⟩ | ⟨off, by_⟩⟩ := admitted
  · exact ⟨band, narrows.inBand steady inBand, .inl ⟨channels, given, named, narrows.bySixty steady given by_⟩⟩
  · exact ⟨band, narrows.inBand steady inBand, .inr ⟨off, narrows.byData steady by_⟩⟩

end Narrows

/-- What is let go is let go again inside it. -/
theorem Steady.evaluate_narrower (steady : Steady profile) {inner outer : Edges} (inside : inner ≤ outer)
    (upright : inner.Upright profile.reading s.marginHz) {what what' : String} {direction : Direction}
    (allowed : ((Policy.rules profile).evaluate s ⟨what, .data, outer, direction⟩).allowed = true) :
    ((Policy.rules profile).evaluate s ⟨what', .data, inner, direction⟩).allowed = true := by
  obtain ⟨p, admitted⟩ := (evaluate_allowed_iff rfl).mp allowed
  have narrows : Narrows (p.sending ⟨what', .data, inner, direction⟩) p := p.narrows inside rfl upright
  exact (evaluate_allowed_iff rfl).mpr ⟨_, narrows.admitted steady admitted⟩

end AetherHF.Regulatory
