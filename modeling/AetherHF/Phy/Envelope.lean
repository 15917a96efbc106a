import AetherHF.Base.Lists
import AetherHF.Phy.Blanker
import Mathlib.Data.List.GetD

/-! The envelope of a buffer, seen from the stream it is cut from: each sample's level is a
median of the medians of whole segments around it. -/
namespace AetherHF.Phy

variable {K : Type} [Field K] [LinearOrder K]

@[simp] theorem median_singleton (x : K) : median [x] = x := by
  simp [median]

/-- The filter at one place, its edge values extended. -/
theorem medianFilter_get {values : List K} {size i : Nat} (some_ : 1 ≤ size) (inside : i < values.length) :
    (medianFilter values size)[i]? = some (median ((List.range size).map fun k =>
      values.getD (min (i + k - size / 2) (values.length - 1)) 0)) := by
  have notEmpty : values ≠ [] := List.ne_nil_of_length_pos (by omega)
  have last (index : Nat) : min index (values.length - 1) < values.length := by omega
  by_cases one : size ≤ 1
  · have is : size = 1 := by omega
    subst is
    have here : min i (values.length - 1) = i := by omega
    simp [medianFilter, here, inside]
  · simp only [medianFilter, notEmpty, one, or_self, dite_false, List.getElem?_map,
      List.getElem?_range inside, Option.map_some]
    congr 2
    refine List.map_congr_left fun k _ => ?_
    rw [List.getD_eq_getElem _ _ (last _)]
    rfl

theorem medianFilter_length (values : List K) (size : Nat) : (medianFilter values size).length = values.length := by
  unfold medianFilter
  split
  · rfl
  · simp

namespace NoiseBlanker

variable (blanker : NoiseBlanker K) {norm : Sample K → K}

theorem perSegment_length (window : Nat) (magnitude : List K) :
    (perSegment window magnitude).length = magnitude.length / window := by
  simp [perSegment]

theorem perSegment_get {window : Nat} {magnitude : List K} {j : Nat} (inside : j < magnitude.length / window) :
    (perSegment window magnitude).getD j 0 = median ((magnitude.drop (j * window)).take window) := by
  rw [List.getD_eq_getElem _ _ (by rwa [perSegment_length])]
  simp only [perSegment, List.getElem_ofFn, slice]
  rw [List.drop_take, Nat.succ_mul, Nat.add_sub_cancel_left]

/-- The median of a segment of the stream. -/
def segmentLevel (magnitude : List K) (j : Nat) : K :=
  median ((magnitude.drop (j * blanker.window)).take blanker.window)

/-- The level of segment `i`, as far as segment `last` is there. -/
def levelTo (magnitude : List K) (last i : Nat) : K :=
  median ((List.range blanker.segmentSpan).map fun k =>
    blanker.segmentLevel magnitude (min (min i last + k - blanker.segmentSpan / 2) last))

/-- The level smoothed at one segment of a buffer. -/
theorem smoothed_get {magnitude : List K} {i : Nat}
    (inside : i < magnitude.length / blanker.window) :
    (medianFilter (perSegment blanker.window magnitude) blanker.segmentSpan)[i]? =
      some (blanker.levelTo magnitude (magnitude.length / blanker.window - 1) i) := by
  have odd := blanker.odd
  rw [medianFilter_get (by omega) (by rwa [perSegment_length]), perSegment_length]
  have here : min i (magnitude.length / blanker.window - 1) = i := by omega
  simp only [levelTo, here]
  congr 2
  refine List.map_congr_left fun k _ => ?_
  rw [perSegment_get (by omega), segmentLevel]

/-- A buffer of segments enough, from the start of the stream. -/
theorem levels_get {magnitude : List K} (two : 2 * blanker.window ≤ magnitude.length)
    (enough : blanker.segmentSpan * blanker.window ≤ magnitude.length) {p : Nat} (inside : p < magnitude.length) :
    (blanker.levels magnitude)[p]? =
      some (blanker.levelTo magnitude (magnitude.length / blanker.window - 1) (p / blanker.window)) := by
  have wide : 0 < blanker.window := by have := blanker.widest; omega
  have window : min blanker.window magnitude.length = blanker.window := by omega
  have segments : 2 ≤ magnitude.length / blanker.window := (Nat.le_div_iff_mul_le wide).mpr two
  have size : min blanker.segmentSpan (magnitude.length / blanker.window) = blanker.segmentSpan :=
    min_eq_left ((Nat.le_div_iff_mul_le wide).mpr enough)
  have fits := Nat.div_mul_le_self magnitude.length blanker.window
  simp only [levels, window, size, if_neg (Nat.not_lt.mpr segments)]
  have length : ((medianFilter (perSegment blanker.window magnitude) blanker.segmentSpan).flatMap
      fun value => List.replicate blanker.window value).length = magnitude.length / blanker.window * blanker.window := by
    rw [length_flatMap_replicate, medianFilter_length, perSegment_length]
  by_cases within : p < magnitude.length / blanker.window * blanker.window
  · rw [List.getElem?_append_left (by rwa [length]), getElem?_flatMap_replicate wide]
    exact blanker.smoothed_get ((Nat.div_lt_iff_lt_mul wide).mpr within)
  · -- the ragged tail keeps the last segment's level
    have final : (magnitude.length / blanker.window * blanker.window - 1) / blanker.window =
        magnitude.length / blanker.window - 1 := by
      obtain ⟨whole, is⟩ : ∃ whole, magnitude.length / blanker.window = whole + 1 :=
        ⟨magnitude.length / blanker.window - 1, by omega⟩
      rw [is, Nat.succ_mul, Nat.add_sub_assoc wide, Nat.mul_comm, Nat.mul_add_div wide, Nat.div_eq_of_lt (by omega),
        Nat.add_zero, Nat.add_sub_cancel]
    rw [List.getElem?_append_right (by rw [length]; omega), List.getElem?_replicate_of_lt (by rw [length]; omega),
      List.getLastD_eq_getLast?, List.getLast?_eq_getElem?, length, getElem?_flatMap_replicate wide, final,
      blanker.smoothed_get (by omega), Option.getD_some]
    have past : magnitude.length / blanker.window ≤ p / blanker.window :=
      (Nat.le_div_iff_mul_le wide).mpr (Nat.le_of_not_lt within)
    have same : min (p / blanker.window) (magnitude.length / blanker.window - 1) =
        min (magnitude.length / blanker.window - 1) (magnitude.length / blanker.window - 1) := by omega
    rw [levelTo, levelTo, same]

/-- A segment of a buffer is one of the stream it is cut from. -/
theorem segmentLevel_cut {magnitude : List K} {from_ upto j : Nat}
    (whole : (from_ + j + 1) * blanker.window ≤ upto) :
    blanker.segmentLevel ((magnitude.take upto).drop (from_ * blanker.window)) j =
      blanker.segmentLevel magnitude (from_ + j) := by
  have ends_ : (from_ + j) * blanker.window + blanker.window ≤ upto := by rwa [← Nat.succ_mul]
  have start : from_ * blanker.window + j * blanker.window = (from_ + j) * blanker.window := by ring
  rw [segmentLevel, segmentLevel, List.drop_drop, start, List.drop_take, List.take_take, min_eq_left (by omega)]

/-- A level of a buffer is one of the stream it is cut from: the buffer starts with it, or
a window of segments before the sample. -/
theorem levelTo_cut {magnitude : List K} {from_ upto i : Nat} (first : from_ ≤ i)
    (before : from_ = 0 ∨ from_ + blanker.segmentSpan / 2 ≤ i)
    (enough : from_ + blanker.segmentSpan ≤ upto / blanker.window) :
    blanker.levelTo ((magnitude.take upto).drop (from_ * blanker.window)) (upto / blanker.window - from_ - 1) (i - from_) =
      blanker.levelTo magnitude (upto / blanker.window - 1) i := by
  have wide : 0 < blanker.window := by have := blanker.widest; omega
  have odd := blanker.odd
  rw [levelTo, levelTo]
  congr 1
  refine List.map_congr_left fun k _ => ?_
  have shifted : from_ + min (min (i - from_) (upto / blanker.window - from_ - 1) + k - blanker.segmentSpan / 2)
      (upto / blanker.window - from_ - 1) =
      min (min i (upto / blanker.window - 1) + k - blanker.segmentSpan / 2) (upto / blanker.window - 1) := by
    omega
  have whole : (from_ + min (min (i - from_) (upto / blanker.window - from_ - 1) + k - blanker.segmentSpan / 2)
      (upto / blanker.window - from_ - 1) + 1) * blanker.window ≤ upto :=
    (Nat.le_div_iff_mul_le wide).mp (by omega)
  rw [blanker.segmentLevel_cut whole, shifted]

/-- The levels of a buffer, in the stream it is cut from. -/
theorem levels_cut {magnitude : List K} {from_ upto p : Nat} (present : upto ≤ magnitude.length)
    (start : from_ * blanker.window ≤ p) (inside : p < upto)
    (before : from_ = 0 ∨ from_ + blanker.segmentSpan / 2 ≤ p / blanker.window)
    (enough : from_ + blanker.segmentSpan ≤ upto / blanker.window) (two : from_ + 2 ≤ upto / blanker.window) :
    (blanker.levels ((magnitude.take upto).drop (from_ * blanker.window)))[p - from_ * blanker.window]? =
      some (blanker.levelTo magnitude (upto / blanker.window - 1) (p / blanker.window)) := by
  have wide : 0 < blanker.window := by have := blanker.widest; omega
  have length : ((magnitude.take upto).drop (from_ * blanker.window)).length = upto - from_ * blanker.window := by
    rw [List.length_drop, List.length_take, min_eq_left present]
  have segments (x : Nat) : (x - from_ * blanker.window) / blanker.window = x / blanker.window - from_ := by
    rw [Nat.mul_comm]
    exact Nat.sub_mul_div ..
  have fits {count : Nat} (h : from_ + count ≤ upto / blanker.window) : count * blanker.window ≤ upto - from_ * blanker.window :=
    (Nat.le_div_iff_mul_le wide).mp (by rw [segments]; omega)
  rw [blanker.levels_get (by rw [length]; exact fits two) (by rw [length]; exact fits enough) (by omega), length, segments,
    segments, blanker.levelTo_cut ((Nat.le_div_iff_mul_le wide).mpr start) before enough]

/-- A level whose window of segments is there does not change any more. -/
theorem levelTo_settled {magnitude : List K} {last last' i : Nat} (there : i + blanker.segmentSpan / 2 ≤ last)
    (there' : i + blanker.segmentSpan / 2 ≤ last') : blanker.levelTo magnitude last i = blanker.levelTo magnitude last' i := by
  have odd := blanker.odd
  rw [levelTo, levelTo]
  congr 1
  refine List.map_congr_left fun k inside => ?_
  have := List.mem_range.mp inside
  congr 1
  omega

theorem levels_length (magnitude : List K) : (blanker.levels magnitude).length = magnitude.length := by
  have fits := Nat.div_mul_le_self magnitude.length (min blanker.window magnitude.length)
  simp only [levels]
  split
  · exact List.length_replicate
  · rw [List.length_append, List.length_replicate, length_flatMap_replicate, medianFilter_length, perSegment_length]
    omega

/-- What a sample of the stream comes to, judged as far as segment `last` is there. -/
def judged (norm : Sample K → K) (stream : List (Sample K)) (last p : Nat) : Option (Sample K) :=
  stream[p]?.map fun sample =>
    (blanker.judge norm sample (blanker.levelTo (stream.map norm) last (p / blanker.window) / rayleighMedian * sqrt2)).1

theorem envelopeRms_length (samples : List (Sample K)) : (blanker.envelopeRms norm samples).length = samples.length := by
  unfold envelopeRms
  split
  · rename_i none_
    simp [none_]
  · rw [List.length_map, levels_length, List.length_map]

theorem process_length (samples : List (Sample K)) : (blanker.process norm samples).1.length = samples.length := by
  rw [process, List.unzip_eq_map, List.length_map, List.length_zipWith, envelopeRms_length, min_self]

variable (norm) in
/-- Each sample is judged against some envelope. -/
theorem process_get {samples : List (Sample K)} {p : Nat} (inside : p < samples.length) :
    ∃ sample level, samples[p]? = some sample ∧ (blanker.levels (samples.map norm))[p]? = some level ∧
      (blanker.process norm samples).1[p]? = some (blanker.judge norm sample (level / rayleighMedian * sqrt2)).1 := by
  have some_ : samples ≠ [] := List.ne_nil_of_length_pos (by omega)
  have levelled : p < (blanker.levels (samples.map norm)).length := by rwa [levels_length, List.length_map]
  refine ⟨samples[p], (blanker.levels (samples.map norm))[p], List.getElem?_eq_getElem inside,
    List.getElem?_eq_getElem levelled, ?_⟩
  simp only [process, List.unzip_eq_map, List.getElem?_map, List.getElem?_zipWith, envelopeRms, if_neg some_,
    List.getElem?_eq_getElem inside, List.getElem?_eq_getElem levelled, Option.map_some]

variable (norm) in
/-- A buffer blanked, in the stream it is cut from. -/
theorem process_cut {stream : List (Sample K)} {from_ upto p : Nat} (present : upto ≤ stream.length)
    (start : from_ * blanker.window ≤ p) (inside : p < upto)
    (before : from_ = 0 ∨ from_ + blanker.segmentSpan / 2 ≤ p / blanker.window)
    (enough : from_ + blanker.segmentSpan ≤ upto / blanker.window) (two : from_ + 2 ≤ upto / blanker.window) :
    (blanker.process norm ((stream.take upto).drop (from_ * blanker.window))).1[p - from_ * blanker.window]? =
      blanker.judged norm stream (upto / blanker.window - 1) p := by
  have length : ((stream.take upto).drop (from_ * blanker.window)).length = upto - from_ * blanker.window := by
    rw [List.length_drop, List.length_take, min_eq_left present]
  have place : p - from_ * blanker.window < ((stream.take upto).drop (from_ * blanker.window)).length := by omega
  obtain ⟨sample, level, here, levelled, is⟩ := blanker.process_get norm place
  rw [List.map_drop, List.map_take, blanker.levels_cut (by rwa [List.length_map]) start inside before enough two] at levelled
  rw [List.getElem?_drop, Nat.add_sub_cancel' start, List.getElem?_take_of_lt inside] at here
  rw [is, judged, here, ← Option.some.inj levelled]
  rfl

/-- Samples whose windows are there come to the same, however much of the stream follows. -/
theorem judged_settled {stream : List (Sample K)} {last last' p : Nat}
    (there : p / blanker.window + blanker.segmentSpan / 2 ≤ last)
    (there' : p / blanker.window + blanker.segmentSpan / 2 ≤ last') :
    blanker.judged norm stream last p = blanker.judged norm stream last' p := by
  rw [judged, judged, blanker.levelTo_settled there there']

end NoiseBlanker

end AetherHF.Phy
