import Mathlib.Algebra.Order.Field.Basic
import Mathlib.Data.List.Sort

/-! The impulse blanker: a threshold for each sample, the median of medians of segments
around it, over whatever buffer it is handed. -/
namespace AetherHF.Phy

/-- A complex sample. -/
abbrev Sample (K : Type) := K × K

/-- What to do with a sample that exceeds the threshold. -/
inductive BlankMode where
  /-- Replace it with zero. -/
  | blank
  /-- Keep its phase and pull its magnitude down to the threshold. -/
  | clip
  deriving DecidableEq, Repr

/-- A part of a list, its bounds in range. -/
def slice {α : Type*} (l : List α) (start stop : Nat) (_ : start ≤ stop ∧ stop ≤ l.length) : List α :=
  (l.take stop).drop start

@[simp] theorem slice_length {α : Type*} {l : List α} {start stop : Nat} (h : start ≤ stop ∧ stop ≤ l.length) :
    (slice l start stop h).length = stop - start := by
  simp only [slice, List.length_drop, List.length_take]
  omega

variable {K : Type} [Field K] [LinearOrder K]

/-- `median(|x|) / sigma` of a complex Gaussian. -/
def rayleighMedian : K := 11774100225154747 / 10 ^ 16

/-- `SQRT_2`. -/
def sqrt2 : K := 14142135623730950488 / 10 ^ 19

/-- Median-referenced impulse blanker. -/
structure NoiseBlanker (K : Type) [Field K] [LinearOrder K] where
  thresholdSigma : K
  window : Nat
  segmentSpan : Nat
  mode : BlankMode
  positive : 0 < thresholdSigma
  widest : 3 ≤ window
  odd : segmentSpan % 2 = 1

/-- The mean of the two middle values when their count is even. -/
def median (values : List K) : K :=
  if h : values = [] then 0
  else
    let sorted := values.insertionSort (· ≤ ·)
    have inside : values.length / 2 < sorted.length := by
      rw [List.length_insertionSort]
      have := List.length_pos_iff.mpr h
      omega
    if values.length % 2 = 1 then sorted.get ⟨values.length / 2, inside⟩
    else (sorted.get ⟨values.length / 2 - 1, by omega⟩ + sorted.get ⟨values.length / 2, inside⟩) / 2

/-- A median filter with edge values extended, the extra sample of an even window on the
left. -/
def medianFilter (values : List K) (size : Nat) : List K :=
  if h : values = [] ∨ size ≤ 1 then values
  else
    let origin := size / 2
    let last := values.length - 1
    have inside (index : Nat) : min index last < values.length := by
      have := List.length_pos_iff.mpr (not_or.mp h).1
      omega
    (List.range values.length).map fun i =>
      median ((List.range size).map fun k => values.get ⟨min (i + k - origin) last, inside _⟩)

namespace NoiseBlanker

variable (blanker : NoiseBlanker K)

/-- Build a blanker; none for a threshold that is not positive. -/
def new (thresholdSigma : K) (window segmentSpan : Nat) (mode : BlankMode) : Option (NoiseBlanker K) :=
  if positive : 0 < thresholdSigma then
    some
      { thresholdSigma, window := max window 3, segmentSpan := max segmentSpan 1 ||| 1, mode, positive
        widest := le_max_right ..
        odd := by simp }
  else none

/-- Longest burst the reference can survive. -/
def robustSpanSamples : Nat := blanker.window * blanker.segmentSpan / 2

/-- The segment medians of a buffer. -/
def perSegment (window : Nat) (magnitude : List K) : List K :=
  List.ofFn fun s : Fin (magnitude.length / window) =>
    median (slice magnitude (s * window) ((s + 1) * window)
      ⟨Nat.mul_le_mul_right _ (Nat.le_succ _), (Nat.mul_le_mul_right _ s.isLt).trans (Nat.div_mul_le_self ..)⟩)

/-- The level at each sample: of its segment, and of the last segment in the tail. -/
def levels (magnitude : List K) : List K :=
  let n := magnitude.length
  let window := min blanker.window n
  let segments := n / window
  if segments < 2 then List.replicate n (median magnitude)
  else
    let smoothed := medianFilter (perSegment window magnitude) (min blanker.segmentSpan segments)
    let level := smoothed.flatMap fun value => List.replicate window value
    level ++ List.replicate (n - level.length) (level.getLastD 0)

variable (norm : Sample K → K)

/-- Local RMS envelope. -/
def envelopeRms (samples : List (Sample K)) : List K :=
  if samples = [] then []
  else (blanker.levels (samples.map norm)).map fun level => level / rayleighMedian * sqrt2

/-- One sample against the envelope there, and whether it was removed. -/
def judge (sample : Sample K) (rms : K) : Sample K × Bool :=
  let threshold := blanker.thresholdSigma * rms
  let magnitude := norm sample
  if threshold > 0 ∧ magnitude > threshold then
    (match blanker.mode with
      | .blank => (0, 0)
      | .clip =>
        let scale := threshold / magnitude
        (sample.1 * scale, sample.2 * scale), true)
  else (sample, false)

/-- Remove impulses from a block: the samples, and where one was removed. -/
def process (samples : List (Sample K)) : List (Sample K) × List Bool :=
  (List.zipWith (blanker.judge norm) samples (blanker.envelopeRms norm samples)).unzip

end NoiseBlanker

/-- A `NoiseBlanker` for a live stream. -/
structure StreamingBlanker (K : Type) [Field K] [LinearOrder K] where
  blanker : NoiseBlanker K
  /-- Retained samples: history, then what is about to be emitted, then the lookahead. -/
  pending : List (Sample K)
  /-- How far into `pending` has already been emitted. -/
  emitted : Nat
  span : Nat
  history : Nat
  /-- Stream index of the first retained. -/
  absolute : Nat

/-- A subtraction; none when it underflows. -/
def checkedSub (a b : Nat) : Option Nat := if b ≤ a then some (a - b) else none

/-- A part of a list; none when a bound is out of range. -/
def checkedSlice {α : Type*} (l : List α) (start stop : Nat) : Option (List α) :=
  if h : start ≤ stop ∧ stop ≤ l.length then some (slice l start stop h) else none

namespace StreamingBlanker

def new (blanker : NoiseBlanker K) : StreamingBlanker K :=
  let span := max blanker.robustSpanSamples 1
  { blanker, pending := [], emitted := 0, span, history := 4 * span, absolute := 0 }

def latencySamples (s : StreamingBlanker K) : Nat := s.span

variable (norm : Sample K → K) (s : StreamingBlanker K)

/-- Feed a block; the samples whose windows are now complete. -/
def process (block : List (Sample K)) : Option (List (Sample K) × StreamingBlanker K) := do
  let pending := s.pending ++ block
  if pending.length < s.emitted + 2 * s.span then
    return ([], { s with pending })
  let result := s.blanker.process norm pending
  let emitTo ← checkedSub pending.length s.span
  let out ← checkedSlice result.1 s.emitted emitTo
  let wanted := emitTo - s.history
  -- down to a segment boundary of the stream
  let keepFrom ← checkedSub wanted ((s.absolute + wanted) % s.blanker.window)
  let pending ← checkedSlice pending keepFrom pending.length
  let emitted ← checkedSub emitTo keepFrom
  return (out, { s with pending, emitted, absolute := s.absolute + keepFrom })

/-- Emit everything still held back. -/
def flush : Option (List (Sample K) × StreamingBlanker K) := do
  if s.pending.length ≤ s.emitted then
    return ([], { s with pending := [], emitted := 0 })
  let result := s.blanker.process norm s.pending
  let out ← checkedSlice result.1 s.emitted result.1.length
  return (out, { s with pending := [], emitted := 0, absolute := s.absolute + s.pending.length })

end StreamingBlanker

end AetherHF.Phy
