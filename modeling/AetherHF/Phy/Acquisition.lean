import Mathlib.Data.List.Sort
import AetherHF.Phy.Blanker
import AetherHF.Phy.ToneStream

/-! The two airs, and the preambles found in a buffer from the rows of a matched-filter
bank. -/
namespace AetherHF.Phy

/-! ### The airs -/

/-- OFDM numerology for one bandwidth. -/
structure WaveformParams where
  fftSize : Nat
  cpSamples : Nat
  taperSamples : Nat

namespace WaveformParams

variable (p : WaveformParams)

/-- Samples per transmitted symbol. -/
def symbolSamples : Nat := p.fftSize + p.cpSamples

/-- Where the transform's window starts inside a symbol. -/
def fftOffset : Nat := p.taperSamples + (p.cpSamples - p.taperSamples) / 2

end WaveformParams

def wide2300 : WaveformParams := ⟨200, 48, 8⟩
def narrow500 : WaveformParams := { wide2300 with }

inductive FrameType where
  | data
  | control
  deriving DecidableEq, Repr

def preambleSymbols : Nat := 2

structure FrameLayout where
  /-- Symbols after the preamble. -/
  dataSymbols : Nat
  waveform : WaveformParams
  preambleSymbols : Nat

namespace FrameLayout

variable (layout : FrameLayout)

def totalSymbols : Nat := layout.preambleSymbols + layout.dataSymbols

def samples : Nat := layout.totalSymbols * layout.waveform.symbolSamples

end FrameLayout

namespace ToneKind

/-- The tone floor's control frame. -/
def controlKind : ToneKind := ⟨56, 320⟩

def control (kind : ToneKind) : Bool := kind = controlKind

def dataKinds : List ToneKind := [⟨110, 320⟩, ⟨110, 320⟩]
def fastKinds : List ToneKind := [⟨220, 160⟩, ⟨220, 160⟩, ⟨440, 80⟩, ⟨440, 80⟩]
def quadKinds : List ToneKind := [⟨440, 80⟩, ⟨440, 80⟩]

end ToneKind

/-- A waveform with its layouts. -/
inductive AirInterface where
  | wide
  | narrow
  deriving DecidableEq, Repr

namespace AirInterface

def params : AirInterface → WaveformParams
  | wide => wide2300
  | narrow => narrow500

def long (air : AirInterface) : FrameLayout := ⟨32, air.params, preambleSymbols⟩

def short (air : AirInterface) : FrameLayout := ⟨12, air.params, preambleSymbols⟩

def acquisitionThreshold : AirInterface → ℚ
  | wide => 36 / 100
  | narrow => 56 / 100

/-- The middle kinds the ladder carries above the tone floor's own. -/
def middleTones : AirInterface → List ToneKind
  | wide => ToneKind.fastKinds
  | narrow => ToneKind.quadKinds

def toneData (air : AirInterface) : List ToneKind := ToneKind.dataKinds ++ air.middleTones

def layoutFor (air : AirInterface) : FrameType → FrameLayout
  | .data => air.long
  | .control => air.short

end AirInterface

/-! ### Preambles found -/

/-- Where a frame starts, and what its preamble told. -/
structure FrameSync (K : Type) where
  start : Nat
  cfoHz : K
  frameType : FrameType
  timingPeak : K
  typeConfidence : K

/-- What acquisition found. -/
structure Acquisition (K : Type) where
  sync : FrameSync K
  timingPeak : K
  typeConfidence : K
  coarseCfoHz : K

/-- One position's bank result: the winner's peak and offset, and the loser's peak. -/
structure BankRow (K : Type) where
  peak : K
  cfo : K
  other : K
  winner : FrameType

/-- Finds preambles in a buffer. -/
structure FrameDetector (K : Type) where
  air : AirInterface
  minTimingPeak : K
  maxCandidates : Nat
  fineCfo : List (Sample K) → Nat → FrameType → K

namespace FrameDetector

variable {K : Type} [Field K] [LinearOrder K] (det : FrameDetector K)

def period : Nat := det.air.params.symbolSamples
def minGap : Nat := 4 * det.period

/-- What is left when the places from `low` to before `high` are taken out. -/
def fill (eligible : List Bool) (low high : Nat) : List Bool :=
  eligible.zipIdx.map fun e => e.1 && !(low ≤ e.2 && e.2 < high)

/-- The last place of the highest peak among those eligible. -/
def highest (output : List (BankRow K)) (eligible : List Bool) : Option (Nat × BankRow K) :=
  (output.zip eligible).zipIdx.foldl (fun best e =>
    if e.1.2 then
      match best with
      | none => some (e.2, e.1.1)
      | some top => if top.2.peak ≤ e.1.1.peak then some (e.2, e.1.1) else some top
    else best) none

/-- Candidates examined one after another, the highest first. -/
def examine (samples : List (Sample K)) (output : List (BankRow K)) (maxFrames : Nat) :
    Nat → List Bool → List (Acquisition K) → List (Acquisition K)
  | 0, _, ordinary => ordinary
  | left + 1, eligible, ordinary =>
    if maxFrames ≤ ordinary.length then ordinary
    else
      match highest output eligible with
      | none => ordinary
      | some (start, row) =>
        let without := fill eligible (start - det.period) (min (start + det.period) eligible.length)
        -- an early sidelobe: the real peak is a symbol later
        if (output[start + det.period]?).any (fun later => row.peak < later.peak) then
          examine samples output maxFrames left without ordinary
        else if samples.length < start + 4 * det.period + det.air.params.fftOffset then
          examine samples output maxFrames left without ordinary
        else
          let confidence := row.peak / max row.other (((10 ^ 12 : ℕ) : K)⁻¹)
          let acquisition :=
            { sync := ⟨start, det.fineCfo samples start row.winner, row.winner, row.peak, confidence⟩
              timingPeak := row.peak
              typeConfidence := confidence
              coarseCfoHz := row.cfo }
          let span := (det.air.layoutFor row.winner).samples
          let eligible := fill eligible (start - det.minGap) (min (start + span) eligible.length)
          examine samples output maxFrames left eligible (ordinary ++ [acquisition])

/-- The frames of a buffer whose bank is already computed, in the order they start. -/
def detectWith (samples : List (Sample K)) (output : List (BankRow K)) (maxFrames : Nat) : List (Acquisition K) :=
  let eligible := output.map fun row => decide (det.minTimingPeak ≤ row.peak)
  -- never a peak until the statistic a symbol later exists
  let eligible := fill eligible (eligible.length - det.period) eligible.length
  (det.examine samples output maxFrames det.maxCandidates eligible []).insertionSort fun a b => a.sync.start ≤ b.sync.start

/-- A frame found has four symbols and the transform's offset after it. -/
def Usable (samples : List (Sample K)) (a : Acquisition K) : Prop :=
  a.sync.start + 4 * det.period + det.air.params.fftOffset ≤ samples.length

variable {det}

theorem usable_examine {samples : List (Sample K)} {output : List (BankRow K)} {maxFrames : Nat} (left : Nat)
    (eligible : List Bool) {ordinary : List (Acquisition K)} (so_far : ∀ a ∈ ordinary, det.Usable samples a) :
    ∀ a ∈ det.examine samples output maxFrames left eligible ordinary, det.Usable samples a := by
  induction left generalizing eligible ordinary with
  | zero => exact so_far
  | succ left ih =>
    intro a found
    rw [examine] at found
    split at found
    · exact so_far a found
    · split at found
      · exact so_far a found
      · split at found
        · exact ih _ so_far a found
        · split at found
          · exact ih _ so_far a found
          · rename_i fits
            refine ih _ ?_ a found
            intro b member
            rcases List.mem_append.mp member with earlier | here
            · exact so_far b earlier
            · rw [List.mem_singleton.mp here]
              exact Nat.not_lt.mp fits

/-- Every frame found lies in the buffer searched, with four symbols and the transform's
offset after its start. -/
theorem usable_of_mem_detectWith {samples : List (Sample K)} {output : List (BankRow K)} {maxFrames : Nat}
    {a : Acquisition K} (found : a ∈ det.detectWith samples output maxFrames) : det.Usable samples a := by
  have among := (List.mem_insertionSort _).mp found
  refine usable_examine det.maxCandidates _ ?_ a among
  intro b none_
  exact absurd none_ List.not_mem_nil

end FrameDetector

end AetherHF.Phy
