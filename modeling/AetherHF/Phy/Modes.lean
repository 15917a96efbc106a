import AetherHF.Fec.Coverage
import AetherHF.Fec.Crc

/-! Frame layouts, the mode tables and the tone kinds: what a frame of each carries, and that a transmission of
it at redundancy version 0 is one the decoder completes. -/
namespace AetherHF.Phy.Coding

open Fec

inductive Modulation where
  | bpsk | qpsk | psk8 | qam16 | qam64
  deriving DecidableEq, Repr

def Modulation.bitsPerSymbol : Modulation → Nat
  | bpsk => 1
  | qpsk => 2
  | psk8 => 3
  | qam16 => 4
  | qam64 => 6

def Modulation.order (modulation : Modulation) : Nat := 1 <<< modulation.bitsPerSymbol

inductive Bandwidth where
  | narrow500 | wide2300 | wide2750
  deriving DecidableEq, Repr

def Bandwidth.hz : Bandwidth → Nat
  | narrow500 => 500
  | wide2300 => 2300
  | wide2750 => 2750

/-- What of the numerology says how many carriers a symbol has, and what they carry. -/
structure WaveformParams where
  bandwidth : Bandwidth
  fsBaseband : ℚ
  fftSize : Nat
  pilotCarrierSpacing : Nat
  pilotSymbolPeriod : Nat
  deriving DecidableEq

def wide2300 : WaveformParams := ⟨.wide2300, 8000, 200, 4, 8⟩

def narrow500 : WaveformParams := { wide2300 with bandwidth := .narrow500 }

namespace WaveformParams

variable (p : WaveformParams)

def subcarrierSpacingHz : ℚ := p.fsBaseband / p.fftSize

/-- Active carriers that fit inside the nominal bandwidth. -/
def nCarriers : Nat := (p.bandwidth.hz / p.subcarrierSpacingHz).floor.toNat

/-- Comb pilots, and the upper edge if it is not on the grid. -/
def nPilotCarriers : Nat :=
  let last := p.nCarriers - 1
  last / p.pilotCarrierSpacing + 1 + if last % p.pilotCarrierSpacing ≠ 0 then 1 else 0

def nDataCarriers : Nat := p.nCarriers - p.nPilotCarriers

end WaveformParams

/-- How many symbols a frame carries, and of which waveform. -/
structure FrameLayout where
  name : String
  dataSymbols : Nat
  waveform : WaveformParams
  deriving DecidableEq

def long : FrameLayout := ⟨"long", 32, wide2300⟩
def short : FrameLayout := ⟨"short", 12, wide2300⟩
def narrowLong : FrameLayout := ⟨"long", 32, narrow500⟩
def narrowShort : FrameLayout := ⟨"short", 12, narrow500⟩

namespace FrameLayout

variable (layout : FrameLayout)

/-- The data symbols that are full pilot symbols. -/
def pilotSymbolIndices : List Nat :=
  if layout.waveform.pilotSymbolPeriod = 0 then []
  else (List.range layout.dataSymbols).filter fun i => i % layout.waveform.pilotSymbolPeriod = 0

def nPayloadSymbols : Nat := layout.dataSymbols - layout.pilotSymbolIndices.length

/-- The slots of a frame that carry coded bits. -/
def qamSymbols : Nat := layout.nPayloadSymbols * layout.waveform.nDataCarriers

end FrameLayout

structure Mode where
  index : Nat
  modulation : Modulation
  rateNum : Nat
  rateDen : Nat
  deriving DecidableEq

namespace Mode

variable (mode : Mode) (layout : FrameLayout)

def codeRate : ℚ := mode.rateNum / mode.rateDen

def codedBits : Nat := layout.qamSymbols * mode.modulation.bitsPerSymbol

/-- The payload and its check, rounded down to whole bytes. -/
def infoBits : Nat :=
  let raw := mode.codedBits layout * mode.rateNum / mode.rateDen
  (raw - crc24a.width) / 8 * 8 + crc24a.width

def payloadBytes : Nat := (mode.infoBits layout - crc24a.width) / 8

def baseGraph : Nat := selectBaseGraph (mode.payloadBytes layout * 8) mode.codeRate

/-- Zero where the source panics: a block that does not fit its graph. -/
def liftingSize : Nat := (selectLiftingSize (mode.baseGraph layout) (mode.infoBits layout)).toOption.getD 0

end Mode

/-- The mode table, most robust first. -/
def modes : List Mode := [
  ⟨0, .bpsk, 1, 5⟩, ⟨1, .bpsk, 1, 3⟩, ⟨2, .bpsk, 1, 2⟩, ⟨3, .qpsk, 1, 3⟩, ⟨4, .qpsk, 1, 2⟩, ⟨5, .qpsk, 2, 3⟩,
  ⟨6, .psk8, 1, 2⟩, ⟨7, .psk8, 2, 3⟩, ⟨8, .qam16, 1, 2⟩, ⟨9, .qam16, 2, 3⟩, ⟨10, .qam16, 3, 4⟩, ⟨11, .qam64, 2, 3⟩,
  ⟨12, .qam64, 3, 4⟩, ⟨13, .qam64, 5, 6⟩]

def narrowModes : List Mode := [
  ⟨0, .qpsk, 1, 10⟩, ⟨1, .qpsk, 1, 5⟩, ⟨2, .qpsk, 1, 3⟩, ⟨3, .qpsk, 1, 2⟩, ⟨4, .qpsk, 2, 3⟩, ⟨5, .psk8, 1, 2⟩,
  ⟨6, .psk8, 2, 3⟩, ⟨7, .qam16, 1, 2⟩, ⟨8, .qam16, 2, 3⟩, ⟨9, .qam16, 3, 4⟩, ⟨10, .qam64, 2, 3⟩, ⟨11, .qam64, 3, 4⟩,
  ⟨12, .qam64, 5, 6⟩]

def controlMode : Mode := ⟨0, .bpsk, 1, 5⟩

def narrowControlMode : Mode := ⟨3, .qpsk, 1, 2⟩

/-- A tone kind, as its codec reads it. -/
structure ToneKind where
  name : String
  payloadBytes : Nat
  dataSymbols : Nat
  dataTones : Nat
  deriving DecidableEq

namespace ToneKind

def controlKind : ToneKind := ⟨"tone-control", 7, 56, 16⟩

def dataKinds : List ToneKind := [⟨"tone-24", 24, 110, 16⟩, ⟨"tone-36", 36, 110, 16⟩]

def fastKinds : List ToneKind := [⟨"tone50-51", 51, 220, 16⟩, ⟨"tone50-75", 75, 220, 16⟩, ⟨"tone100-105", 105, 440, 16⟩,
  ⟨"tone100-153", 153, 440, 16⟩]

variable (kind : ToneKind)

/-- The bits a data symbol carries: of sixteen tones four, of four tones two. -/
def dataBits : Nat := Nat.log2 kind.dataTones

def infoBits : Nat := kind.payloadBytes * 8 + crc24a.width

def codedBits : Nat := kind.dataSymbols * kind.dataBits

def rate : ℚ := kind.infoBits / kind.codedBits

def baseGraph : Nat := selectBaseGraph (kind.payloadBytes * 8) kind.rate

end ToneKind

/-! ### The tables -/

/-- Every mode on the layout its data frames have, and the control modes on theirs. -/
def frames : List (Mode × FrameLayout) :=
  modes.map (·, long) ++ narrowModes.map (·, narrowLong) ++ [(controlMode, short), (narrowControlMode, narrowShort)]

/-- Graph, lifting size, information bits and coded bits of each. -/
def sizes : List (Nat × Nat × Nat × Nat) := [
  (2, 30, 232, 1176), (2, 52, 392, 1176), (2, 72, 584, 1176), (2, 80, 784, 2352), (2, 120, 1176, 2352),
  (2, 160, 1568, 2352), (2, 176, 1760, 3528), (2, 240, 2352, 3528), (2, 240, 2352, 4704), (2, 320, 3136, 4704),
  (1, 176, 3528, 4704), (1, 224, 4704, 7056), (1, 256, 5288, 7056), (1, 288, 5880, 7056), (2, 7, 40, 448),
  (2, 15, 88, 448), (2, 24, 144, 448), (2, 28, 224, 448), (2, 40, 296, 448), (2, 44, 336, 672), (2, 56, 448, 672),
  (2, 56, 448, 896), (2, 72, 592, 896), (1, 32, 672, 896), (2, 96, 896, 1344), (1, 48, 1008, 1344), (1, 52, 1120, 1344),
  (2, 14, 80, 420), (2, 14, 80, 160)]

theorem frames_sizes : (frames.map fun f => (f.1.baseGraph f.2, f.1.liftingSize f.2, f.1.infoBits f.2, f.1.codedBits f.2)) =
    sizes := by decide +kernel

theorem frames_recover : ∀ f ∈ frames, recovers (f.1.baseGraph f.2) (f.1.liftingSize f.2) (f.1.infoBits f.2)
    (f.1.codedBits f.2) = true := by
  have all : ∀ s ∈ sizes, recovers s.1 s.2.1 s.2.2.1 s.2.2.2 = true := by decide +kernel
  intro f member
  exact all _ (frames_sizes ▸ List.mem_map_of_mem member)

end AetherHF.Phy.Coding
