import AetherHF.Base.Recent
import AetherHF.Phy.Acquisition
import AetherHF.Phy.Receiver

/-! The streaming receiver whole: the rolling buffer, the bank's rows kept beside it, the
search of what is new, the frames pending until their last sample is in, the tone floor,
and what is then dropped. -/
namespace AetherHF.Phy.Rolling

open Recent

variable {K M T ρ δ : Type} [Field K] [LinearOrder K]

/-- Which family a demodulated frame is of, and where it was found; `soft`, what the
demodulator makes of it. -/
inductive Received (K ρ δ : Type) where
  | ofdm (sync : FrameSync K) (soft : δ)
  | tone (sync : ToneSync ρ) (soft : δ)

def Received.start : Received K ρ δ → Nat
  | .ofdm sync _ => sync.start
  | .tone sync _ => sync.start

/-- One decoded frame, with the payload unless its check failed. -/
structure DecodedFrame (K ρ δ : Type) where
  payload : Option (List UInt8)
  frame : Received K ρ δ

namespace DecodedFrame

variable (decoded : DecodedFrame K ρ δ)

def ok : Bool := decoded.payload.isSome

/-- With the position of the stream for the one of the buffer. -/
def placedOfdm (sync : FrameSync K) : DecodedFrame K ρ δ :=
  match decoded.frame with
  | .ofdm _ soft => { decoded with frame := .ofdm sync soft }
  | .tone _ _ => decoded

def placedTone (sync : ToneSync ρ) : DecodedFrame K ρ δ :=
  match decoded.frame with
  | .ofdm _ _ => decoded
  | .tone _ soft => { decoded with frame := .tone sync soft }

end DecodedFrame

/-- The detectors and demodulators behind a receiver. A start found is in the samples it is
looked for in. -/
structure Modem (K M T ρ δ : Type) where
  air : AirInterface
  norm : Sample K → K
  sqrt : K → K
  /-- One position's result, from its reference window and that window's normalisation. -/
  bankRow : List (Sample K) → K → BankRow K
  detectWith : List (Sample K) → List (BankRow K) → Nat → List (Acquisition K)
  detectWith_inside : ∀ region output most, ∀ a ∈ detectWith region output most, a.sync.start < region.length
  decodeSync : M → List (Sample K) → FrameSync K → M × Option (DecodedFrame K ρ δ)
  decodeTone : M → List (Sample K) → ToneSync ρ → M × Option (DecodedFrame K ρ δ)
  toneFeed : T → List (Sample K) → Nat → T × List (ToneSync ρ)
  toneFeed_inside : ∀ tone buffer start, ∀ sync ∈ (toneFeed tone buffer start).2,
    start ≤ sync.start ∧ sync.start < start + buffer.length
  /-- Tone frames announced and not yet final. -/
  arriving : T → List (ToneArrival K)

def segmentLen : Nat := 8
def trustedConfidence : ℚ := 13 / 10
def maxFramesPerSearch : Nat := 8
def doneMemory : Nat := 20
def toneKeepExtra : Nat := 4000
def announceThreshold : ℚ := 48 / 10

namespace Modem

variable (m : Modem K M T ρ δ)

def symbol : Nat := m.air.params.symbolSamples
def fftOffset : Nat := m.air.params.fftOffset

/-- Length of the waveform the bank correlates against: two symbols, in whole segments. -/
def referenceLen : Nat := 2 * m.symbol / segmentLen * segmentLen

/-- How far a search goes back behind what is already searched. -/
def streamLookback : Nat := (preambleSymbols + 1) * m.symbol

/-- Samples at the end of a known frame's span in which a candidate is not inside it. -/
def endGuard : Nat := m.symbol / 2

/-- What the transform's window reaches past a frame's last sample. -/
def margin : Nat := m.fftOffset + m.symbol

/-- Samples always kept for the tone floor. -/
def toneKeep : Nat := ((m.air.toneData.map ToneKind.samples).max?).getD 0 + toneKeepExtra

/-- How far above its threshold acquisition saw a frame. -/
def detectConfidence (sync : FrameSync K) : K :=
  sync.timingPeak / max (m.air.acquisitionThreshold : K) (((10 ^ 12 : ℕ) : K)⁻¹)

/-- The detector of a bank, as the receiver calls it. -/
def ofDetector (det : FrameDetector K) (m : Modem K M T ρ δ) : Modem K M T ρ δ :=
  { m with
    air := det.air
    detectWith := det.detectWith
    detectWith_inside := by
      intro region output most a found
      have usable := FrameDetector.usable_of_mem_detectWith found
      have positive : 0 < det.period := by
        rw [FrameDetector.period]
        cases det.air <;> decide
      unfold FrameDetector.Usable at usable
      omega }

end Modem

/-- A frame acquisition has found whose payload has not fully arrived. -/
structure PendingFrame (K : Type) where
  start : Nat
  /-- One past its last sample. -/
  end_ : Nat
  detectConfidence : K
  tone : Bool
  control : Bool

/-- An OFDM frame located in the stream. -/
structure Pending (K : Type) where
  sync : FrameSync K
  /-- One past its last sample. -/
  end_ : Nat

/-- A frame known to the stream, as the span test sees it. -/
structure Known (K : Type) where
  start : Nat
  end_ : Nat
  decoded : Bool
  confidence : K

/-- Feed it baseband, take frames out. -/
structure StreamingReceiver (m : Modem K M T ρ δ) where
  modem : M
  blanker : Option (StreamingBlanker K)
  band : Fir K (Sample K)
  buffer : List (Sample K)
  bufferStart : Nat
  searched : Nat
  pending : List (Pending K)
  done : List (Known K)
  announced : List Nat
  fresh : List (PendingFrame K)
  maxBuffer : Nat
  /-- The tone floor's longest frame fits, whatever was asked. -/
  roomy : m.toneKeep ≤ maxBuffer
  /-- The bank's row for every position from `bufferStart`. -/
  rows : List (BankRow K)
  tone : T
  framesDecoded : Nat

namespace StreamingReceiver

variable {m : Modem K M T ρ δ}

/-- A receiver with a buffer of `asked` samples, or as many as the tone floor needs. -/
def new (m : Modem K M T ρ δ) (modem : M) (tone : T) (blanker : Option (NoiseBlanker K)) (band : Fir K (Sample K))
    (asked : Nat) : StreamingReceiver m where
  modem
  blanker := blanker.map .new
  band
  buffer := []
  bufferStart := 0
  searched := 0
  pending := []
  done := []
  announced := []
  fresh := []
  maxBuffer := max asked m.toneKeep
  roomy := le_max_right ..
  rows := []
  tone
  framesDecoded := 0

variable (r : StreamingReceiver m)

/-- Total samples that have entered the filtered stream. -/
def samplesSeen : Nat := r.bufferStart + r.buffer.length

/-- Frames found since the last call. -/
def takePreambles : StreamingReceiver m × List (PendingFrame K) := ({ r with fresh := [] }, r.fresh)

/-! #### The bank's rows -/

def power (samples : List (Sample K)) : K := (samples.map fun s => s.1 * s.1 + s.2 * s.2).sum

/-- The normalisation floor of a buffer. -/
def floor (m : Modem K M T ρ δ) (buffer : List (Sample K)) : K :=
  ((1000 : ℕ) : K)⁻¹ * m.sqrt (power buffer / ((max buffer.length 1 : ℕ) : K)) * m.sqrt (m.referenceLen : K)

/-- The bank's row of a reference window. -/
def rowOf (m : Modem K M T ρ δ) (floor : K) (window : List (Sample K)) : BankRow K :=
  m.bankRow window (max (m.sqrt (max (power window) ((10 ^ 30 : ℕ) : K)⁻¹)) floor)

/-- Rows pushed until that of `last` is there. -/
def fillRows (floor : K) (last : Nat) (rows : List (BankRow K)) : Option (List (BankRow K)) :=
  if r.bufferStart + rows.length ≤ last then do
    let window ← checkedSlice r.buffer rows.length (rows.length + m.referenceLen)
    fillRows floor last (rows ++ [rowOf m floor window])
  else some rows
termination_by last + 1 - (r.bufferStart + rows.length)
decreasing_by simp; omega

/-- The row of every position whose reference window has arrived and that has none yet. -/
def extendRows : Option (StreamingReceiver m) :=
  if r.samplesSeen < m.referenceLen then some r
  else
    -- the last position whose reference window is complete
    let last := r.samplesSeen - m.referenceLen
    if last < r.bufferStart + r.rows.length then some r
    else (r.fillRows (floor m r.buffer) last r.rows).map fun rows => { r with rows }

/-! #### What a known frame hides -/

/-- From a symbol before a known frame to half a symbol before its end. -/
def inside (m : Modem K M T ρ δ) (start : Nat) (known : Known K) : Bool :=
  known.start - m.symbol < start && start + m.endGuard < known.end_

def known (m : Modem K M T ρ δ) (p : Pending K) : Known K := ⟨p.sync.start, p.end_, false, m.detectConfidence p.sync⟩

/-- A frame is one already known, or starts inside one that hides it. -/
def hidden (frame : Pending K) : Bool :=
  let start := frame.sync.start
  let around := (r.pending.map (known m) ++ r.done).filter (inside m start)
  if around.isEmpty then false
  else if m.detectConfidence frame.sync < (trustedConfidence : K) then true
  else if around.any fun k => (start - k.start) + (k.start - start) < m.symbol then true
  else around.any fun k => k.decoded || (trustedConfidence : K) ≤ k.confidence

/-- A frame about to be decoded starts inside one that decoded. -/
def insideDecoded (start : Nat) : Bool := r.done.any fun d => d.decoded && inside m start d

/-- Report a frame, once per start. -/
def announce (frame : PendingFrame K) : StreamingReceiver m :=
  if frame.start ∈ r.announced then r
  else { r with announced := remember doneMemory r.announced frame.start, fresh := r.fresh ++ [frame] }

/-! #### The search -/

/-- An acquisition `base` samples into the stream. -/
def absolute (m : Modem K M T ρ δ) (acquisition : Acquisition K) (base : Nat) : Pending K :=
  let start := acquisition.sync.start + base
  ⟨{ acquisition.sync with start }, start + (m.air.layoutFor acquisition.sync.frameType).samples⟩

/-- A frame found: pending and announced, unless one already known hides it. -/
def consider (base : Nat) (acquisition : Acquisition K) : StreamingReceiver m :=
  let frame := absolute m acquisition base
  if r.hidden frame then r
  else
    { r with pending := r.pending ++ [frame] }.announce
      { start := frame.sync.start
        end_ := frame.end_
        detectConfidence := m.detectConfidence frame.sync
        tone := false
        control := frame.sync.frameType = FrameType.control }

def searchStart : Nat := max r.bufferStart (r.searched - m.streamLookback)

/-- The frames a search from `base` found taken in, and the stream searched but for the lookback. -/
def takeIn (base : Nat) (found : List (Acquisition K)) : StreamingReceiver m :=
  let r' := found.foldl (fun r' acquisition => r'.consider base acquisition) r
  { r' with searched := max r'.searched (r'.samplesSeen - m.streamLookback) }

/-- Look for frames from the start of the search on, where there are four symbols. -/
def look : Option (StreamingReceiver m) := do
  let offset ← checkedSub r.searchStart r.bufferStart
  if r.buffer.length < offset + 4 * m.symbol then return r
  let region ← checkedSlice r.buffer offset r.buffer.length
  -- the bank over exactly this region
  let positions := region.length - m.referenceLen + 1
  let output := (r.rows.drop offset).take positions
  return r.takeIn r.searchStart (m.detectWith region output maxFramesPerSearch)

/-- Search what nothing has looked at yet. -/
def search : Option (StreamingReceiver m) := do
  let r ← r.extendRows
  r.look

/-! #### Frames taken -/

/-- Decode a frame whose samples are all in, and remember it. -/
def takeFrame (frame : Pending K) : Option (StreamingReceiver m × List (DecodedFrame K ρ δ)) := do
  let it := known m frame
  -- taken beside a weak frame that has since decoded: not a frame
  if r.insideDecoded it.start then return ({ r with done := remember doneMemory r.done it }, [])
  let start ← checkedSub frame.sync.start r.bufferStart
  match m.decodeSync r.modem r.buffer { frame.sync with start } with
  | (modem, none) => return ({ r with modem, done := remember doneMemory r.done it }, [])
  | (modem, some decoded) =>
    let done := remember doneMemory r.done { it with decoded := decoded.ok }
    return ({ r with modem, done, framesDecoded := r.framesDecoded + 1 }, [decoded.placedOfdm frame.sync])

/-- The frames pending one after another: what is decoded, and those still pending. -/
def harvestEach (seen : Nat) (r : StreamingReceiver m) :
    List (Pending K) → Option (StreamingReceiver m × List (DecodedFrame K ρ δ) × List (Pending K))
  | [] => some (r, [], [])
  | frame :: rest =>
    if seen < frame.end_ + m.margin then do
      let (r, out, still) ← harvestEach seen r rest
      return (r, out, frame :: still)
    else do
      let (r, decoded) ← r.takeFrame frame
      let (r, out, still) ← harvestEach seen r rest
      return (r, decoded ++ out, still)

def byStart (pending : List (Pending K)) : List (Pending K) :=
  pending.insertionSort fun p q => p.sync.start ≤ q.sync.start

/-- Decode every frame pending whose samples have all arrived. -/
def harvest : Option (StreamingReceiver m × List (DecodedFrame K ρ δ)) := do
  let (r, out, still) ← harvestEach r.samplesSeen { r with pending := [] } (byStart r.pending)
  return ({ r with pending := still }, out)

/-- Decode the tone frames now final. -/
def takeTones (r : StreamingReceiver m) : List (ToneSync ρ) → Option (StreamingReceiver m × List (DecodedFrame K ρ δ))
  | [] => some (r, [])
  | sync :: rest => do
    let start ← checkedSub sync.start r.bufferStart
    match m.decodeTone r.modem r.buffer { sync with start } with
    | (modem, none) => takeTones { r with modem } rest
    | (modem, some decoded) =>
      let (r, out) ← takeTones { r with modem, framesDecoded := r.framesDecoded + 1 } rest
      return (r, decoded.placedTone sync :: out)

/-- The tone floor on the same stream. -/
def toneFloor : Option (StreamingReceiver m × List (DecodedFrame K ρ δ)) := do
  let (tone, found) := m.toneFeed r.tone r.buffer r.bufferStart
  let (r, out) ← { r with tone }.takeTones found
  let announced := (m.arriving r.tone).foldl (fun r arrival => r.announce
    { start := arrival.start
      end_ := arrival.end_
      detectConfidence := arrival.statistic / (announceThreshold : K)
      tone := true
      control := arrival.kind.control }) r
  return (announced, out)

/-! #### What is dropped -/

/-- The first sample still needed. -/
def keep : Nat :=
  let searched := r.searched - m.streamLookback
  let needed := match (r.pending.map fun p => p.sync.start).min? with
    | some start => min start searched
    | none => searched
  max (max (min needed (r.samplesSeen - m.toneKeep)) (r.samplesSeen - r.maxBuffer)) r.bufferStart

/-- Drop what nothing still needs. -/
def trim : Option (StreamingReceiver m) := do
  let drop ← checkedSub r.keep r.bufferStart
  if drop = 0 then return r
  let buffer ← checkedSlice r.buffer drop r.buffer.length
  let rows ← checkedSlice r.rows (min drop r.rows.length) r.rows.length
  return { r with buffer, rows, bufferStart := r.bufferStart + drop }

/-! #### Feeding -/

/-- A block blanked, filtered and appended. -/
def enter (block : List (Sample K)) : Option (StreamingReceiver m) := do
  let (blanker, blanked) ← match r.blanker with
    | none => some (none, block)
    | some blanker => (blanker.process m.norm block).map fun done => (some done.2, done.1)
  let (band, filtered) := r.band.process blanked
  return { r with blanker, band, buffer := r.buffer ++ filtered }

end StreamingReceiver

/-- A receiver through one call of `feed`. -/
structure Pass (m : Modem K M T ρ δ) where
  before : StreamingReceiver m
  entered : StreamingReceiver m
  searched : StreamingReceiver m
  harvested : StreamingReceiver m
  toned : StreamingReceiver m
  after : StreamingReceiver m
  out : List (DecodedFrame K ρ δ)

namespace StreamingReceiver

variable {m : Modem K M T ρ δ} (r : StreamingReceiver m)

def pass (block : List (Sample K)) : Option (Pass m) := do
  let entered ← r.enter block
  let searched ← entered.search
  let (harvested, out) ← searched.harvest
  let (toned, more) ← harvested.toneFloor
  let after ← toned.trim
  let out := (out ++ more).insertionSort fun a b => a.frame.start ≤ b.frame.start
  return { before := r, entered, searched, harvested, toned, after, out }

/-- Feed a block, and take out whatever finished, in the order the frames start. -/
def feed (block : List (Sample K)) : Option (StreamingReceiver m × List (DecodedFrame K ρ δ)) :=
  (r.pass block).map fun pass => (pass.after, pass.out)

inductive Call (K : Type) where
  | feed (block : List (Sample K))
  | takePreambles

/-- Calls one after another: what the receiver went through in each that fed it. -/
def passes (r : StreamingReceiver m) : List (Call K) → Option (List (Pass m))
  | [] => some []
  | .takePreambles :: rest => passes r.takePreambles.1 rest
  | .feed block :: rest => do
    let pass ← r.pass block
    let later ← passes pass.after rest
    return pass :: later

end StreamingReceiver

end AetherHF.Phy.Rolling
