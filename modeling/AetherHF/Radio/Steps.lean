import AetherHF.Radio.Playback

/-! The station's steps: its clients' commands, the passes of its run loop, and giving up where
the radio or the card fails. -/
namespace AetherHF.Radio

open Link (TxFrame Input)
open Regulatory (Policy AirOccupancy)

/-- The engine's calls that clients and settings make; the others the station makes itself. -/
def asked : Input → Bool
  | .txDone .. | .txCutUnread .. | .txDropped .. | .txDelayed .. | .tick .. | .frame .. | .preamble .. | .drain | .abort =>
    false
  | _ => true

/-- A call of the engine's that starts an exchange. -/
def startsOne : Input → Bool
  | .connect .. | .probe .. => true
  | _ => false

namespace Station

section
variable {P : Type} (s : Station P)

/-! ### The station's own transmissions -/

def put (next : Outgoing) : Station P := { s with pending := s.pending ++ [next] }

def idle : Bool := s.engine.state = .idle

/-- A beacon's frame, unless it may not go now or one waits already. -/
def beacon (frame : TxFrame) : Station P :=
  if s.config.answerOnly || s.config.control = some .automatic || !s.idle || s.pending.any Outgoing.beacon then s
  else s.put (.frames [frame])

def keyTest (seconds : ℚ) : Station P :=
  if !s.idle || seconds < 1 / 5 || 5 < seconds then s else s.put (.audio (silence (s.samplesIn seconds)) true false)

/-- A test transmission waits for nothing: it is refused where the channel is not clear. -/
def refusesTest (w : Surroundings) : Bool :=
  !s.idle || s.config.waitForClear && (!w.settled || !s.channelClear w s.now)

def tune (w : Surroundings) (seconds : ℚ) (samples : List ℚ) : Station P :=
  if s.refusesTest w || seconds < 1 / 2 || 10 < seconds then s else s.put (.audio samples false true)

def driveGapS : ℚ := 5

/-- Bursts with as much silence between them. -/
def driveBursts (burst : List TxFrame) : Nat → List Outgoing
  | 0 => []
  | 1 => [.drive burst]
  | n + 2 => .drive burst :: .pause driveGapS none :: driveBursts burst (n + 1)

def setDrive (w : Surroundings) (bursts perBurst : Nat) (frame : TxFrame) : Station P :=
  if s.refusesTest w || bursts = 0 || 10 < bursts then s
  else (driveBursts (.replicate perBurst frame) bursts).foldl (fun (s : Station P) next => s.put next) s

def operatorTest : Outgoing → Bool
  | .audio _ _ tone => tone
  | .drive _ | .pause .. => true
  | _ => false

/-- An operator's test cut short, playing or queued. -/
def tuneStop : Station P :=
  let s := { s with pending := s.pending.filter fun next => !operatorTest next }
  if s.playingTest then { s.flushed true with playback := [], playingTest := false } else s

/-! ### What the card says -/

/-- The card's clock and its latency. -/
def readClock (played : Nat) (latency : Option ℚ) : Station P :=
  let s := { s with
    clock := { s.clock with devicePlayed := some played }
    captureLag := s.captureLag.read (played / s.config.audioRate) s.now }
  match latency with
  | none => s
  | some seconds =>
    if 0 ≤ seconds && seconds < 1 then { s with deviceLatencyS := some seconds }.tellEngineLatency else s

/-- Where the card drains, and from where on it holds the transmission just keyed to its limit. -/
def drainsAt (at_ : Nat) : Station P :=
  { s with clock := { s.clock with
    drainsAt := some (s.clock.drainsAt.getD at_)
    onset := none
    guard_ := match s.clock.onset with
      | some onset => some ⟨at_ - onset.handed + onset.lead, onset.by_⟩
      | none => s.clock.guard_ } }

/-- A render of the engine's took this long of the card's clock. -/
def renderTook (samples : Nat) : Station P :=
  { s with latency := { s.latency with
    render := s.latency.render.push (samples / s.config.audioRate) } }.tellEngineLatency

def renders (w : Surroundings) (took : Nat) : Station P :=
  let (link, s) := s.renderPending w
  if link then s.renderTook took else s

end

end Station

/-! ### Steps -/

inductive Step where
  | call (input : Input) (asked : asked input = true)
  | abort
  | beacon (frame : TxFrame)
  | keyTest (seconds : ℚ)
  | tune (w : Surroundings) (seconds : ℚ) (samples : List ℚ)
  | setDrive (w : Surroundings) (bursts perBurst : Nat) (frame : TxFrame)
  | tuneStop
  | sendDatagram (request : DatagramRequest)
  | clearDatagrams (reason : String)
  | takeReports
  | configure (config : StationConfig) (policy : Policy) (occupancy : Option AirOccupancy)
  | readCard (played : Nat) (latency : Option ℚ) (droppedLate : Bool)
  /-- Audio the card's queue lost. -/
  | skip (samples : Nat)
  | capture (w : Surroundings) (block : Station.Block)
  /-- The card stopped while the radio was keyed. -/
  | stall
  | takeFlush
  | renderPending (w : Surroundings) (took : Nat)
  | playback (w : Surroundings) (count : Nat)
  | drainsAt (at_ : Nat)

namespace Station

variable {P : Type} [Ptt P] [Libm]

def step (s : Station P) : Step → Station P
  | .call input _ =>
    if s.config.answerOnly && startsOne input then s else { s with engine := s.engine.handle input }.pump
  | .abort => s.abort
  | .beacon frame => s.beacon frame
  | .keyTest seconds => s.keyTest seconds
  | .tune w seconds samples => s.tune w seconds samples
  | .setDrive w bursts perBurst frame => s.setDrive w bursts perBurst frame
  | .tuneStop => s.tuneStop
  | .sendDatagram request => (s.sendDatagram request).2
  | .clearDatagrams reason => s.clearDatagrams reason
  | .takeReports => s.takeReports.2
  | .configure config policy occupancy => { s with config, policy, occupancy }
  | .readCard played latency droppedLate =>
    let s := s.readClock played latency
    if droppedLate then orAbandon s.cardDroppedLate else s
  | .skip samples => { s with audioSeen := s.audioSeen + samples }
  | .capture w block => orAbandon (s.capture w block)
  | .stall => s.abandonTx.2
  | .takeFlush => { s with clock := { s.clock with flushDevice := false } }
  | .renderPending w took => s.renders w took
  | .playback w count => orAbandon (s.playbackInto w count)
  | .drainsAt at_ => s.drainsAt at_

def run (s : Station P) (steps : List Step) : Station P := steps.foldl step s

end Station

end AetherHF.Radio
