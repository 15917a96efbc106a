import AetherHF.Daemon.Capture
import AetherHF.Link.Datagram
import AetherHF.Link.DatagramAir
import AetherHF.Link.Granted.Inputs
import AetherHF.Regulatory.Ceiling
import AetherHF.Radio.Ptt
import AetherHF.Radio.Reserve

/-! A station's way to the transmitter: what waits in the queue, what is rendered, what is on
the air, and what it asked of the radio, the rules, the card and the link engine. -/
namespace AetherHF.Radio

open Link (TxFrame Engine Transmit)
open Link.Datagram (Reassembler)
open Regulatory (Policy Situation Transmission Authorization Edges Direction AirOccupancy ControlMode)

/-! ### Transmissions -/

/-- When a transmission may radiate, and where its parts lie in its audio and on the air. -/
structure KeyWindow where
  notBefore : Option ℚ := none
  notAfter : Option ℚ := none
  /-- It carries a closing identifier counted as sent. -/
  identifier : Bool := false
  /-- Samples from the first to the end of its last frame. -/
  framesSamples : Nat := 0
  /-- Samples after the last frame before the tail. -/
  trailingSamples : Nat := 0
  /-- Where its last frame ends on the air if it plays whole. -/
  wholeEnd : Option ℚ := none
  headerSamples : Option (Nat × Nat) := none
  headerOnAir : Option (ℚ × ℚ) := none
  slotless : Bool := false
  deriving DecidableEq

/-- How far out a header must be for the other station to have read it. -/
def headerUndecodableShare : ℚ := 2 / 5

/-- Cut before any frame of it could be read. -/
def KeyWindow.cutUnread (window : KeyWindow) (radiatedUntil : ℚ) : Bool :=
  window.headerOnAir.any fun header => radiatedUntil < header.1 + headerUndecodableShare * (header.2 - header.1)

/-- A transmission of the link engine's, as it handed it over. -/
structure LinkTx where
  frames : List TxFrame
  window : KeyWindow
  identifierS : ℚ
  listenFirst : Bool
  deriving DecidableEq

/-- Something waiting to be transmitted. -/
inductive Outgoing where
  | link (tx : LinkTx)
  /-- Frames of the station's own: a beacon. -/
  | frames (frames : List TxFrame)
  /-- A drive-setting burst. -/
  | drive (frames : List TxFrame)
  | pause (seconds : ℚ) (untilS : Option ℚ)
  /-- The Morse identifier on its own. -/
  | identifier
  /-- A burst of a KISS client's datagram. -/
  | datagram (frames : List TxFrame) (reference : Option Text) (last : Bool)
  | audio (samples : List ℚ) (silent tone : Bool)
  deriving DecidableEq

/-- A call, a probe, an acceptance or a probe's answer among the frames. -/
def setsUpContact (frames : List TxFrame) : Bool :=
  frames.any fun frame => frame.container = .data && match Link.decodeData frame.payload with
    | .ok (header, _) =>
      header.kind = .connectReq || header.kind = .connectAck || header.kind = .probe || header.kind = .probeAck
    | .error _ => false

/-- A call or a probe among the frames, which waits for a clear channel. -/
def startsAnExchange (frames : List TxFrame) : Bool :=
  frames.any fun frame => frame.container = .data && match Link.decodeData frame.payload with
    | .ok (header, _) => header.kind = .connectReq || header.kind = .probe
    | .error _ => false

/-- One data frame, a beacon's. -/
def isBeacon : List TxFrame → Bool
  | [frame] => frame.container = .data && match Link.decodeData frame.payload with
    | .ok (header, _) => header.kind = .beacon
    | .error _ => false
  | _ => false

namespace Outgoing

def isLink : Outgoing → Bool
  | .link _ => true
  | _ => false

def isDatagram : Outgoing → Bool
  | .datagram .. => true
  | _ => false

def link? : Outgoing → Option LinkTx
  | .link tx => some tx
  | _ => none

/-- The station's own: neither the engine's nor a datagram. -/
def own (next : Outgoing) : Bool := !next.isLink && !next.isDatagram

def beacon : Outgoing → Bool
  | .frames burst => isBeacon burst
  | _ => false

/-- It belongs to an exchange under way, or has had its own channel access. -/
def inTurn : Outgoing → Bool
  | .link tx => !tx.listenFirst && !startsAnExchange tx.frames
  | .audio _ silent _ => silent
  | .datagram .. => true
  | _ => false

/-- An identifier on its own. -/
def alone : Outgoing → Bool
  | .identifier => true
  | .link tx => tx.listenFirst
  | _ => false

def outsideEngine : Outgoing → Bool
  | .frames _ | .datagram .. => true
  | _ => false

/-- A burst that is not its datagram's last. -/
def earlier : Outgoing → Bool
  | .datagram _ _ last => !last
  | _ => false

end Outgoing

/-! ### What it asks of the others -/

/-- What a frame occupies. -/
def frameEdges (air : AirOccupancy) (frame : TxFrame) : Except String Edges :=
  match frame.container with
  | .data => match air.rungs[frame.mode]? with
    | some rung => .ok rung.edges
    | none => .error s!"rung {frame.mode} is not measured"
  | .control => .ok (air.control frame.floor)

/-- Data, in edges that hold all the frames occupy. -/
structure Spans (air : AirOccupancy) (frames : List TxFrame) (transmission : Transmission) : Prop where
  kind : transmission.kind = .data
  edges : ∀ frame ∈ frames, ∃ edges, frameEdges air frame = .ok edges ∧ edges ≤ transmission.audio

/-- The transmission is what goes out: its kind, and no narrower. -/
def Describes (air : AirOccupancy) (transmission : Transmission) : Outgoing → Prop
  | .link tx => if tx.frames.isEmpty then transmission.kind = .cw else Spans air tx.frames transmission
  | .frames frames | .drive frames | .datagram frames _ _ => Spans air frames transmission
  | .identifier => transmission.kind = .cw
  | .audio _ silent _ => transmission.kind = if silent then .nothing else .test
  | .pause .. => False

/-- The gate's leave: the rules, as they stood, allow what goes out. -/
structure Leave where
  next : Outgoing
  policy : Policy
  situation : Situation
  air : AirOccupancy
  transmission : Transmission
  authorization : Authorization
  describes : Describes air transmission next
  given : policy.authorize situation transmission = .ok authorization

/-- What became of a transmission of the engine's. -/
inductive Outcome where
  | done
  | dropped
  | cutUnread
  deriving DecidableEq, Repr

/-- What the station asks of the radio, the rules, the card, the engine and its clients. -/
inductive Entry where
  /-- The gate's leave for the transmission at the head of the queue. -/
  | judged (leave : Leave)
  /-- The transmission at the head of the queue dropped by the gate. -/
  | refused (next : Outgoing)
  /-- Its audio, waiting to be keyed. -/
  | rendered (next : Outgoing) (audio : List ℚ)
  /-- Nothing could be rendered of it. -/
  | unrendered (next : Outgoing)
  /-- The radio keyed; where the transmission starts radiating, and the latest it may. -/
  | keyed (radiatesAt : ℚ) (latest : Option ℚ)
  | keyRefused
  | released (obeyed : Bool)
  /-- Samples handed to the sound card, at unit level. -/
  | played (samples : List ℚ)
  /-- A transmission the engine handed over. -/
  | handed (tx : LinkTx)
  /-- The engine told of one of its transmissions: one never rendered, or the one rendered last. -/
  | answered (unrendered : Option LinkTx) (outcome : Outcome)
  /-- The watchdog's trip; whether an operator's test was marked playing, and whether a datagram went with it. -/
  | tripped (test datagram : Bool)
  /-- The card dropped the transmission running, or a datagram's. -/
  | cardDropped (datagram : Bool)
  /-- A client's datagram taken, by its reference. -/
  | accepted (reference : Text)
  | reported (reference : Text) (sent : Bool)
  /-- The datagrams waiting dropped, a burst of one still queued or not. -/
  | cleared (waiting : Bool)

/-! ### Datagrams -/

/-- The most datagrams waiting. -/
def datagramQueue : Nat := 16

/-- The most joined datagrams, and the most reports, held between two takes. -/
def maxUntaken : Nat := 256

def reassemblyTimeoutS : ℚ := 120

structure DatagramRequest where
  frameType : UInt8
  frame : Bytes
  reference : Option Text
  rung : Option Nat
  waitForClear : Bool
  persistence : ℚ
  slotS : ℚ

structure DatagramQueued where
  queued : Nat
  fragments : Nat
  bursts : Nat
  airS : ℚ
  rung : Nat
  deriving DecidableEq, Repr

inductive DatagramRefusal where
  | queueFull
  | invalid (detail : String)
  | notAllowed (why : String)
  deriving DecidableEq, Repr

structure ReceivedDatagram where
  source : Text
  frameType : UInt8
  frame : Bytes
  snrDb : ℚ
  rung : Nat
  deriving DecidableEq

structure DatagramReport where
  reference : Text
  sent : Bool
  reason : Option String
  deriving DecidableEq, Repr

/-- A datagram waiting: its remaining bursts, and how it may reach the channel. -/
structure QueuedDatagram where
  reference : Option Text
  bursts : List (List TxFrame)
  waitForClear : Bool
  persistence : ℚ
  slotS : ℚ
  deriving DecidableEq

structure Datagrams where
  queue : List QueuedDatagram := []
  number : UInt8 := 0
  reassembler : Reassembler := Reassembler.new reassemblyTimeoutS 8
  received : List ReceivedDatagram := []
  reports : List DatagramReport := []
  /-- The reference of the datagram whose last burst is on the air. -/
  onAir : Option (Option Text) := none
  /-- When the channel may next be tried; any time before the first try. -/
  nextTryS : Option ℚ := none
  rng : UInt64
  sent : Nat := 0
  heard : Nat := 0

def Datagrams.new (seed : UInt64) : Datagrams := { rng := (seed ^^^ 0x9E3779B97F4A7C15) ||| 1 }

/-! ### The station -/

/-- The latest moment a transmission's first radiating sample may leave the card. -/
structure Onset where
  by_ : ℚ
  handed : Nat
  lead : Nat
  deriving DecidableEq

structure OnsetGuard where
  at_ : Nat
  by_ : ℚ
  deriving DecidableEq

/-- The sound card's playback clock, and where the transmission running ends on it. -/
structure PlaybackClock where
  devicePlayed : Option Nat := none
  drainsAt : Option Nat := none
  cutShort : Bool := false
  flushDevice : Bool := false
  onset : Option Onset := none
  guard_ : Option OnsetGuard := none
  deriving DecidableEq

/-- Samples handed over: where the card drains is not known again until it says. -/
def PlaybackClock.handOver (clock : PlaybackClock) (count : Nat) : PlaybackClock :=
  if count = 0 then clock
  else { clock with drainsAt := none, onset := clock.onset.map fun onset => { onset with handed := onset.handed + count } }

structure StationConfig where
  audioRate : Nat
  fsBaseband : ℚ
  keyLeadS : ℚ
  keyTailS : ℚ
  playbackLeadS : ℚ
  maxKeyS : ℚ
  maxBurstS : Option ℚ
  txLevel : ℚ
  waitForClear : Bool
  answerOnly : Bool
  keyedByHost : Bool
  control : Option ControlMode

/-- The contact a call or a probe set up, not yet identified. -/
structure IdentifierState where
  setupAt : Option ℚ := none
  setupCall : Text := []

structure Station (P : Type) where
  config : StationConfig
  engine : Engine
  ptt : PttWatchdog P
  policy : Policy
  /-- What this air's transmissions occupy, where it is measured. -/
  occupancy : Option AirOccupancy
  sessionDirection : Option Direction := none
  captureLag : Daemon.CaptureLag ℚ := .default_
  reservation : Reservation := {}
  /-- Audio waiting for the sound card, at unit level. -/
  playback : List ℚ := []
  /-- Samples captured. -/
  audioSeen : Nat := 0
  transmitting : Bool := false
  /-- What is playing is an operator's test, which may be cut short. -/
  playingTest : Bool := false
  /-- When a transmission held back was last told of to the engine. -/
  heldSince : Option ℚ := none
  /-- When the one held back now was first held. -/
  heldFrom : Option ℚ := none
  heldTotalS : ℚ := 0
  lastHoldS : ℚ := 0
  deafUntil : ℚ := 0
  deviceLatencyS : Option ℚ := none
  latency : KeyingLatency := {}
  clock : PlaybackClock := {}
  pending : List Outgoing := []
  /-- The engine's transmission rendered or on the air. -/
  keying : Option KeyWindow := none
  /-- Leave to key what is rendered. -/
  authorized : Option Leave := none
  datagrams : Datagrams
  identifier : IdentifierState := {}
  /-- What it asked of the others, in order. -/
  log : List Entry := []

/-- What is around the station as it acts. -/
structure Surroundings where
  /-- The detector has learned the floor. -/
  settled : Bool
  busy : Bool
  /-- What the radio and the settings say, asked again where the reading is old, and not. -/
  situation : Situation
  recent : Situation
  /-- The audio of a burst, its first frame's share of the baseband, and the baseband's length. -/
  modulate : List TxFrame → Option (List ℚ × Nat × Nat)
  sounds : ∀ frames audio first length, modulate frames = some (audio, first, length) → audio ≠ []
  /-- The Morse identifier of a callsign that sends one: its tone and its audio. -/
  cw : Text → Option (ℚ × List ℚ)
  /-- The host program keys the radio and none is attached. -/
  unkeyable : Bool
  /-- How long the radio took to key, and the wall clock once it had. -/
  keyWaitedS : ℚ
  keyedAt : ℚ

namespace Station

variable {P : Type} (s : Station P)

/-- The tail is long enough for the card to play out what it holds. -/
def new (config : StationConfig) (engine : Engine) (ptt : P) (policy : Policy) (occupancy : Option AirOccupancy)
    (seed : UInt64) : Station P where
  config := { config with keyTailS := config.keyTailS + config.playbackLeadS }
  engine
  ptt := { inner := ptt, maxKeyS := config.maxKeyS }
  policy
  occupancy
  datagrams := .new seed

def tell (entry : Entry) : Station P := { s with log := s.log ++ [entry] }

/-- The station's clock: the audio it has processed. -/
def now : ℚ := s.audioSeen / s.config.audioRate

/-- Whole samples in so many seconds. -/
def samplesIn (seconds : ℚ) : Nat := ⌊seconds * s.config.audioRate⌋.toNat

def deviceLatencyMarginS : ℚ := 3 / 100
def deviceLatencyMinS : ℚ := 1 / 20

/-- The silence the key stays down for after the last sample. -/
def tailS : ℚ :=
  let lead := s.config.playbackLeadS
  match s.deviceLatencyS with
  | some latency =>
    if 0 < lead then s.config.keyTailS - lead + min (max (latency + deviceLatencyMarginS) (min deviceLatencyMinS lead)) lead
    else s.config.keyTailS
  | none => s.config.keyTailS

/-- From the key to the first sample radiated. -/
def radiationLatencyS : ℚ := s.config.keyLeadS + s.deviceLatencyS.getD s.config.playbackLeadS

/-- From deciding a transmission to its radiation. -/
def engineLatencyS : ℚ := s.radiationLatencyS + s.latency.typicalS

def tellEngineLatency : Station P := { s with engine := s.engine.setTxLatencyS s.engineLatencyS }

/-- The card has played past the last sample handed over. -/
def caughtUp : Bool :=
  match s.clock.devicePlayed with
  | some played => s.clock.drainsAt.any (· ≤ played)
  | none => true

def linksPending : List LinkTx := s.pending.filterMap Outgoing.link?

end Station

end AetherHF.Radio
