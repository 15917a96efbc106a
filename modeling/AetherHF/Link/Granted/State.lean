import Mathlib.Data.Fin.VecNotation
import Mathlib.Data.List.Sort
import AetherHF.Base.Keyed
import AetherHF.Link.Phy
import AetherHF.Link.Rate

/-! The data the granted-slots link engine keeps. `Engine` groups the source's
fields as its own comments do: the closing identifier, the call and the probe, the
two directions of a session, the measurement, the leaving, the master's side and
the slave's. -/
namespace AetherHF.Link

/-! ### What the engine hands its driver -/

/-- Where a session is. -/
inductive State where
  | idle | connecting | connected | disconnecting
  deriving DecidableEq, Repr

/-- A session is up. -/
def State.inSession : State → Bool
  | .connected | .disconnecting => true
  | .idle | .connecting => false

/-- Which side of a session this station is. -/
inductive Role where
  | none
  /-- The caller: the only station that keys on its own initiative. -/
  | master
  /-- The called station: it keys only in slots the master grants. -/
  | slave
  deriving DecidableEq, Repr

inductive Timer where
  | link | connect | probe | proceed | answer | leave | ident
  deriving DecidableEq, Repr

/-- What set a transmission going: the entry point, or the timer that fired. -/
inductive Cause where
  | start | connect | probe | disconnect | abort | send | measure | frame
  | timer (t : Timer)
  deriving DecidableEq, Repr

/-- Why a session ended. -/
inductive Reason where
  | aborted | closedNoDiscAck | noResponse | linkTimeout | noAnswer | peerDisconnected | closed
  | calledAgain (src : Text)
  deriving DecidableEq, Repr

namespace Reason

/-- The reasons that leave the other station in the session. -/
def leftUnheard : Reason → Bool
  | .aborted | .closedNoDiscAck | .noResponse | .linkTimeout => true
  | .noAnswer | .peerDisconnected | .closed | .calledAgain _ => false

def isCalledAgain : Reason → Bool
  | .calledAgain _ => true
  | _ => false

end Reason

/-- What a closing master says it waited for. -/
inductive LeaveWhy where
  | asked (seconds : ℚ)
  | patience (seconds : ℚ)
  deriving DecidableEq

inductive Event where
  | connected (remote : Text) (role : Role)
  | role (role : Role)
  | disconnected (reason : Reason)
  | otherBandwidth (src : Text) (caps : UInt8) (calls : Bool)
  | otherVersion (src : Text) (version : UInt8) (calls : Bool)
  | probed (src : Text) (snrDb : ℚ) (caps : UInt8)
  | probeAnswer (src : Text) (theirsDb : Option ℚ) (hereDb : ℚ) (caps : UInt8)
  | probeUnanswered (remote : Text)
  | left (ownBytes theirFrames : Nat) (why : LeaveWhy)
  deriving DecidableEq

/-- Frames to go out back to back, and when they may. -/
structure Transmit where
  frames : List TxFrame
  durationS : ℚ
  cause : Cause
  /-- The latest its radiation may start: the keying gate drops it past this. -/
  notAfter : Option ℚ
  /-- The earliest its radiation may start: the slot it answers in. -/
  notBefore : Option ℚ
  /-- The closing identifier after the frames, or alone; 0 for none. -/
  identifierS : ℚ
  /-- Made outside every slot: the daemon waits for a clear channel. -/
  listenFirst : Bool
  deriving DecidableEq

inductive Action where
  | transmit (t : Transmit)
  /-- Payload bytes to the application, in order. -/
  | deliver (data : Bytes)
  | event (e : Event)
  deriving DecidableEq

structure ProbeResult where
  remote : Text
  heardThereDb : Option ℚ
  heardHereDb : ℚ
  bandwidthHz : Option Nat
  deriving DecidableEq

/-- One measurement: the frames sent at a rung and the other station's report of them. -/
structure LadderRung where
  mode : Nat
  frames : Nat
  decoded : Nat
  snrDb : Option ℚ
  deriving DecidableEq

/-! ### The protocol's constants and the station's configuration -/

def gridToleranceS : ℚ := 15 / 100
/-- Data frames in one transmission. -/
def maxData : Nat := 6
/-- The redundancy versions a copy decodes alone in on every rung. -/
def readableAloneRvs : List Nat := [0]
/-- The redundancy version of each transmission of a block. -/
def rvSequence : List Nat := [0, 0, 2, 3]

structure GrantConfig where
  maxDataFrames : Nat := maxData
  maxBurstS : Option ℚ := none
  maxRetries : Nat := 8
  connectRetries : Nat := 8
  discRetries : Nat := 3
  discPatienceExchanges : ℚ := 2
  discPatienceS : ℚ := 20
  discDrainS : ℚ := 60
  leaveRepeats : Nat := 3
  floorAnswerMarginDb : ℚ := 12
  answerFloorMarginDb : ℚ := 3
  familyReadings : Nat := 3
  linkTimeoutS : ℚ := 45
  linkTimeoutExchanges : ℚ := 4
  initialMode : Nat := 0
  maxMode : Nat := 19
  ceiling : Option Nat := none
  silenceStep : Nat := 2
  maxCombines : Nat := 4
  reencodeEarlyAfter : Nat := 2
  reencodeHopelessDb : ℚ := 1
  capabilities : UInt8 := 0
  firstGrant : Nat := 2
  windowDoublings : Nat := 1
  elide : Bool := true
  headerAboveRecommendation : Bool := true
  turnaroundS : ℚ := 0
  identifierS : ℚ := 0
  identifiers : Keyed Text ℚ := []
  answerGapS : ℚ := 0
  decodeBudgetS : ByFamily := ⟨3 / 10, 3 / 10⟩
  keyS : ℚ := 35 / 100
  guardS : ℚ := 5 / 100
  slackS : ℚ := 35 / 100
  levelsS : Fin 4 → ℚ := ![0, 1 / 2, 1, 2]
  openWindowS : ByFamily := ⟨10, 4⟩
  keepaliveS : ℚ := 10
  silenceLevelsAfter : Nat := 2
  floorAnswerMemory : Nat := 4
  holdUnknown : Bool := true
  onTimeToLower : Nat := 4
  needEaseAfter : Nat := 6

/-- Counters a caller can show an operator. -/
structure GrantStats where
  framesSent : Nat := 0
  framesResent : Nat := 0
  framesReceived : Nat := 0
  framesFailed : Nat := 0
  harqRescues : Nat := 0
  bytesDelivered : Nat := 0
  bytesAcked : Nat := 0
  probesSent : Nat := 0
  probesAnswered : Nat := 0
  probeReplies : Nat := 0
  framesReencoded : Nat := 0
  framesSplit : Nat := 0
  framesMissed : Nat := 0
  leftAnswered : Nat := 0
  transmissions : Nat := 0
  headersElided : Nat := 0
  silentSlots : Nat := 0
  forfeits : Nat := 0
  dropped : Nat := 0
  deriving DecidableEq

/-! ### Records -/

/-- The engine's random draws: SplitMix64. -/
structure Draws where
  state : UInt64
  deriving DecidableEq

namespace Draws

def nextU64 (d : Draws) : UInt64 × Draws :=
  let state := d.state + 0x9E3779B97F4A7C15
  let z := (state ^^^ (state >>> 30)) * 0xBF58476D1CE4E5B9
  let z := (z ^^^ (z >>> 27)) * 0x94D049BB133111EB
  (z ^^^ (z >>> 31), ⟨state⟩)

/-- Uniform in [0, 1), from the top 53 bits. -/
def unit (d : Draws) : ℚ × Draws :=
  let (z, d) := d.nextU64
  (((z >>> 11).toNat : ℚ) / 2 ^ 53, d)

def uniform (d : Draws) (low high : ℚ) : ℚ × Draws :=
  let (u, d) := d.unit
  (low + (high - low) * u, d)

/-- Uniform in [0, n). -/
def below (d : Draws) (n : UInt64) : UInt64 × Draws :=
  let (z, d) := d.nextU64
  (z % n, d)

end Draws

structure TxRecord where
  seq : UInt8
  body : Bytes
  mode : Nat
  /-- The rung the block was cut at. -/
  origin : Nat
  txCount : Nat
  acked : Bool
  reencoded : Nat
  /-- Sent in a transmission whose answer went unheard. -/
  unknown : Bool
  /-- The body in pieces at `mode`; `none` for a frame sent whole. -/
  pieces : Option (List (Piece × Bytes))
  /-- How many times each piece has gone. -/
  pieceSends : List Nat
  deriving DecidableEq

namespace TxRecord

def sent (r : TxRecord) : Bool := r.txCount > 0 || r.reencoded > 0

/-- The frames it takes to send. -/
def frames (r : TxRecord) : Nat := (r.pieces.map List.length).getD 1

end TxRecord

/-- The pieces of one block heard so far, placed by their offsets. -/
structure Pieces where
  data : Bytes := []
  have_ : List Bool := []
  /-- The block's length, once its last piece is heard. -/
  total : Option Nat := none
  deriving DecidableEq

/-- `Vec::resize`. -/
def resize {α : Type*} (xs : List α) (n : Nat) (fill : α) : List α :=
  xs.take n ++ List.replicate (n - xs.length) fill

/-- Copy `xs` over the elements from `start` on. -/
def overwrite {α : Type*} (dst : List α) (start : Nat) (xs : List α) : List α :=
  dst.take start ++ xs ++ dst.drop (start + xs.length)

namespace Pieces

def place (p : Pieces) (offset : Nat) (piece : Bytes) (last : Bool) : Pieces :=
  let stop := offset + piece.length
  let data := if p.data.length < stop then resize p.data stop 0 else p.data
  let have_ := if p.data.length < stop then resize p.have_ stop false else p.have_
  { data := overwrite data offset piece
    have_ := overwrite have_ offset (List.replicate piece.length true)
    total := if last then some stop else p.total }

/-- The whole block, once every byte of it is heard. -/
def body (p : Pieces) : Option Bytes :=
  match p.total with
  | none => none
  | some total =>
    if p.have_.length ≥ total ∧ (p.have_.take total).all id then some (p.data.take total) else none

end Pieces

/-- What the engine keeps of a frame it was handed: everything but the decoding. -/
structure Heard where
  mode : Nat
  floor : Bool
  snrDb : ℚ
  trusted : Bool
  follows : Option Nat
  echo : Option ℚ
  tStart : ℚ
  tEnd : ℚ
  deriving DecidableEq

def Heard.of (f : SoftFrame) : Heard :=
  ⟨f.mode, f.floor, f.snrDb, f.trusted, f.follows, f.echo, f.tStart, f.tEnd⟩

structure RxRecord where
  frame : Heard
  slot : Nat
  payload : Option Bytes
  seq : Option UInt8
  combined : Bool
  deriving DecidableEq

/-- What the engine made of the last session data frame it was handed. -/
structure DataHeard where
  seq : Option UInt8
  combined : Bool
  rescued : Bool
  deriving DecidableEq

/-- What one of this station's control frames said it had received. -/
structure AckSnapshot where
  missing : List UInt8
  nextNew : UInt8
  deriving DecidableEq

/-- A set of families, never empty. -/
structure Families where
  ordinary : Bool
  floor : Bool
  some_ : (ordinary || floor) = true
  deriving DecidableEq

namespace Families

def of (floor : Bool) : Families := ⟨!floor, floor, by cases floor <;> rfl⟩

def both : Families := ⟨true, true, rfl⟩

def insert (s : Families) (floor : Bool) : Families :=
  ⟨s.ordinary || !floor, s.floor || floor, by cases floor <;> simp⟩

def contains (s : Families) (floor : Bool) : Bool := if floor then s.floor else s.ordinary

/-- The largest of `f` over the members. -/
def maxOf (s : Families) (f : Bool → ℚ) : ℚ :=
  if s.ordinary then if s.floor then max (f false) (f true) else f false else f true

end Families

inductive SlotKind where
  | header | disc | connect | probe | leave
  deriving DecidableEq, Repr

/-- A slot this station granted, and this station's wait for it. -/
structure Slot where
  id : Nat := 0
  kind : SlotKind
  /-- The longest the answering transmission may be, its identifier included. -/
  grantS : ℚ
  /-- The family of the granting transmission's last frame. -/
  lastFloor : Bool
  /-- Every family the answer, and what follows it, may be in. -/
  answerFloors : Families
  level : Nat := 0
  granterTurnaroundS : ℚ := 0
  openWindow : Bool := false
  /-- The granting transmission carried data. -/
  data : Bool := false
  granted : Nat := 0
  txEnd : ℚ := 0
  start : ℚ := 0
  endMax : ℚ := 0
  /-- `txEnd` is where the granting transmission really ended. -/
  final_ : Bool := false
  /-- A frame of the other station's, begun in the slot, decoded. -/
  heard : Bool := false
  statedEnd : Option ℚ := none
  statedFloor : Bool := false
  deriving DecidableEq

inductive AnswerKind where
  | ans | window | connectAck | probeAck | disc | discAck
  deriving DecidableEq, Repr

/-- A transmission this station owes in a slot it was granted. -/
structure Answer where
  what : AnswerKind
  start : ℚ
  notAfter : ℚ
  /-- The family of its control frame. -/
  floor : Bool
  session : UInt8 := 0
  /-- The end of the transmission it answers. -/
  anchor : ℚ := 0
  remote : Text := []
  snrDb : Option ℚ := none
  /-- Data time granted after the answer. -/
  roomS : ℚ := 0
  deriving DecidableEq

/-- When a transmission may radiate, and what goes after its frames. -/
structure Keying where
  notAfter : Option ℚ := none
  notBefore : Option ℚ := none
  identifierS : ℚ := 0
  listenFirst : Bool := false
  deriving DecidableEq

/-- An answer in its slot. -/
def Keying.answering (answer : Answer) (identifierS : ℚ) : Keying :=
  { notAfter := some answer.notAfter, notBefore := some answer.start, identifierS }

/-- The armed timers, in the order they were first armed. -/
abbrev Deadlines := List (Timer × ℚ)

namespace Deadlines

def get? (d : Deadlines) (timer : Timer) : Option ℚ := (d.find? fun p => p.1 = timer).map Prod.snd

def remove (d : Deadlines) (timer : Timer) : Deadlines := d.filter fun p => p.1 ≠ timer

/-- A timer armed again keeps its place. -/
def set (d : Deadlines) (timer : Timer) (at_ : ℚ) : Deadlines :=
  if d.any fun p => p.1 = timer then
    d.map fun p => if p.1 = timer then (timer, at_) else p
  else d ++ [(timer, at_)]

def armed (d : Deadlines) (timer : Timer) : Bool := (get? d timer).isSome

end Deadlines

/-- A transmission of this station's handed over and not yet done. -/
structure InFlight where
  /-- The slot it granted. -/
  granted : Option Nat
  /-- The closing identifier it carries behind a `DISC_ACK`. -/
  ident : ℚ
  measured : Bool
  deriving DecidableEq

/-- A session this station has left. -/
structure Left where
  session : UInt8
  /-- Until when its frames are answered. -/
  until_ : ℚ
  /-- The other station's DISC ended it. -/
  discHeard : Bool
  wasSlave : Bool
  deriving DecidableEq

/-! ### The engine -/

/-- Leaving a session, and the closing identifier. -/
structure Closing where
  left : Option Left := none
  leaveRepeats : Nat := 0
  /-- This station's closing identifier's length for the session. -/
  myIdentS : ℚ := 0
  /-- The closing identifier of an ended session, not yet handed over, or 0. -/
  idOwed : ℚ := 0
  /-- It goes on its own initiative: no slot could be had for it. -/
  idAlone : Bool := false
  idListen : Bool := false
  deriving DecidableEq

/-- The call and the probe. -/
structure Calling where
  callJitter : ℚ := 0
  probing : Option Text := none
  probeUnsent : Bool := false
  lastProbe : Option ProbeResult := none
  connectTries : Nat := 0
  deriving DecidableEq

/-- This station's data. -/
structure Sender where
  /-- What `send` was given and no frame carries yet. -/
  queue : Bytes := []
  pinned : Option Nat := none
  pinBody : Option Nat := none
  topAckedMode : Option Nat := none
  records : List TxRecord := []
  base : UInt8 := 0
  next : UInt8 := 0
  /-- Copies sent since the last acknowledgement: block, rung, air. -/
  sentCopies : List (UInt8 × Nat × ℚ) := []
  pieceBound : Option Nat := none
  answeredRung : Option Nat := none
  deriving DecidableEq

/-- Where a transmission's data frames are, as its opening control frame stated. -/
structure Grid where
  start : ℚ
  count : Nat
  floor : Bool
  deriving DecidableEq

/-- The other station's data. -/
structure Receiver where
  base : UInt8 := 0
  buf : Keyed UInt8 Bytes := []
  maxSeen : Option UInt8 := none
  /-- By block: a buffer, the copies combined into it, and their rung. -/
  harq : Keyed UInt8 (HarqBuffer × Nat × Nat) := []
  /-- Blocks in pieces, as far as they are heard. -/
  pieces : Keyed UInt8 Pieces := []
  /-- The frames heard of the transmission being received. -/
  rx : List RxRecord := []
  t0 : Option ℚ := none
  grid : Option Grid := none
  ackHistory : List AckSnapshot := []
  /-- The report of the other station's last measurement. -/
  measured : Option UInt16 := none
  /-- The transmission being received is a measurement. -/
  rxMeasure : Bool := false
  /-- A piece has decoded in the transmission being received. -/
  rxPieces : Bool := false
  lastRxMode : Option Nat := none
  missed : UInt8 := missedUnknown
  deriving DecidableEq

structure Measuring where
  /-- Asked for and not yet sent: rung and frames. -/
  ask : Option (Nat × Nat) := none
  /-- Sent and not yet reported: rung and the frames it went with. -/
  out : Option (Nat × Nat) := none
  /-- The measurement's answer came without its report. -/
  unheard : Bool := false
  /-- The measurement out is a repeat. -/
  again : Bool := false
  ladder : List LadderRung := []
  deriving DecidableEq

/-- What this station knows of the other. -/
structure Peer where
  snrDb : Option ℚ := none
  missed : Option UInt8 := none
  heardDb : Option ℚ := none
  heardRecent : List ℚ := []
  capabilities : UInt8 := 0
  turnaroundS : ℚ := 0
  identifierS : ℚ := 0
  heardAt : ℚ := 0
  endedSnrDb : Option ℚ := none
  deriving DecidableEq

structure Leaving where
  /-- The master read the slave's DISC. -/
  peerLeft : Bool := false
  discRequested : Bool := false
  discTries : Nat := 0
  patienceUntil : Option ℚ := none
  leaveSince : Option ℚ := none
  leaveDrainS : ℚ := 0
  deriving DecidableEq

structure MasterSide where
  levelAsked : Nat := 0
  silenceLevel : Nat := 0
  silent : Nat := 0
  recentSilent : List Bool := []
  answeredRun : Nat := 0
  slaveWant : Option Nat := none
  slaveLeaves : Bool := false
  slaveFloorOnly : Bool := false
  hdrFloor : Bool := true
  /-- Every family the slave may answer in when it has not read the header. -/
  possible : Families := .of true
  idleWindows : Nat := 0
  ackOwed : Bool := false
  peerLateS : ℚ := 0
  deriving DecidableEq

/-- An open window of the master's. -/
structure Window where
  start : ℚ
  stop : ℚ
  floor : Bool
  deriving DecidableEq

structure SlaveSide where
  /-- The header of the master transmission being received, if it was read. -/
  grant : Option GrantFrame := none
  grantFloor : Bool := false
  /-- Where that transmission ends: the slot's anchor. -/
  mEnd : Option ℚ := none
  mLastFloor : Bool := false
  /-- The end of the last master transmission answered or forfeited. -/
  answeredEnd : Option ℚ := none
  ansSticky : Bool := true
  needLevel : Nat := 0
  onTime : Nat := 0
  window : Option Window := none
  deriving DecidableEq

/-- The link engine of granted slots. -/
structure Engine where
  callsigns : List Text
  timing : PhyTiming
  config : GrantConfig
  stats : GrantStats := {}
  lastData : Option DataHeard := none
  rng : Draws
  myCall : Text
  remoteCall : Text := []
  state : State := .idle
  role : Role := .none
  session : UInt8 := 0
  now : ℚ := 0
  actions : List Action := []
  deadlines : Deadlines := []
  cause : Cause := .start
  /-- The slot this station granted last. -/
  slot : Option Slot := none
  nextSlotId : Nat := 0
  inFlight : List InFlight := []
  /-- Nothing this station starts on its own keys before this. -/
  holdUntil : ℚ := 0
  closing : Closing := {}
  calling : Calling := {}
  tx : Sender := {}
  rx : Receiver := {}
  measuring : Measuring := {}
  peer : Peer := {}
  leaving : Leaving := {}
  rate : RateController
  master : MasterSide := {}
  slave : SlaveSide := {}
  /-- The transmission owed in a granted slot. -/
  answer : Option Answer := none

end AetherHF.Link
