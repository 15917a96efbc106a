import AetherHF.Link.Granted.Answering

/-! The call and the probe, each way: a station calling and probing, and a station
called and probed. -/
namespace AetherHF.Link

/-- Why a command of the station's was not taken. -/
inductive Refused where
  | sessionRunning | inSession | probeOut | noCallsign | callsignUnpackable | notOurCallsign
  | modeOutsideTable | noBodyBytes | noFrames | airInUse | noCall
  deriving DecidableEq, Repr

def packs (call : Text) : Bool :=
  match packCallsign call with
  | .ok _ => true
  | .error _ => false

/-- Draws until one is not 0 in the control frame's seven bits. The source's loop has
no bound; this one stops at the generator's period. -/
def sessionFrom : Nat → Draws → UInt8 × Draws
  | 0, draws => (1, draws)
  | turns + 1, draws =>
    let (z, draws) := draws.below 255
    let session := (1 + z).toUInt8
    if session &&& 0x7F ≠ 0 then (session, draws) else sessionFrom turns draws

namespace Engine

variable (e : Engine)

/-! ### Calling and probing -/

def callingAs (asCall : Option Text) : Except Refused Engine :=
  match asCall with
  | none => .ok { e with myCall := e.callsigns.headD [] }
  | some call =>
    if Text.clean call ∈ e.callsigns then .ok { e with myCall := Text.clean call }
    else .error .notOurCallsign

def withSession (drawn : UInt8 × Draws) : Engine := { e with session := drawn.1, rng := drawn.2 }

/-- A number for a new session, drawn. -/
def numberSession : Engine := e.withSession (sessionFrom (2 ^ 64) e.rng)

/-- The body of a try of the call. -/
def callBody (level : Nat) : ConnectBody where
  src := e.myCall
  dst := e.remoteCall
  caps := withLevel e.config.capabilities (levelByte level)
  version := protocolVersion
  snrDb := none
  turnaroundS := e.config.turnaroundS
  identifierS := e.closing.myIdentS

/-- The slot a call or a probe grants its answer. -/
def openingSlot (kind : SlotKind) (mode level : Nat) (turnaround : ℚ) : Slot where
  kind
  grantS := e.families.maxOf e.robustFrameS
  lastFloor := e.timing.isFloor mode
  answerFloors := e.families
  level
  granterTurnaroundS := turnaround

def withTry (drawn : ℚ × Draws) : Engine :=
  { e with
    rng := drawn.2
    calling := { e.calling with connectTries := e.calling.connectTries + 1, callJitter := drawn.1 } }

/-- One try more, and how much later than its slot's end the next may come: a random
part of a floor frame per try. -/
def countTry : Engine :=
  e.withTry (e.rng.uniform 0 ((2 + e.calling.connectTries : ℕ) * e.robustFrameS true))

/-- A try of the call; the next once its slot can no longer be in use. -/
def sendConnect : Engine :=
  let level := e.callLevel
  match e.bodyFrame .connectReq e.session e.connectFloor (e.callBody level).encode with
  | none => e
  | some frame =>
    e.countTry.keyGranting (e.openingSlot .connect frame.mode level e.config.turnaroundS) [frame]

def retryConnect : Engine :=
  if e.state ≠ .connecting then e
  else if e.calling.connectTries ≥ e.config.connectRetries then e.endSession .noAnswer false
  else e.sendConnect

def probeLevel : Nat := e.levelFor (e.config.turnaroundS - e.budget true - e.config.keyS)

def probeBody (remote : Text) : ProbeBody where
  src := e.myCall
  dst := remote
  snrDb := none
  caps := withLevel e.config.capabilities (levelByte e.probeLevel)

def noteProbeSent : Engine := { e with calling := { e.calling with probeUnsent := false } }

/-- The probe goes on the tone floor; its level covers this station's turnaround. -/
def sendProbe : Engine :=
  match e.calling.probing with
  | none => e.noteProbeSent
  | some remote =>
    match e.bodyFrame .probe 0 true (e.probeBody remote).encode with
    | none => e.noteProbeSent
    | some frame => e.noteProbeSent.keyGranting (e.openingSlot .probe frame.mode e.probeLevel 0) [frame]

/-- What a call to `remote` does to an identifier still owed: the station called back
goes on in a new session; to another, the identifier goes first. -/
def settleIdentifier (remote : Text) : Engine :=
  if e.closing.idOwed > 0 ∧ remote = e.remoteCall then e.dropIdentifier
  else if e.closing.idOwed > 0 then e.arm .ident (max e.now e.holdUntil)
  else e

/-- Nothing stands in the way of a try of a call or a probe. -/
def clearToStart : Bool := e.now ≥ e.holdUntil - nano && !e.deadlines.armed .ident

def address (remote : Text) : Engine := { e with remoteCall := remote }

/-- A call begun under the number drawn. -/
def beginCall : Engine :=
  let e := ({ e with
    state := .connecting
    role := .none
    calling := { e.calling with connectTries := 0 }
    closing := { e.closing with left := none } }.disarm .leave).resetSession
  { e with closing := { e.closing with myIdentS := e.identFor e.myCall }, cause := .connect }

/-- A session numbered anew and not yet answered, with `remote`. -/
def startCall (remote : Text) : Engine :=
  (((e.settleIdentifier remote).address remote).numberSession).beginCall

/-- A call's first try, or its wait for what stands in its way. -/
def placeCall (remote : Text) : Engine :=
  let e := e.startCall remote
  if e.clearToStart then e.sendConnect else e.arm .connect e.holdUntil

def connect (remoteCall : Text) (asCall : Option Text) : Except Refused Engine :=
  if e.state ≠ .idle then .error .inSession
  else if !packs (Text.clean remoteCall) then .error .callsignUnpackable
  else (e.callingAs asCall).map fun (e : Engine) => e.placeCall (Text.clean remoteCall)

/-- A probe asked for, an identifier still owed to go first. -/
def startProbe (remote : Text) : Engine :=
  let e := if e.closing.idOwed > 0 then e.arm .ident (max e.now e.holdUntil) else e
  { e with
    calling := { e.calling with probing := some remote, lastProbe := none, probeUnsent := true }
    stats := { e.stats with probesSent := e.stats.probesSent + 1 }
    cause := .probe }

def placeProbe (remote : Text) : Engine :=
  let e := e.startProbe remote
  if e.clearToStart then e.sendProbe else e.arm .probe e.holdUntil

def probe (remoteCall : Text) (asCall : Option Text) : Except Refused Engine :=
  if e.state ≠ .idle then .error .inSession
  else if e.calling.probing.isSome then .error .probeOut
  else if !packs (Text.clean remoteCall) then .error .callsignUnpackable
  else (e.callingAs asCall).map fun (e : Engine) => e.placeProbe (Text.clean remoteCall)

/-! ### Being called -/

/-- How late this station's receiver reported a frame and how late its keying is: the
level its answers ask for, up at once, down a level after `needEaseAfter` frames. -/
def measureLateness (frame : Heard) : Engine :=
  let late := e.now - frame.tEnd - e.budget frame.floor + max 0 (e.ownLatency - e.config.keyS)
  let need := e.levelFor late
  if need > e.slave.needLevel then
    { e with slave := { e.slave with needLevel := need, onTime := 0 } }
  else if need < e.slave.needLevel then
    if e.slave.onTime + 1 ≥ e.config.needEaseAfter then
      { e with slave := { e.slave with needLevel := e.slave.needLevel - 1, onTime := 0 } }
    else { e with slave := { e.slave with onTime := e.slave.onTime + 1 } }
  else e

/-- A call or an acceptance of a protocol this station speaks. -/
def speaks (cb : ConnectBody) (size : Nat) : Bool :=
  cb.version = protocolVersion && size ≥ connectBody8Bytes

def sameBandwidth (caps : UInt8) : Bool :=
  bandwidthCode caps = bandwidthCode e.config.capabilities

def scheduleAcceptance [Libm] (req : ConnectBody) (frame : Heard) (start : ℚ) : Engine :=
  e.schedule {
    what := .connectAck
    start
    notAfter := start + e.config.slackS
    floor := e.acceptanceFloor frame
    session := e.session
    anchor := frame.tEnd
    remote := req.src
    snrDb := some frame.snrDb }

/-- A call heard in a session: the peer's under a new number has given the session up
and is answered as from idle; under this session's number, it is answered again. -/
def calledAgain [Libm] (header : DataHeader) (req : ConnectBody) (frame : Heard) (start : ℚ) :
    Bool × Engine :=
  if req.src ≠ e.remoteCall then (false, e)
  else if header.session ≠ e.session then (true, e.endSession (.calledAgain req.src) false)
  else if e.role = .slave && e.slave.mEnd.isNone && e.slave.grant.isNone then
    (false, ((e.heard frame).measureLateness frame).scheduleAcceptance req frame start)
  else (false, e)

/-- What a call says of its caller. -/
def peerOf (cb : ConnectBody) (peer : Peer) : Peer :=
  { peer with
    capabilities := cb.caps &&& ~~~capLevelMask
    turnaroundS := cb.turnaroundS
    identifierS := cb.identifierS }

/-- A session with the caller, this station its slave, before anything is heard of it. -/
def openCalled (header : DataHeader) (req : ConnectBody) : Engine :=
  let e := { e with myCall := req.dst }.dropIdentifier
  let e := ({ e with
    remoteCall := req.src
    session := header.session
    closing := { e.closing with left := none } }.disarm .leave).resetSession
  { e with
    closing := { e.closing with myIdentS := e.identFor req.dst }
    peer := peerOf req e.peer
    state := .connected
    role := .slave }

/-- The session is up. -/
def greet (role : Role) : Engine := (e.event (.connected e.remoteCall role)).event (.role role)

/-- The family this station's answers go in until a header says. -/
def keepFamily (frame : Heard) : Engine :=
  { e with slave := { e.slave with ansSticky := e.acceptanceFloor frame } }

def welcome [Libm] (req : ConnectBody) (frame : Heard) (start : ℚ) : Engine :=
  ((((e.heard frame).measureLateness frame).keepFamily frame).greet .slave).scheduleAcceptance
    req frame start

def acceptCall [Libm] (header : DataHeader) (req : ConnectBody) (frame : Heard) (start : ℚ) : Engine :=
  (e.openCalled header req).welcome req frame start

/-- Where the slot a call grants its acceptance starts. -/
def callSlot (req : ConnectBody) (frame : Heard) : ℚ :=
  e.slotStart frame.tEnd frame.floor (levelOf req.caps).toNat req.turnaroundS

/-- A call that may be answered, unless its slot falls in one this station granted. -/
def answerCall [Libm] (header : DataHeader) (req : ConnectBody) (frame : Heard) (start : ℚ) : Engine :=
  if start < e.holdUntil - nano ∨ e.calling.probing.isSome then e
  else if e.state = .connecting then
    -- simultaneous calls: the higher callsign keeps calling
    if req.src = e.remoteCall ∧ Text.asBytes e.myCall > Text.asBytes e.remoteCall then e
    else (e.disarm .connect).acceptCall header req frame start
  else e.acceptCall header req frame start

def onRequest [Libm] (header : DataHeader) (req : ConnectBody) (frame : Heard) (size : Nat) : Engine :=
  if req.dst ∉ e.callsigns then e
  else if !e.sameBandwidth req.caps then e.event (.otherBandwidth req.src req.caps true)
  else if !speaks req size then e.event (.otherVersion req.src req.version true)
  else
    let start := e.callSlot req frame
    if e.state.inSession then
      match e.calledAgain header req frame start with
      | (false, e) => e
      | (true, e) => e.answerCall header req frame start
    else e.answerCall header req frame start

def beMaster (ack : ConnectBody) : Engine :=
  { e.disarm .connect with
    peer := peerOf ack e.peer
    master := { e.master with levelAsked := (levelOf ack.caps).toNat }
    state := .connected
    role := .master }

/-- The slave's reading of the call, where the rate controller's prior and the first
header's family start: a floor reading is a lower bound, never too fast. -/
def takeCallReading [Libm] : Option ℚ → Engine
  | none => e
  | some snr =>
    { e with
      peer := { e.peer with snrDb := some snr }
      rate := e.rate.seed snr
      master := if e.timing.floorModes > 0 then { e.master with
        hdrFloor := e.floorOnly || snr < e.ctlThreshold + e.config.answerFloorMarginDb } else e.master }

/-- The slave answers in this family until it has read a header. -/
def expectFamily (floor : Bool) : Engine := { e with master := { e.master with possible := .of floor } }

/-- The session an acceptance opens, this station its master. -/
def openMaster [Libm] (ack : ConnectBody) (frame : Heard) : Engine :=
  ((((e.beMaster ack).heard frame).takeCallReading ack.snrDb).expectFamily frame.floor).greet .master

/-- The slot the acceptance came in, or the latest try's, which may be in use. -/
def waitAcceptance (frame : Heard) : Engine :=
  if e.inSlot frame then e.stateEnd frame.tEnd frame.floor else e.armWait

def onAcceptance [Libm] (header : DataHeader) (ack : ConnectBody) (frame : Heard) (size : Nat) : Engine :=
  if e.state ≠ .connecting ∨ header.session ≠ e.session then e
  else if ack.dst ≠ e.myCall then e
  else if !e.sameBandwidth ack.caps then e.event (.otherBandwidth ack.src ack.caps false)
  else if !speaks ack size then e.event (.otherVersion ack.src ack.version false)
  else (e.openMaster ack frame).waitAcceptance frame

def onConnect [Libm] (header : DataHeader) (body : Bytes) (frame : Heard) : Engine :=
  match ConnectBody.decode body with
  | .error _ => e
  | .ok cb =>
    if header.kind = .connectReq then e.onRequest header cb frame body.length
    else e.onAcceptance header cb frame body.length

/-! ### Being probed, and a probe's answer -/

/-- A probe's answer, across bandwidths too, on the floor both airs share. -/
def probeAnswerTo (pb : ProbeBody) (frame : Heard) (start : ℚ) : Answer where
  what := .probeAck
  start
  notAfter := start + e.config.slackS
  floor := e.timing.floorModes > 0 && (!e.sameBandwidth pb.caps || frame.floor || e.floorOnly)
  remote := pb.src
  snrDb := some frame.snrDb
  anchor := frame.tEnd

def noteProbed (pb : ProbeBody) (frame : Heard) : Engine :=
  { e with
    myCall := pb.dst
    stats := { e.stats with probesAnswered := e.stats.probesAnswered + 1 } }.event
      (.probed pb.src frame.snrDb pb.caps)

def onProbed [Libm] (pb : ProbeBody) (frame : Heard) : Engine :=
  let start := e.slotStart frame.tEnd frame.floor (levelOf pb.caps).toNat 0
  -- a session's frames matter more than a question from outside it
  if pb.dst ∉ e.callsigns ∨ e.state ≠ .idle then e
  else if e.calling.probing.isSome then e
  else if start < e.holdUntil - nano then e
  else (e.noteProbed pb frame).schedule (e.probeAnswerTo pb frame start)

def noteProbeAnswer (pb : ProbeBody) (frame : Heard) : Engine :=
  { e.disarm .probe with
    calling := { e.calling with
      probing := none
      lastProbe := some ⟨pb.src, pb.snrDb, frame.snrDb, bandwidthHzOf pb.caps⟩ }
    stats := { e.stats with probeReplies := e.stats.probeReplies + 1 } }.event
      (.probeAnswer pb.src pb.snrDb frame.snrDb pb.caps)

def onProbeAnswer (pb : ProbeBody) (frame : Heard) : Engine :=
  if e.calling.probing ≠ some pb.src ∨ pb.dst ≠ e.myCall then e
  else if e.slot.any (fun s => s.kind = .probe) && e.inSlot frame
  then (e.noteProbeAnswer pb frame).stateEnd frame.tEnd frame.floor
  else e.noteProbeAnswer pb frame

def onProbe [Libm] (kind : DataKind) (body : Bytes) (frame : Heard) : Engine :=
  match ProbeBody.decode body with
  | .error _ => e
  | .ok pb => if kind = .probe then e.onProbed pb frame else e.onProbeAnswer pb frame

end Engine

end AetherHF.Link
