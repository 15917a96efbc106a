import AetherHF.Link.Granted.Slave

/-! What the engine's driver calls: the operator's commands, the frames heard, what
became of a transmission, and time passing. `handle` is one call of any of them. -/
namespace AetherHF.Link

namespace Engine

variable (e : Engine)

/-! ### A station that has left -/

def forgetLeft : Engine := { e with closing := { e.closing with left := none } }

/-- An idle station hears a control frame of a session it left: a DISC is answered, a
header with a DISC if this station was the slave, and a `DISC_ACK` ends the leaving. -/
def answerLeft [Libm] (ctl : GrantFrame) (frame : Heard) : Engine :=
  match e.closing.left with
  | none => e
  | some left =>
    if e.now > left.until_ then e.forgetLeft
    else if ctl.session ≠ left.session &&& 0x7F then e
    else if ctl.kind = .discAck then
      let e := e.forgetLeft.disarm .leave
      let e := if e.slot.any (fun s => s.kind = .leave) && e.inSlot frame
        then e.stateEnd (frame.tEnd + e.peer.identifierS) frame.floor else e
      e.identifyAfterLeaving
    -- a call of this station's is out: its slot is the one that matters
    else if e.state = .connecting then e
    else
      let e := if e.closing.idOwed > 0 ∧ e.closing.idAlone then e.arm .ident (e.now + e.exchangeS) else e
      match ctl.kind with
      | .disc => e.answerDisc ctl frame .discAck
      | .header => if left.wasSlave && !left.discHeard then e.answerDisc ctl frame .disc else e
      | .answer | .discAck => e

/-- An aborting master's DISC, from idle. -/
def leaveDisc (left : Left) : GrantFrame where
  kind := .disc
  session := left.session &&& 0x7F
  fam := true
  level := levelByte e.master.silenceLevel
  ident := e.peer.identifierS > 0

def leaveSlot : Slot where
  kind := .leave
  grantS := e.ctlS true + e.peer.identifierS
  lastFloor := true
  answerFloors := .of true
  level := e.master.silenceLevel
  granterTurnaroundS := e.config.turnaroundS

def countLeave : Engine :=
  { e with closing := { e.closing with leaveRepeats := e.closing.leaveRepeats - 1 } }

/-- An aborting master's DISC, up to `leaveRepeats` times, each once the last one's
slot is over. -/
def repeatLeave : Engine :=
  match e.closing.left with
  | none => e.identifyAfterLeaving
  | some left =>
    if e.state ≠ .idle ∨ e.closing.leaveRepeats = 0 then e.identifyAfterLeaving
    else if e.now < e.holdUntil - nano then e.arm .leave e.holdUntil
    else if e.now > left.until_ then e.forgetLeft.identifyAfterLeaving
    else
      let e := e.countLeave
      let e := e.keyGranting e.leaveSlot [control (e.leaveDisc left) true]
      if e.closing.leaveRepeats > 0 then e.arm .leave e.holdUntil else e.identifyAfterLeaving

/-! ### The operator's commands -/

/-- A station. -/
def new (myCall : Text) (timing : PhyTiming) (config : GrantConfig) (seed : UInt64) : Engine :=
  ({ callsigns := [Text.clean myCall], myCall := Text.clean myCall, timing, config, rng := ⟨seed⟩
     leaving := { leaveDrainS := config.discDrainS }, rate := rateFor timing } : Engine).resetSession

def setCallsigns (calls : List Text) : Except Refused Engine :=
  if e.state ≠ .idle then .error .sessionRunning
  else match (calls.map Text.clean).filter fun c => !c.isEmpty with
    | [] => .error .noCallsign
    | call :: rest =>
      if (call :: rest).all packs then .ok { e with myCall := call, callsigns := call :: rest }
      else .error .callsignUnpackable

/-- The slave speaks in its open window. -/
def speakUp [Libm] (cause : Cause) : Engine :=
  if e.role = .slave ∧ e.slave.window.isSome then { e with cause }.tryWindow else e

/-- Orderly close, waiting no longer than `drainS` for what is queued. -/
def disconnectWithin [Libm] (drainS : Option ℚ) : Engine :=
  if e.state = .idle then e
  else
    { e with leaving := { e.leaving with
      discRequested := true
      leaveDrainS := (drainS.map (max · 0)).getD e.leaving.leaveDrainS
      leaveSince := some (e.leaving.leaveSince.getD e.now) } }.speakUp .disconnect

/-- Drop the session now. -/
def abort : Engine :=
  if e.state = .idle then e
  else
    let wasMaster := e.role = .master
    let e := { e with cause := .abort }.endSession .aborted false
    if wasMaster ∧ e.closing.left.isSome then
      { e with closing := { e.closing with leaveRepeats := e.config.leaveRepeats } }.arm
        .leave (max e.now e.holdUntil)
    else if wasMaster then e.identifyAfterLeaving
    else e

/-- Queue bytes for the other station. -/
def send [Libm] (data : Bytes) : Engine :=
  { e with tx := { e.tx with queue := e.tx.queue ++ data } }.speakUp .send

def setAnswerGap (seconds : ℚ) : Engine :=
  { e with config := { e.config with answerGapS := max seconds 0 } }

def pinMode (mode bodyBytes : Option Nat) : Except Refused Engine :=
  if mode.any (· ≥ e.timing.dataCapacity.length) then .error .modeOutsideTable
  else if bodyBytes = some 0 then .error .noBodyBytes
  else .ok { e with tx := { e.tx with
    pinned := mode, pinBody := if mode.isSome then bodyBytes else none } }

def measure [Libm] (mode frames : Nat) : Except Refused Engine :=
  if mode ≥ e.timing.dataCapacity.length then .error .modeOutsideTable
  else if frames = 0 then .error .noFrames
  else .ok ({ e with measuring := { e.measuring with
    ask := some (mode, frames), again := false } }.speakUp .measure)

def setMaxBurstS (seconds : Option ℚ) : Engine :=
  { e with config := { e.config with maxBurstS := seconds } }

def setCeiling (rung : Option Nat) : Engine := { e with config := { e.config with ceiling := rung } }

def setMaxMode (rung : Nat) : Engine := { e with config := { e.config with maxMode := rung } }

def setTxLatencyS (seconds : ℚ) : Engine :=
  { e with timing := { e.timing with txLatencyS := seconds } }

def setIdentifierS (seconds : ℚ) : Engine :=
  { e with config := { e.config with identifierS := max seconds 0 } }

def setIdentifiers (lengths : List (Text × ℚ)) : Engine :=
  { e with config := { e.config with
    identifiers := lengths.foldl (fun map p => Keyed.insert map (Text.clean p.1) (max p.2 0)) [] } }

def setTurnaroundS (seconds : ℚ) : Engine :=
  { e with config := { e.config with turnaroundS := seconds } }

def moveTo (timing : PhyTiming) (capabilities : UInt8) (maxMode : Option Nat) : Engine :=
  { e with
    timing
    config := { e.config with capabilities, maxMode := maxMode.getD e.config.maxMode }
    rate := rateFor timing }.priceControllers

/-- Another air from the next session on. -/
def setAir (timing : PhyTiming) (capabilities : UInt8) (maxMode : Option Nat) : Except Refused Engine :=
  if e.state ≠ .idle ∨ e.calling.probing.isSome then .error .airInUse
  else .ok (e.moveTo timing capabilities maxMode)

/-- An unanswered call's next tries go out on another air. -/
def moveCall (timing : PhyTiming) (capabilities : UInt8) (maxMode : Option Nat) :
    Except Refused Engine :=
  if e.state ≠ .connecting then .error .noCall else .ok (e.moveTo timing capabilities maxMode)

/-! ### What became of a transmission -/

def passTo (now : ℚ) : Engine := { e with now := max e.now now }

/-- The transmission done granted the slot waited for, not yet measured. -/
def grantsOpen (flight : InFlight) : Bool :=
  e.slot.any fun s => flight.granted = some s.id && !s.final_

/-- A transmission finished; its slot is measured from where its frames ended. -/
def onTxDone (now : ℚ) (framesEnd : Option ℚ) : Engine :=
  let e := e.passTo now
  match e.inFlight with
  | [] => e
  | flight :: rest =>
    let e := { e with inFlight := rest }
    if e.grantsOpen flight then
      { e with slot := e.slot.map fun (s : Slot) => { s with final_ := true } }.openSlot (framesEnd.getD now)
    else e

/-- A transmission was cut before any frame of it could be read: it granted nothing. -/
def onTxCutUnread (now : ℚ) : Engine :=
  let e := e.passTo now
  match e.inFlight with
  | [] => e
  | flight :: rest =>
    let e := ({ e with inFlight := rest }.oweAgain flight.ident).askAgain flight.measured
    if e.grantsOpen flight then
      let e := { e with slot := none, holdUntil := e.now }
      if e.role = .master ∧ e.state.inSession then e.arm .proceed e.now else e
    else e

/-- The keying gate did not start a transmission. -/
def onTxDropped (now : ℚ) : Engine :=
  let e := e.passTo now
  let e := match e.inFlight with
    | [] => e
    | flight :: rest => ({ e with inFlight := rest }.oweAgain flight.ident).askAgain flight.measured
  { e with stats := { e.stats with dropped := e.stats.dropped + 1 } }

/-- The daemon is holding this station's last transmission: what waits for it to end
moves. -/
def onTxDelayed (seconds : ℚ) : Engine :=
  if seconds ≤ 0 then e
  else
    { e with
      deadlines := e.deadlines.map fun p =>
        if p.1 = .link ∨ p.1 = .answer then p else (p.1, p.2 + seconds)
      holdUntil := e.holdUntil + seconds }

/-! ### Time -/

def expireLink : Engine :=
  -- whole exchanges of the size in use now
  let due := e.peer.heardAt + e.linkTimeout
  if due > e.now then e.arm .link due else e.endSession .linkTimeout false

def expireConnect : Engine :=
  -- a closing identifier went first
  if e.now < e.holdUntil - nano then e.arm .connect e.holdUntil else e.retryConnect

def expireProbe : Engine :=
  if e.calling.probeUnsent then
    if e.now < e.holdUntil - nano then e.arm .probe e.holdUntil else e.sendProbe
  else match e.calling.probing with
    | some remote =>
      { e with calling := { e.calling with probing := none } }.event (.probeUnanswered remote)
    | none => e

def expire [Libm] : Timer → Engine
  | .link => e.expireLink
  | .connect => e.expireConnect
  | .probe => e.expireProbe
  | .proceed => e.proceed
  | .answer => e.keyAnswer
  | .leave => e.repeatLeave
  | .ident => e.sendIdentifier

def due (timer : Timer) : Bool := (e.deadlines.get? timer).any (· ≤ e.now + nano)

/-- A timer fires, if it is still due. -/
def fire [Libm] (timer : Timer) : Engine :=
  if e.due timer then { e.disarm timer with cause := .timer timer }.expire timer else e

/-- The timers by deadline; those due together in the order they were armed. -/
def byDeadline : List Timer := (e.deadlines.insertionSort fun p q => p.2 ≤ q.2).map Prod.fst

/-- Time passes. -/
def tick [Libm] (now : ℚ) : Engine :=
  let e := e.passTo now
  e.byDeadline.foldl (fun (e : Engine) timer => e.fire timer) e

/-! ### What is heard -/

/-- A frame announced and not yet decoded: a caller or a prober waits past it. -/
def onPreamble (tStart now : ℚ) (frameS : Option ℚ) : Engine :=
  let e := e.passTo now
  if e.state ≠ .connecting ∧ e.calling.probing.isNone then e
  else
    let length := frameS.getD (e.timing.dataFrameSFor 0)
    let clear := tStart + length + e.budget true + e.config.guardS
    let e := match e.deadlines.get? .connect with
      | some due => if e.calling.connectTries > 0 then e.arm .connect (max due clear) else e
      | none => e
    match e.deadlines.get? .probe with
    | some due => if e.calling.probeUnsent then e else e.arm .probe (max due clear)
    | none => e

/-- A decoded DATA frame that is no session data, handled; `true` only for this
session's data. -/
def outside [Libm] (payload : Bytes) (frame : Heard) : Bool × Engine :=
  match decodeData payload with
  | .error _ => (false, e)
  | .ok (header, body) =>
    match header.kind with
    | .connectReq | .connectAck => (false, e.onConnect header body frame)
    | .probe | .probeAck => (false, e.onProbe header.kind body frame)
    | kind => (!kind.outsideSessions && header.session = e.session, e)

def onControl [Libm] (ctl : GrantFrame) (frame : Heard) : Engine :=
  if !e.state.inSession then e.answerLeft ctl frame
  else if ctl.session ≠ e.session &&& 0x7F then e
  else if e.role = .master then e.masterControl ctl frame
  else e.slaveControl ctl frame

/-- A data frame of the session, or one that did not decode. -/
def onData [Libm] (soft : SoftFrame) (frame : Heard) (decoded : Bool) : Engine :=
  if !e.state.inSession then e
  else if !decoded && !frame.trusted then e
  else if frame.floor ≠ e.timing.isFloor frame.mode then e.countFailed
  else match e.role with
    | .master => e.masterData soft frame decoded
    | .slave => e.slaveData soft frame decoded
    | .none => e

def listen (now : ℚ) : Engine := { e.passTo now with cause := .frame, lastData := none }

/-- A frame detected, decoded or not. -/
def onFrame [Libm] (soft : SoftFrame) (now : ℚ) : Engine :=
  let e := e.listen now
  let heard := Heard.of soft
  match soft.container, (soft.decode none).1 with
  | .control, none => e
  | .control, some payload =>
    match GrantFrame.decode payload with
    | .ok ctl => e.onControl ctl heard
    | .error _ => e
  | .data, none => e.onData soft heard false
  | .data, some payload =>
    match e.outside payload heard with
    | (false, e) => e
    | (true, e) => e.onData soft heard true

/-- The actions produced since the last call. -/
def drain : List Action × Engine := (e.actions, { e with actions := [] })

def takeLadder : List LadderRung × Engine :=
  (e.measuring.ladder, { e with measuring := { e.measuring with ladder := [] } })

def resetStats : Engine := { e with stats := {} }

end Engine

/-! ### One call of the engine's -/

inductive Input where
  | connect (remote : Text) (asCall : Option Text)
  | probe (remote : Text) (asCall : Option Text)
  | disconnect (drainS : Option ℚ)
  | abort
  | send (data : Bytes)
  | measure (mode frames : Nat)
  | pinMode (mode bodyBytes : Option Nat)
  | setCallsigns (calls : List Text)
  | setAnswerGap (seconds : ℚ)
  | setMaxBurstS (seconds : Option ℚ)
  | setCeiling (rung : Option Nat)
  | setMaxMode (rung : Nat)
  | setTxLatencyS (seconds : ℚ)
  | setIdentifierS (seconds : ℚ)
  | setIdentifiers (lengths : List (Text × ℚ))
  | setTurnaroundS (seconds : ℚ)
  | setAir (timing : PhyTiming) (capabilities : UInt8) (maxMode : Option Nat)
  | moveCall (timing : PhyTiming) (capabilities : UInt8) (maxMode : Option Nat)
  | txDone (now : ℚ) (framesEnd : Option ℚ)
  | txCutUnread (now : ℚ)
  | txDropped (now : ℚ)
  | txDelayed (seconds : ℚ)
  | tick (now : ℚ)
  | preamble (tStart now : ℚ) (frameS : Option ℚ)
  | frame (soft : SoftFrame) (now : ℚ)
  | drain
  | takeLadder
  | resetStats

namespace Engine

/-- A command refused leaves the engine as it was. -/
def orSelf (e : Engine) : Except Refused Engine → Engine
  | .ok e' => e'
  | .error _ => e

def handle [Libm] (e : Engine) : Input → Engine
  | .connect remote asCall => e.orSelf (e.connect remote asCall)
  | .probe remote asCall => e.orSelf (e.probe remote asCall)
  | .disconnect drainS => e.disconnectWithin drainS
  | .abort => e.abort
  | .send data => e.send data
  | .measure mode frames => e.orSelf (e.measure mode frames)
  | .pinMode mode bodyBytes => e.orSelf (e.pinMode mode bodyBytes)
  | .setCallsigns calls => e.orSelf (e.setCallsigns calls)
  | .setAnswerGap seconds => e.setAnswerGap seconds
  | .setMaxBurstS seconds => e.setMaxBurstS seconds
  | .setCeiling rung => e.setCeiling rung
  | .setMaxMode rung => e.setMaxMode rung
  | .setTxLatencyS seconds => e.setTxLatencyS seconds
  | .setIdentifierS seconds => e.setIdentifierS seconds
  | .setIdentifiers lengths => e.setIdentifiers lengths
  | .setTurnaroundS seconds => e.setTurnaroundS seconds
  | .setAir timing capabilities maxMode => e.orSelf (e.setAir timing capabilities maxMode)
  | .moveCall timing capabilities maxMode => e.orSelf (e.moveCall timing capabilities maxMode)
  | .txDone now framesEnd => e.onTxDone now framesEnd
  | .txCutUnread now => e.onTxCutUnread now
  | .txDropped now => e.onTxDropped now
  | .txDelayed seconds => e.onTxDelayed seconds
  | .tick now => e.tick now
  | .preamble tStart now frameS => e.onPreamble tStart now frameS
  | .frame soft now => e.onFrame soft now
  | .drain => e.drain.2
  | .takeLadder => e.takeLadder.2
  | .resetStats => e.resetStats

/-- The engine after a run of calls. -/
def run [Libm] (e : Engine) (inputs : List Input) : Engine := inputs.foldl handle e

/-- What a station's engine can come to. -/
def Reachable [Libm] (e : Engine) : Prop :=
  ∃ myCall timing config seed inputs, e = (new myCall timing config seed).run inputs

end Engine

end AetherHF.Link
