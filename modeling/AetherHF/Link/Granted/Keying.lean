import AetherHF.Link.Granted.Receiving

/-! Handing transmissions over, the slots they grant, and the end of a session with
the closing identifier it owes. -/
namespace AetherHF.Link.Engine

variable (e : Engine)

def event (event : Event) : Engine := { e with actions := e.actions ++ [.event event] }

def disarm (timer : Timer) : Engine := { e with deadlines := e.deadlines.remove timer }

def arm (timer : Timer) (at_ : ℚ) : Engine := { e with deadlines := e.deadlines.set timer at_ }

/-- What ranks the rungs: a control frame each way, the two gaps, and the frames a
full transmission at each rung carries. -/
def priceControllers : Engine :=
  let gapS := e.slotStart 0 true 0 0 + e.after 0 true 0
  let rungs := if e.timing.modeThresholdDb.isEmpty then awgnThresholdDb.length
    else e.timing.modeThresholdDb.length
  let burst := (List.range rungs).map fun m => e.burstCapacity (e.timing.dataFrameSFor m)
  { e with rate := e.rate.priceExchanges (e.ctlS true) (e.ctlS false) gapS burst }

/-- A decoded frame of the session: the link is alive. -/
def heard [Libm] (frame : Heard) : Engine :=
  let recent := e.peer.heardRecent ++ [frame.snrDb]
  let e := { e with peer := { e.peer with
    heardDb := some frame.snrDb
    heardRecent := recent.drop (recent.length - e.config.familyReadings) } }.price
  let e := { e with
    rate := e.rate.observeEcho frame.echo frame.snrDb
    peer := { e.peer with heardAt := e.now } }
  e.arm .link (e.now + e.linkTimeout)

/-- The other station's reading of this one, from a control frame. -/
def peerReading [Libm] (snrDb : ℚ) : Engine :=
  { e with
    peer := { e.peer with snrDb := some snrDb }
    rate := if e.rate.snrDb.isNone then e.rate.seed snrDb else e.rate }

def takeReading [Libm] : Option ℚ → Engine
  | some snrDb => e.peerReading snrDb
  | none => e

/-! ### Keying -/

def airS (frames : List TxFrame) : ℚ := (frames.map e.timing.frameS).sum

/-- Hand a transmission over. An identifier goes after the frames. -/
def transmit (frames : List TxFrame) (keying : Keying) (granting : Option Nat) : Engine :=
  { e with
    actions := e.actions ++ [.transmit {
      frames
      durationS := keying.identifierS + e.airS frames
      cause := e.cause
      notAfter := keying.notAfter
      notBefore := keying.notBefore
      identifierS := keying.identifierS
      listenFirst := keying.listenFirst }]
    inFlight := e.inFlight ++ [{
      granted := granting
      ident := if frames.isEmpty then 0 else keying.identifierS
      measured := carriesMeasurement frames }]
    stats := { e.stats with transmissions := e.stats.transmissions + 1 } }

/-- Where a transmission handed over now ends on the air, as far as the engine knows. -/
def airEnd (frames : List TxFrame) (keying : Keying) : ℚ :=
  let onAir := e.now + e.ownLatency
  (match keying.notBefore with
    | some earliest => max onAir earliest
    | none => onAir) + (keying.identifierS + e.airS frames)

def control (ctl : GrantFrame) (floor : Bool) : TxFrame := ⟨.control, ctl.encode, 0, 0, floor, 0⟩

/-! ### Slots this station grants -/

/-- Arm what ends this station's wait for the slot it granted last. -/
def armWait : Engine :=
  match e.slot with
  | none => e
  | some slot =>
    let due := e.slotClose slot
    let e := { e with holdUntil := due }
    if slot.kind = .connect ∧ e.state = .connecting then e.arm .connect (due + e.calling.callJitter)
    else if slot.kind = .probe then
      if e.calling.probing.isSome && !e.calling.probeUnsent then e.arm .probe due else e
    else if e.role = .master ∧ e.state.inSession then e.arm .proceed (max e.now due)
    else e

def openSlot (stop : ℚ) : Engine :=
  match e.slot with
  | none => e
  | some slot =>
    let start := e.slotStart stop slot.lastFloor slot.level slot.granterTurnaroundS
    let endMax := start + slot.grantS + if slot.openWindow then 0 else e.config.slackS
    { e with slot := some { slot with txEnd := stop, start, endMax } }.armWait

/-- Key a transmission that grants a slot, and wait for the slot. -/
def keyGranting (slot : Slot) (frames : List TxFrame) : Engine :=
  let id := e.nextSlotId + 1
  let e := { e with nextSlotId := id, slot := some { slot with id } }
  (e.transmit frames {} (some id)).openSlot (e.airEnd frames {})

/-- A decoded frame of the slot says where the other station's transmission ends. -/
def stateEnd (stop : ℚ) (floor : Bool) : Engine :=
  match e.slot with
  | none => e
  | some slot =>
    let later := slot.statedEnd.all fun stated => stop ≥ stated - nano
    { e with slot := some { slot with
        heard := true
        statedEnd := if later then some stop else slot.statedEnd
        statedFloor := if later then floor else slot.statedFloor } }.armWait

/-! ### The end of a session -/

def resetSession : Engine :=
  let e := { e with
    rate := rateFor e.timing }.priceControllers
  { e with
    tx := { queue := e.tx.queue, pinned := e.tx.pinned, pinBody := e.tx.pinBody }
    rx := {}
    measuring := { ladder := e.measuring.ladder }
    peer := { heardAt := e.now, endedSnrDb := e.peer.endedSnrDb }
    leaving := { leaveDrainS := e.config.discDrainS }
    master := {}
    slave := {}
    answer := none
    slot := none
    deadlines := ((e.deadlines.remove .proceed).remove .answer).remove .link }

def oweIdentifier (length : ℚ) : Engine := { e with closing := { e.closing with idOwed := length } }

/-- No identifier for the session just ended: the communication goes on in a new one. -/
def dropIdentifier : Engine := (e.oweIdentifier 0).disarm .ident

/-- Nothing of this station's own keys before `until_`. -/
def holdFor (until_ : ℚ) : Engine := { e with holdUntil := max e.holdUntil until_ }

/-- An aborting master's leaving is over: its closing identifier goes once the last
slot can no longer be in use. -/
def identifyAfterLeaving : Engine :=
  if e.closing.idOwed > 0 ∧ !e.closing.idAlone ∧ e.state = .idle
  then e.arm .ident (max e.now e.holdUntil) else e

/-- The closing identifier alone, as it goes on the air. -/
def identifierKeying : Keying := { identifierS := e.closing.idOwed, listenFirst := e.closing.idListen }

/-- The closing identifier on its own. -/
def sendIdentifier : Engine :=
  if e.closing.idOwed ≤ 0 then e
  -- a session under way ends with an identifier of its own
  else if e.state ≠ .idle ∧ !(e.state = .connecting ∧ e.calling.connectTries = 0) then e
  else if e.now < e.holdUntil - nano then e.arm .ident e.holdUntil
  else ((e.oweIdentifier 0).transmit [] e.identifierKeying none).holdFor (e.airEnd [] e.identifierKeying)

/-- A `DISC_ACK` that carried the closing identifier did not go out. -/
def oweAgain (ident : ℚ) : Engine :=
  if ident ≤ 0 ∨ e.state ≠ .idle ∨ e.closing.idOwed > 0 then e
  else { e with closing := { e.closing with idOwed := ident, idAlone := true, idListen := true } }.arm
    .ident (e.now + e.exchangeS)

/-- When a closing identifier with no slot of the session's goes. -/
def armIdentifier (reason : Reason) (wasMaster remembered : Bool) : Engine :=
  if wasMaster then
    if reason ≠ .aborted then e.arm .ident (max e.now e.holdUntil) else e
  else if reason = .linkTimeout then
    -- the master has given up and identified by then
    e.arm .ident (e.now + e.exchangeS + e.peer.identifierS)
  else e.arm .ident (if remembered then e.now + e.exchangeS else e.now)

/-- The session left behind, when the other station is still in it. -/
def leftBehind (reason : Reason) (discHeard : Bool) : Option Left :=
  if e.state ≠ .connecting ∧ (reason.leftUnheard ∨ discHeard)
  then some ⟨e.session, e.now + e.linkTimeout, discHeard, e.role = .slave⟩ else none

/-- The session ends with a closing identifier of this station's. -/
def identifies (reason : Reason) : Bool :=
  e.state ≠ .connecting && e.closing.myIdentS > 0 && !reason.isCalledAgain

/-- The station out of its session, what answering or leaving the old one in its slots
still needs kept. -/
def leaveSession : Engine :=
  let out := (((({ e with
    peer := { e.peer with endedSnrDb := e.peer.snrDb }
    state := .idle
    role := .none }).disarm .connect).disarm .ident).resetSession)
  { out with
    tx := { out.tx with queue := [] }
    peer := { out.peer with turnaroundS := e.peer.turnaroundS, identifierS := e.peer.identifierS }
    master := { out.master with silenceLevel := e.master.silenceLevel } }

def remember (left : Option Left) : Engine := { e with closing := { e.closing with left } }

/-- How a closing identifier owed goes: on its own initiative, and listening first. -/
def identifyAlone (wasMaster unread : Bool) (reason : Reason) : Engine :=
  { e with closing := { e.closing with
    idAlone := !wasMaster
    idListen := !wasMaster || unread || reason = .noResponse || reason = .linkTimeout } }

def endSessionWith (reason : Reason) (discHeard unread : Bool) : Engine :=
  let left := e.leftBehind reason discHeard
  let wasMaster : Bool := e.role = .master
  if e.identifies reason then
    ((((e.leaveSession.remember left).oweIdentifier e.closing.myIdentS).event
      (.disconnected reason)).identifyAlone wasMaster unread reason).armIdentifier
        reason wasMaster left.isSome
  else ((e.leaveSession.remember left).oweIdentifier 0).event (.disconnected reason)

def endSession (reason : Reason) (discHeard : Bool) : Engine := e.endSessionWith reason discHeard false

/-- A master's session that ends with the other station unread. -/
def endSessionUnread (reason : Reason) : Engine := e.endSessionWith reason false true

end AetherHF.Link.Engine
