import AetherHF.Link.Granted.Keying

/-! A transmission owed in a slot this station was granted: set up, decided as soon
as what it says is final, and forfeited when the grant was decoded too late. -/
namespace AetherHF.Link.Engine

variable (e : Engine)

def levelByte (level : Nat) : UInt8 := if level < 256 then UInt8.ofNat level else 3

def countByte (count : Nat) : UInt8 := if count < 256 then UInt8.ofNat count else 7

/-- A transmission of the master's this station will not answer: what it heard of it
is still news of the path. -/
def forfeit (anchor : ℚ) : Engine :=
  { e with slave := { e.slave with answeredEnd := some anchor } }.closeRx.2

def countForfeit (answer : Answer) : Engine :=
  let e := { e with stats := { e.stats with forfeits := e.stats.forfeits + 1 } }
  if answer.what = .ans then e.forfeit answer.anchor else e

/-! ### What is sent -/

def answerFrame (dataFloor : Bool) (count : Nat) (base : UInt8) (bitmap : UInt16) : GrantFrame where
  kind := .answer
  session := e.session &&& 0x7F
  count := countByte count
  dataFloor
  level := levelByte e.askedLevel
  fam := e.wantsFloor
  flag := e.leaving.discRequested
  measure := e.measuring.out.isSome
  base
  bitmap
  snrDb := e.peer.heardDb
  missed := e.rx.missed
  n := countByte (min e.queuedFrames 7)

/-- What the transmission being answered was is news of the path. -/
def closeHeard : Engine :=
  let (snr, e) := e.closeRx
  if snr.isSome then { e with peer := { e.peer with heardDb := snr } } else e

/-- The room for data after an answer. -/
def answerRoom (floor : Bool) (roomS : ℚ) : ℚ :=
  match e.config.maxBurstS with
  | some limit => min roomS (limit - e.ctlS floor)
  | none => roomS

/-- With no data after it, the bit says where this station's data can go. -/
def answerDataFloor (data : List TxFrame) : Bool :=
  match data.head? with
  | some f => e.timing.isFloor f.mode
  | none => e.dataFloorOnly

/-- An answer before the data laid out for it; in an open window, ending inside it. -/
def answerWith (floor : Bool) (data : List TxFrame) (keying : Keying) (windowEnd : Option ℚ) : Engine :=
  let dataFloor := e.answerDataFloor data
  let ((base, bitmap), e) := e.ackFields
  let frames := control (e.answerFrame dataFloor data.length base bitmap) floor :: data
  e.transmit frames
    { keying with notAfter := (windowEnd.map (· - e.airS frames)).orElse fun _ => keying.notAfter } none

/-- An answer, and this station's data in the room after it. -/
def sendAnswer [Libm] (floor : Bool) (roomS : ℚ) (keying : Keying) (windowEnd : Option ℚ) : Engine :=
  let e := e.closeHeard
  let (data, e) := e.dataFrames (some (e.answerRoom floor roomS))
  e.answerWith floor data keying windowEnd

/-- A frame of a connection or a probe, at the family's slowest rung that carries it. -/
def bodyFrame (kind : DataKind) (session : UInt8) (floor : Bool) (body : Except FrameError Bytes) :
    Option TxFrame :=
  let mode := e.timing.robustMode floor
  match body with
  | .error _ => none
  | .ok body =>
    match encodeData ⟨kind, 0, session, none⟩ body (e.timing.capacity mode) with
    | .error _ => none
    | .ok payload => some (dataFrame payload mode 0 0)

def acceptanceBody (answer : Answer) : ConnectBody where
  src := e.myCall
  dst := answer.remote
  caps := withLevel e.config.capabilities (levelByte e.askedLevel)
  version := protocolVersion
  snrDb := answer.snrDb
  turnaroundS := e.config.turnaroundS
  identifierS := e.closing.myIdentS

def sendAcceptance (answer : Answer) : Engine :=
  if e.session ≠ answer.session ∨ e.role ≠ .slave then e
  else match e.bodyFrame .connectAck e.session answer.floor (e.acceptanceBody answer).encode with
    | none => e
    | some frame => e.transmit [frame] (.answering answer 0) none

def sendProbeAnswer (answer : Answer) : Engine :=
  if e.state ≠ .idle then e
  else
    let body : ProbeBody := ⟨e.myCall, answer.remote, answer.snrDb, e.config.capabilities⟩
    match e.bodyFrame .probeAck 0 answer.floor body.encode with
    | none => e
    | some frame => e.transmit [frame] (.answering answer 0) none

/-- A `DISC_ACK`, or a DISC to a left session's header. -/
def discFrame (answer : Answer) : GrantFrame where
  kind := if answer.what = .discAck then .discAck else .disc
  session := answer.session &&& 0x7F
  snrDb := answer.snrDb

def countLeftAnswered : Engine :=
  { e with stats := { e.stats with leftAnswered := e.stats.leftAnswered + 1 } }

/-- A `DISC_ACK` with this station's closing identifier right behind it, or a DISC to
a left session's header. -/
def sendDiscAnswer (answer : Answer) : Engine :=
  let frames := [control (discFrame answer) answer.floor]
  if answer.what = .discAck then
    if e.closing.myIdentS > 0 then
      let sent := e.dropIdentifier.transmit frames (.answering answer e.closing.myIdentS) none
      sent.holdFor (sent.closingHold answer.start)
    else e.transmit frames (.answering answer 0) none
  else e.countLeftAnswered.transmit frames (.answering answer 0) none

/-! ### When -/

/-- Inside an open window: speak now if there is something to say, ending inside it. -/
def tryWindow [Libm] : Engine :=
  match e.slave.window with
  | none => e
  | some window =>
    if e.state ≠ .connected then e
    else
      let onAir := e.now + e.ownLatency
      if onAir < window.start - nano then
        { e with answer := some {
            what := .window, start := window.start, notAfter := window.stop, floor := window.floor } }.arm
          .answer (window.start - e.ownLatency)
      else if !(e.hasWork || e.leaving.discRequested) then e
      else
        let room := window.stop - onAir - e.ctlS window.floor
        if room < 0 then e
        else { e with slave := { e.slave with window := none, answeredEnd := e.slave.mEnd } }.sendAnswer
          window.floor room {} (some window.stop)

def keyAnswer [Libm] : Engine :=
  match e.answer with
  | none => e
  | some answer =>
    let e := { e with answer := none }
    if answer.what = .window then e.tryWindow
    else if e.tooLate answer.start then e.countForfeit answer
    else match answer.what with
      | .connectAck => e.sendAcceptance answer
      | .probeAck => e.sendProbeAnswer answer
      | .disc | .discAck => e.sendDiscAnswer answer
      | .ans | .window =>
        if e.state = .connected ∧ e.role = .slave then
          { e with slave := { e.slave with answeredEnd := some answer.anchor } }.sendAnswer
            answer.floor answer.roomS (.answering answer 0) none
        else e

/-- Decide an owed answer as soon as what it says is final: one to a call, a probe or
a DISC at once, a slot's once every data frame its header stated has been reported. -/
def decideIfFinal [Libm] : Engine :=
  match e.answer with
  | none => e
  | some answer =>
    if answer.what = .window ∨ (answer.what = .ans ∧ !e.heardAll) then e
    else (e.disarm .answer).keyAnswer

/-- Owe an answer in a slot, or forfeit it. Nothing is ever sent late. -/
def schedule [Libm] (answer : Answer) : Engine :=
  if e.tooLate answer.start then e.countForfeit answer
  else
    ({ e with answer := some answer }.arm .answer
      (max e.now (answer.start - e.ownLatency))).decideIfFinal

/-- A `DISC_ACK` to a DISC, or a DISC to a left session's header. -/
def answerDisc [Libm] (ctl : GrantFrame) (frame : Heard) (kind : GrantKind) : Engine :=
  let stop := frame.tEnd + ctl.count.toNat * e.frameS ctl.dataFloor
  let lastFloor := if ctl.count > 0 then ctl.dataFloor else frame.floor
  let start := e.slotStart stop lastFloor ctl.level.toNat e.peer.turnaroundS
  e.schedule {
    what := if kind = .discAck then .discAck else .disc
    start
    notAfter := start + e.config.slackS
    floor := ctl.fam || e.floorOnly
    session := ctl.session
    anchor := stop
    snrDb := some frame.snrDb }

end AetherHF.Link.Engine
