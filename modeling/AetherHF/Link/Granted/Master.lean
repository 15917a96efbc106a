import AetherHF.Link.Granted.Call

/-! The master: what it takes from the slot it granted, how it closes the slot, and
what it keys next. -/
namespace AetherHF.Link.Engine

variable (e : Engine)

/-! ### In the slot -/

/-- How far past its slot's latest start an answer began. -/
def noteLateness (frame : Heard) : Engine :=
  match e.slot with
  | none => e
  | some slot =>
    if slot.openWindow then e
    else
      let late := frame.tStart - slot.start - e.config.slackS
      { e with master := { e.master with
          peerLateS := if late > e.master.peerLateS then late
            else max (max 0 late) (e.master.peerLateS - 1 / 10) } }

/-- The slave's `DISC_ACK`: its closing identifier follows it. -/
def closeAcknowledged (frame : Heard) : Engine :=
  if e.state = .disconnecting then
    (e.stateEnd (frame.tEnd + e.peer.identifierS) frame.floor).endSession
      (if e.leaving.peerLeft then .peerDisconnected else .closed) false
  else e

/-- The slave has left: the master closes with a DISC of its own. -/
def slaveLeft (frame : Heard) : Engine :=
  { e with leaving := { e.leaving with peerLeft := true }, state := .disconnecting }.stateEnd
    frame.tEnd frame.floor

/-- What an answer says of the slave and asks for. -/
def takeWishes (ctl : GrantFrame) (frame : Heard) : Engine :=
  { e with
    master := { e.master with
      slaveWant := some ctl.n.toNat
      levelAsked := ctl.level.toNat
      hdrFloor := ctl.fam || e.floorOnly
      possible := .of frame.floor
      slaveLeaves := ctl.flag
      slaveFloorOnly := if ctl.count = 0 then ctl.dataFloor else e.master.slaveFloorOnly }
    leaving := if ctl.flag && e.leaving.leaveSince.isNone
      then { e.leaving with leaveSince := some e.now } else e.leaving }

/-- What was heard is to be acknowledged. -/
def oweAck : Engine := { e with master := { e.master with ackOwed := true } }

def takeAnswer [Libm] (ctl : GrantFrame) (frame : Heard) : Engine :=
  let e := ((e.noteLateness frame).takeAck ctl true).takeWishes ctl frame
  let e := (e.openRx frame ctl.count.toNat ctl.dataFloor).noteOpening ctl
  let e := if ctl.count > 0 || ctl.measure then e.oweAck else e
  let stop := frame.tEnd + ctl.count.toNat * e.frameS ctl.dataFloor
  e.stateEnd stop (if ctl.count > 0 then ctl.dataFloor else frame.floor)

def masterControl [Libm] (ctl : GrantFrame) (frame : Heard) : Engine :=
  if !e.inSlot frame then e
  else
    let e := (e.heard frame).takeReading ctl.snrDb
    match ctl.kind with
    | .discAck => e.closeAcknowledged frame
    | .disc => e.slaveLeft frame
    | .header => e
    | .answer => e.takeAnswer ctl frame

/-- A data frame of an earlier slot or transmission, decoded late: what it carries is
kept, its timing is not. -/
def acceptLate (soft : SoftFrame) (decoded : Bool) : Engine :=
  if decoded then
    match (soft.decode none).1 with
    | some payload => (e.accept payload true).2
    | none => e
  else e

/-- The record at a place decoded. -/
def decodedAt (index : Option Nat) : Option RxRecord :=
  (index.bind fun i => e.rx.rx[i]?).filter fun r => r.payload.isSome

def masterData [Libm] (soft : SoftFrame) (frame : Heard) (decoded : Bool) : Engine :=
  if !e.inSlot frame then e.acceptLate soft decoded
  else
    let (index, e) := e.takeData soft
    let e := e.noteData index
    match e.decodedAt index with
    | none => e
    | some r =>
      let e := (e.heard frame).oweAck
      match frame.follows.filter fun f => f < maxFollows && !r.combined with
      | some follows =>
        -- a count rescued with its block is not believed
        e.stateEnd (frame.tEnd + follows * (frame.tEnd - frame.tStart)) (e.timing.isFloor frame.mode)
      | none => { e with slot := e.slot.map fun (s : Slot) => { s with heard := true } }

/-! ### Closing the slot -/

/-- The slot was answered, or was an open window nobody needed. -/
def slotHeard (slot : Slot) : Engine :=
  let run := e.master.answeredRun + 1
  let lower := run ≥ e.config.onTimeToLower ∧ e.master.silenceLevel > 0
  { e with master := { e.master with
      silent := 0
      answeredRun := if lower then 0 else run
      silenceLevel := if lower then e.master.silenceLevel - 1 else e.master.silenceLevel
      idleWindows := if slot.openWindow then e.master.idleWindows + 1 else 0 } }

/-- What an unheard answer would have said of the blocks sent is unknown. -/
def forgetSent : Engine :=
  let unacked := e.unacked
  { e with tx := { e.tx with
    records := e.tx.records.map fun r => if r.seq ∈ unacked then { r with unknown := true } else r } }

def countSilent : Engine :=
  { e with
    stats := { e.stats with silentSlots := e.stats.silentSlots + 1 }
    master := { e.master with silent := e.master.silent + 1, answeredRun := 0 } }

/-- Silence widens the gap, a level at a time. -/
def raiseLevel : Engine :=
  if e.master.silent ≥ e.config.silenceLevelsAfter ∧ e.master.silenceLevel < 3
  then { e with master := { e.master with silenceLevel := e.master.silenceLevel + 1 } } else e

def stepRateDown : Engine := { e with rate := e.rate.silent e.config.silenceStep }

def slotSilent (slot : Slot) : Engine :=
  let e := e.countSilent.measurementUnheard
  let e := if slot.data && e.config.holdUnknown then e.forgetSent else e
  let e := e.raiseLevel
  let e := if slot.data then e.stepRateDown else e
  if e.master.silent > e.config.maxRetries then e.endSession .noResponse false else e

/-- Which of the last slots were silent. -/
def recallSlot (slot : Slot) : Engine :=
  let recent := e.master.recentSilent ++ [!slot.heard]
  { e with master := { e.master with
    recentSilent := recent.drop (recent.length - e.config.floorAnswerMemory) } }

/-- An open window nobody spoke in. -/
def countIdleWindow : Engine :=
  { e with master := { e.master with idleWindows := e.master.idleWindows + 1 } }

/-- What the slave sent in the slot goes to the account; silence is counted and
stepped down from. -/
def closeSlot : Engine :=
  match e.slot with
  | none => e
  | some slot =>
    let e := { e with slot := none }.closeRx.2
    let e := if slot.openWindow then e else e.recallSlot slot
    if slot.heard then e.slotHeard slot
    else if slot.openWindow then e.countIdleWindow
    else e.slotSilent slot

/-! ### What the master keys -/

/-- Data frames granted, open window, window index. -/
def grantSize (rung : Nat) : Nat × Bool × Nat :=
  let frame := e.frameS (e.timing.isFloor rung)
  let fit := min e.config.maxDataFrames maxData
  let fit := match e.config.maxBurstS with
    | some limit => min fit (whole ((limit - e.ctlS true - e.peer.identifierS) / frame))
    | none => fit
  match e.master.slaveWant with
  | none => (min e.config.firstGrant fit, false, 0)
  | some want =>
    if want > 0 then (min want fit, false, 0)
    else if !e.hasWork && !e.leaving.discRequested && e.now - e.peer.heardAt < e.config.keepaliveS
    then (0, true, min e.config.windowDoublings e.master.idleWindows)
    else (0, false, 0)

/-- Whether this transmission may go without its header: data only, nothing granted
beyond an answer, the gap at level 0, nothing to acknowledge, the last slot heard,
and the answer's family one the slave surely holds. -/
def elide (n : Nat) (openWindow wanted : Bool) : Bool :=
  e.config.elide && !openWindow && n = 0 && e.master.slaveWant = some 0 && e.master.silent = 0 &&
    e.level = 0 && e.master.possible = .of wanted && !e.master.ackOwed && e.hasWork

/-- What the data itself says of leaving the header out: some of it, no more than
the counts of it can anchor, a copy that decodes alone, none above the own choice. -/
def elideData (hdrFloor : Bool) (data : List TxFrame) : Bool :=
  !data.isEmpty && data.length ≤ maxFollows + 1 &&
    data.any (fun f => readableAloneRvs.contains f.rv) &&
    !(e.config.headerAboveRecommendation && !hdrFloor && data.any fun f => f.mode > e.ownChoice)

/-- What a header says and what it grants. -/
structure HeaderPlan where
  n : Nat
  openWindow : Bool
  index : Nat
  wanted : Bool
  hdrFloor : Bool
  slotFloor : Bool
  elide : Bool

def headerPlan : HeaderPlan :=
  let sized := e.timing.robustMode e.master.slaveFloorOnly
  let (n, openWindow, index) := e.grantSize sized
  let wanted := e.wantsFloor || e.master.silent ≥ 2 || e.master.recentSilent.any id
  { n, openWindow, index, wanted
    hdrFloor := e.master.hdrFloor || e.master.silent ≥ 2 || e.floorOnly
    slotFloor := e.timing.isFloor sized
    elide := e.elide n openWindow wanted }

/-- The header of a transmission of `data`. -/
def headerFrame (plan : HeaderPlan) (data : List TxFrame) (level : Nat) (base : UInt8)
    (bitmap : UInt16) : GrantFrame where
  kind := .header
  session := e.session &&& 0x7F
  count := countByte data.length
  dataFloor := data.head?.any fun f => e.timing.isFloor f.mode
  level := levelByte level
  fam := plan.wanted
  flag := plan.openWindow
  measure := e.measuring.out.isSome
  base
  bitmap
  snrDb := e.peer.heardDb
  slotFloor := plan.slotFloor
  missed := e.rx.missed
  n := countByte (if plan.openWindow then plan.index else plan.n)

/-- The header before the data, unless it is left out. -/
def headed (plan : HeaderPlan) (data : List TxFrame) (elide : Bool) (level : Nat) :
    List TxFrame × Engine :=
  if elide then
    (data, { e with stats := { e.stats with headersElided := e.stats.headersElided + 1 } })
  else
    let ((base, bitmap), e) := e.ackFields
    (control (e.headerFrame plan data level base bitmap) plan.hdrFloor :: data,
      { e with master := { e.master with ackOwed := false } })

/-- The slot a header, or the data it was left out of, grants. -/
def headerSlot (plan : HeaderPlan) (data : List TxFrame) (level : Nat) : Slot :=
  let floors := e.master.possible.insert plan.wanted
  let dataFloor := data.head?.any fun f => e.timing.isFloor f.mode
  { kind := .header
    grantS := if plan.openWindow then e.windowS plan.hdrFloor plan.index
      else floors.maxOf e.ctlS + plan.n * e.frameS plan.slotFloor
    lastFloor := if data.isEmpty then plan.hdrFloor else dataFloor
    answerFloors := if !plan.openWindow && plan.n > 0 then floors.insert plan.slotFloor else floors
    level
    granterTurnaroundS := e.config.turnaroundS
    openWindow := plan.openWindow
    data := !data.isEmpty && !e.measuring.out.isSome
    granted := plan.n }

/-- The data a header goes before. -/
def headerData [Libm] (plan : HeaderPlan) : List TxFrame × Engine :=
  if plan.openWindow then ([], e)
  else e.dataFrames (e.config.maxBurstS.map fun limit => limit - e.ctlS plan.hdrFloor)

/-- Every family the slave may hold to answer in, once it may have read the header. -/
def grantFamily (plan : HeaderPlan) (elide : Bool) : Engine :=
  if elide then e
  else { e with master := { e.master with possible := e.master.possible.insert plan.wanted } }

/-- Key the data laid out, headed or not. -/
def keyHeader (plan : HeaderPlan) (data : List TxFrame) : Engine :=
  let elide := plan.elide && !e.measuring.out.isSome && e.elideData plan.hdrFloor data
  let level := if elide then 0 else e.level
  let e := e.grantFamily plan elide
  let slot := e.headerSlot plan data level
  let (frames, e) := e.headed plan data elide level
  e.keyGranting slot frames

def sendHeader [Libm] : Engine :=
  let plan := e.headerPlan
  let (data, e) := e.headerData plan
  e.keyHeader plan data

/-- DISC grants the `DISC_ACK`'s slot, the slave's closing identifier's time included. -/
def sendDisc : Engine :=
  let wanted := e.wantsFloor || e.master.silent ≥ 1
  let floor := e.master.hdrFloor || e.master.silent ≥ 1 || e.floorOnly
  let ctl : GrantFrame := {
    kind := .disc, session := e.session &&& 0x7F, level := levelByte e.level, fam := wanted
    ident := e.peer.identifierS > 0, snrDb := e.peer.heardDb }
  let floors := e.master.possible.insert wanted
  let slot : Slot := {
    kind := .disc
    grantS := floors.maxOf e.ctlS + e.peer.identifierS
    lastFloor := floor
    answerFloors := floors
    level := e.level
    granterTurnaroundS := e.config.turnaroundS }
  { e with
    leaving := { e.leaving with discTries := e.leaving.discTries + 1 }
    master := { e.master with possible := floors } }.keyGranting slot [control ctl floor]

/-! ### Closing the session -/

/-- What a closing master leaves behind, said once as it decides to close. -/
def sayLeft (why : LeaveWhy) : Engine :=
  let own := if e.master.slaveLeaves then 0 else e.tx.undeliveredBytes
  let theirs := e.master.slaveWant.getD 0
  if own > 0 ∨ theirs > 0 then e.event (.left own theirs why) else e

def waitToLeave (patience since : ℚ) : Engine :=
  { e with leaving := { e.leaving with patienceUntil := some patience, leaveSince := some since } }

/-- Whether the master may send its DISC now: what is queued gone, or the drain's
limit or the patience over. -/
def canLeave : Bool × Engine :=
  let ownDone := e.tx.allAcknowledged || e.master.slaveLeaves
  if ownDone && e.master.slaveWant.getD 0 = 0 && e.rx.maxSeen.isNone then (true, e)
  else
    let patience := e.leaving.patienceUntil.getD (e.now + e.discPatience)
    let since := e.leaving.leaveSince.getD e.now
    let e := e.waitToLeave patience since
    if e.now ≥ since + e.leaving.leaveDrainS then (true, e.sayLeft (.asked (e.now - since)))
    else if e.now ≥ patience then (true, e.sayLeft (.patience e.discPatience))
    else (false, e)

def sendDiscOrEnd : Engine :=
  if e.leaving.discTries ≥ e.config.discRetries then
    e.endSessionUnread (if e.leaving.peerLeft then .peerDisconnected else .closedNoDiscAck)
  else e.sendDisc

/-- The slot is over: the master keys again. -/
def proceed [Libm] : Engine :=
  if e.role ≠ .master ∨ !e.state.inSession then e
  else
    let e := e.closeSlot
    if e.state = .idle then e
    else if e.state = .disconnecting then e.sendDiscOrEnd
    else if e.leaving.discRequested || e.master.slaveLeaves then
      match e.canLeave with
      | (true, e) => { e with state := .disconnecting }.sendDisc
      | (false, e) => e.sendHeader
    else e.sendHeader

end AetherHF.Link.Engine
