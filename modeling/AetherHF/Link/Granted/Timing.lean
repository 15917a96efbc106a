import AetherHF.Link.Granted.State

/-! What the engine reads off its state: the slot as both stations reckon it, the
lengths of frames and exchanges, the rung and the family of its own frames. -/
namespace AetherHF.Link

/-- The rate controller on an air's table. -/
def rateFor (timing : PhyTiming) : RateController :=
  let thresholds := if timing.modeThresholdDb.isEmpty then awgnThresholdDb else timing.modeThresholdDb
  let payload := if timing.dataCapacity.isEmpty then List.replicate thresholds.length 0
    else timing.dataCapacity
  let rungs := List.range thresholds.length
  .forTable thresholds payload (rungs.map fun m => (timing.dataCapacity[m]?.map dataCapacity).getD 0)
    (rungs.map timing.dataFrameSFor) timing.floorModes timing.echoLimit

namespace PhyTiming

def robustIn (t : PhyTiming) (floor : Bool) : Option Nat :=
  (List.range t.dataCapacity.length).find? fun mode =>
    t.isFloor mode = floor && t.capacity mode ≥ connectBody8Bytes + 5

/-- The slowest mode of a family that carries a connect body; of the other family
when the floor has none. The source panics when neither has one. -/
def robustMode (t : PhyTiming) (floor : Bool) : Nat :=
  match t.robustIn floor with
  | some mode => mode
  | none => (t.robustIn false).getD 0

end PhyTiming

namespace Engine

variable (e : Engine)

/-! ### The slot -/

def budget (floor : Bool) : ℚ := e.config.decodeBudgetS.get floor

def ownLatency : ℚ := e.timing.txLatencyS

def levelS (level : Nat) : ℚ := e.config.levelsS (Fin.ofNat 4 (min level 3))

/-- Where the slot granted by a transmission ending at `stop` starts, as both
stations reckon it. -/
def slotStart (stop : ℚ) (floor : Bool) (level : Nat) (granterTurnaround : ℚ) : ℚ :=
  let gap := max (e.budget floor + e.config.keyS) granterTurnaround + e.config.guardS
  stop + gap + e.levelS level

/-- The earliest this station keys after the other's transmission ends at `stop`. -/
def after (stop : ℚ) (floor : Bool) (otherTurnaround : ℚ) : ℚ :=
  let lead := min e.config.keyS e.ownLatency
  stop + max (e.budget floor) (otherTurnaround - lead) + e.config.guardS

/-- How long after the other station's frames this station's radiation waits. -/
def peerWaitS : ℚ := max e.peer.turnaroundS e.config.answerGapS

/-- The smallest gap level at least `extra` long. -/
def levelFor (extra : ℚ) : Nat :=
  ((List.finRange 4).find? fun i => extra ≤ e.config.levelsS i + nano).elim 3 Fin.val

/-- The gap level this station asks for as the slave. -/
def askedLevel : Nat :=
  let gap := e.config.answerGapS
  if gap ≤ 0 then e.slave.needLevel
  else
    let base (floor : Bool) := max (e.budget floor + e.config.keyS) e.peer.turnaroundS
    max e.slave.needLevel (e.levelFor (gap - min (base false) (base true) - e.config.guardS))

/-- What a master grants, what a slave asks for. -/
def level : Nat :=
  if e.role = .master then max e.master.levelAsked e.master.silenceLevel else e.askedLevel

/-- Whether `now` is too late to start an answer due at `start` on time. -/
def tooLate (start : ℚ) : Bool := e.now > start - e.ownLatency + e.config.slackS + nano

/-! ### Lengths -/

def ctlS (floor : Bool) : ℚ := e.timing.controlFrameSFor floor

def frameS (floor : Bool) : ℚ :=
  match e.timing.floorDataFrameS with
  | some long => if floor then long else e.timing.dataFrameS
  | none => e.timing.dataFrameS

def robustFrameS (floor : Bool) : ℚ := e.timing.dataFrameSFor (e.timing.robustMode floor)

def windowS (floor : Bool) (index : Nat) : ℚ :=
  e.config.openWindowS.get floor * (2 ^ min index 16 : ℕ)

/-- Data frames of `frame` seconds one transmission may carry, one at least. -/
def burstCapacity (frame : ℚ) : Nat :=
  let count := min e.config.maxDataFrames maxData
  match e.config.maxBurstS with
  | some limit => if frame > 0 then min count (max (whole (limit / frame)) 1) else count
  | none => count

/-! ### The rung and the family -/

def cap : Nat :=
  match e.config.ceiling with
  | some c => min e.config.maxMode c
  | none => e.config.maxMode

def floorOnly : Bool := e.config.ceiling.any e.timing.isFloor

/-- The rate controller's choice once it has a reading, the initial rung before. -/
def ownChoice : Nat :=
  if e.rate.snrDb.isNone then min e.config.initialMode e.cap else min e.rate.choice e.cap

/-- The rung this station's data goes at: the pinned one, else its own choice. -/
def burstMode : Nat :=
  match e.tx.pinned with
  | some pinned => min pinned e.cap
  | none => e.ownChoice

/-- The rate controller's try: the rung one new frame of this transmission goes at. -/
def probeRung : Option Nat :=
  if e.tx.pinned.isSome then none else e.rate.probing.filter (· ≤ e.cap)

def ctlThreshold : ℚ := (e.timing.controlThresholdDb.getD defaultControlThresholdDb).1

/-- Whether this station needs the other's control frames on the floor. -/
def wantsFloor : Bool :=
  if e.timing.floorModes = 0 then false
  else if e.floorOnly || e.peer.heardRecent.isEmpty then true
  else match e.peer.heardRecent.min? with
    | some weakest => weakest < e.ctlThreshold + e.config.answerFloorMarginDb
    | none => true

def hopeless [Libm] (mode : Nat) : Bool :=
  match e.peer.snrDb, e.rate.thresholdDb mode with
  | some peer, some threshold =>
    let reach := threshold - 10 * Libm.log10 (max e.config.maxCombines 1 : ℕ)
    peer < reach - e.config.reencodeHopelessDb
  | _, _ => false

def fits (bodyLen mode : Nat) : Bool :=
  let cap := dataCapacity (e.timing.capacity mode)
  bodyLen = cap || bodyLen + 2 ≤ cap

/-- The rungs a stranded frame may move down to: usable, below its own, no faster
than `toMode` and of its family. -/
def slowerRungs (fromMode toMode : Nat) : List Nat :=
  e.rate.modes.filter fun mode =>
    mode < fromMode && mode ≤ toMode && mode < e.timing.dataCapacity.length &&
      e.timing.isFloor mode = e.timing.isFloor toMode

/-- The rung a stranded frame goes at whole from now on: the most robust it fits. -/
def reencodeTarget (bodyLen fromMode toMode : Nat) : Option Nat :=
  (e.slowerRungs fromMode toMode).find? (e.fits bodyLen)

/-- The rung a stranded frame goes at in pieces: of those it may move to, the one
that cuts it into the fewest, and of those the most robust. -/
def splitRung (bodyLen fromMode toMode : Nat) : Option Nat :=
  ((e.slowerRungs fromMode toMode).foldl (fun best mode =>
    if dataCapacity (e.timing.capacity mode) ≥ fragmentHeaderBytes + 3 then
      match pieces (List.replicate bodyLen 0) (e.timing.capacity mode), best with
      | .ok parts, some (_, count) => if parts.length < count then some (mode, parts.length) else best
      | .ok parts, none => some (mode, parts.length)
      | .error _, _ => best
    else best) (none : Option (Nat × Nat))).map Prod.fst

/-! ### Exchanges -/

/-- One whole exchange of the size in use, or an idle exchange's longest window. -/
def exchangeS : ℚ :=
  let burstFloor := e.timing.isFloor e.burstMode
  let peerFloor := e.rx.lastRxMode.map e.timing.isFloor
  let floor := burstFloor || peerFloor = some true || e.master.hdrFloor
  let frame := match peerFloor with
    | some f => max (e.frameS burstFloor) (e.frameS f)
    | none => e.frameS burstFloor
  let gap := e.slotStart 0 true 3 e.peer.turnaroundS + e.config.slackS
  let busy := 2 * (e.ctlS floor + e.burstCapacity frame * frame + gap)
  let idle := e.ctlS true + e.windowS true e.config.windowDoublings + 2 * gap
  max busy idle

def linkTimeout : ℚ := max e.config.linkTimeoutS (e.config.linkTimeoutExchanges * e.exchangeS)

def discPatience : ℚ := max e.config.discPatienceS (e.config.discPatienceExchanges * e.exchangeS)

/-- The latest the other station's closing identifier can be on the air, after a
`DISC_ACK` of this station's in a slot starting at `start`. -/
def closingHold (start : ℚ) : ℚ :=
  let latest := start + e.config.slackS + e.ctlS true + e.closing.myIdentS
  let wait := max (e.budget true) e.config.turnaroundS + e.config.guardS + e.config.levelsS 3
  latest + wait + e.config.keyS + e.config.slackS + e.peer.identifierS

/-! ### The call -/

def identFor (call : Text) : ℚ :=
  (Keyed.get? e.config.identifiers (Text.toAsciiUppercase call)).getD e.config.identifierS

def connectFloor : Bool :=
  if e.timing.floorModes > 0 && e.floorOnly then true
  else e.timing.floorModes > 0 && e.calling.connectTries % 2 = 0

/-- The gap level a call grants its acceptance: up one every second try. -/
def callLevel : Nat := min 3 (e.calling.connectTries / 2)

def families : Families := if e.timing.floorModes > 0 then .both else .of false

/-- The family an acceptance goes back in. -/
def acceptanceFloor (frame : Heard) : Bool :=
  if frame.floor || e.floorOnly then e.timing.floorModes > 0
  else if e.timing.floorModes = 0 then false
  else match e.rate.thresholdDb (e.timing.robustMode false) with
    | some t => frame.snrDb < t + e.config.floorAnswerMarginDb
    | none => false

/-- A frame of the other station's is of the slot this station granted last if it
began after the granting transmission ended. -/
def inSlot (frame : Heard) : Bool :=
  e.slot.any fun s => s.final_ && frame.tStart ≥ s.txEnd - nano

/-- When this station may key again. -/
def slotClose (slot : Slot) : ℚ :=
  match slot.statedEnd with
  | some stop => e.after stop slot.statedFloor e.peerWaitS
  | none => e.after (slot.endMax + e.master.peerLateS) slot.answerFloors.floor e.peerWaitS

end Engine

end AetherHF.Link
