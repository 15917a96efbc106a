import AetherHF.Link.Granted.Master

/-! The slave: the master's transmissions told apart, and the slot each grants. -/
namespace AetherHF.Link.Engine

variable (e : Engine)

def forgetGrant : Engine := { e with slave := { e.slave with grant := none, mEnd := none, window := none } }

def dropAnswer : Engine := { e with answer := none }.disarm .answer

/-- The master transmission being received is over and another begins. -/
def nextTransmission : Engine :=
  let e := e.restartRx.forgetGrant
  if e.answer.any fun a => a.what = .ans ∨ a.what = .window then e.dropAnswer else e

/-- A frame of a transmission this station has answered already, decoded late. -/
def answered (frame : Heard) : Bool := e.slave.answeredEnd.any fun a => frame.tEnd ≤ a + micro

/-- The transmission ending at `mEnd` is not answered yet. -/
def owed (mEnd : ℚ) : Bool := e.slave.answeredEnd.all fun a => |mEnd - a| > micro

/-- Place a frame of the master's among its transmissions: `false` for one of a
transmission already answered, and for one that cannot be the master's. -/
def placed (frame : Heard) (decoded : Bool) : Bool × Engine :=
  if e.answered frame then (false, e)
  else match e.slave.mEnd with
    | none => (true, e)
    | some mEnd =>
      if frame.tStart ≥ mEnd - 1 / 1000 then
        -- the master keys only after the slot
        if e.owed mEnd && !decoded then (false, e) else (true, e.nextTransmission)
      else (true, e)

def setWindow (window : Option Window) : Engine := { e with slave := { e.slave with window } }

/-- The slot the master transmission being received grants. What the master can change
is taken only from that transmission's own header. -/
def scheduleSlave [Libm] : Engine :=
  match e.slave.mEnd with
  | none => e
  | some mEnd =>
    if e.state ≠ .connected then e
    else if e.slave.answeredEnd.any fun a => |mEnd - a| < micro then e
    else
      let grant := e.slave.grant
      let level := (grant.map fun g => g.level.toNat).getD 0
      let start := e.slotStart mEnd e.slave.mLastFloor level e.peer.turnaroundS
      let floor := e.slave.ansSticky
      match grant.filter fun g => g.flag with
      | some g =>
        let window := e.windowS e.slave.grantFloor g.n.toNat
        let e := (e.setWindow (some ⟨start, start + window, floor⟩)).dropAnswer
        if e.hasWork || e.leaving.discRequested then e.tryWindow else e
      | none =>
        let roomS := (grant.map fun g => g.n.toNat * e.frameS g.slotFloor).getD 0
        (e.setWindow none).schedule {
          what := .ans
          start
          notAfter := start + e.config.slackS
          floor
          session := e.session
          anchor := mEnd
          roomS }

/-- What a header says of its transmission and of the slot after it. -/
def takeGrant (ctl : GrantFrame) (frame : Heard) : Engine :=
  { e with slave := { e.slave with
      ansSticky := ctl.fam || e.floorOnly
      grant := some ctl
      grantFloor := frame.floor
      mEnd := some (frame.tEnd + ctl.count.toNat * e.frameS ctl.dataFloor)
      mLastFloor := if ctl.count > 0 then ctl.dataFloor else frame.floor } }

/-- A header read: it opens the master's transmission and says where it ends. -/
def takeHeader [Libm] (ctl : GrantFrame) (frame : Heard) : Engine :=
  let e := (e.openRx frame ctl.count.toNat ctl.dataFloor).noteOpening ctl
  ((e.takeAck ctl true).takeGrant ctl frame).scheduleSlave

def slaveControl [Libm] (ctl : GrantFrame) (frame : Heard) : Engine :=
  match e.placed frame true with
  | (false, e) => if ctl.kind = .header then e.takeAck ctl false else e
  | (true, e) =>
    let e := ((e.heard frame).measureLateness frame).takeReading ctl.snrDb
    match ctl.kind with
    | .disc => (e.endSession .peerDisconnected true).answerDisc ctl frame .discAck
    | .header => e.takeHeader ctl frame
    | .answer | .discAck => e

/-- Where the master's transmission ends, with its header unread. -/
def anchorAt (mEnd : ℚ) (floor : Bool) : Engine :=
  { e with slave := { e.slave with mEnd := some mEnd, mLastFloor := floor } }

/-- A data frame decoded: with the header unread, the transmission ends where a frame
that decoded alone says. -/
def slaveDecoded [Libm] (frame : Heard) (combined : Bool) : Engine :=
  let e := (e.heard frame).measureLateness frame
  match frame.follows.filter fun f => e.slave.mEnd.isNone && !combined && f < maxFollows with
  | none => e
  | some follows =>
    (e.anchorAt (frame.tEnd + follows * (frame.tEnd - frame.tStart))
      (e.timing.isFloor frame.mode)).scheduleSlave

def slaveData [Libm] (soft : SoftFrame) (frame : Heard) (decoded : Bool) : Engine :=
  match e.placed frame decoded with
  | (false, e) => e.acceptLate soft decoded
  | (true, e) =>
    let (index, e) := e.takeData soft
    let e := e.noteData index
    (match e.decodedAt index with
      | some r => e.slaveDecoded frame r.combined
      | none => e).decideIfFinal

end AetherHF.Link.Engine
