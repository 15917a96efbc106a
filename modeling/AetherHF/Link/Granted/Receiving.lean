import AetherHF.Link.Granted.Sending

/-! The other station's data: its frames placed in the transmission being received,
combined with earlier copies, put in order and delivered, and what this station's
control frames say of it. -/
namespace AetherHF.Link

/-- What a decoded data frame of this session was. -/
inductive Accepted where
  /-- Data, under its sequence number. -/
  | data (seq : UInt8)
  /-- A measurement frame: counted in the report, never delivered. -/
  | measurement
  | not_
  deriving DecidableEq

namespace Receiver

variable (rx : Receiver)

def restart : Receiver :=
  { rx with rx := [], t0 := none, grid := none, rxMeasure := false, rxPieces := false }

/-- The other station has moved on from its measurement. -/
def clearReport : Receiver := { rx with measured := none }

/-- A piece decoded: what the transmission's frames that did not decode were given
was of a block they are not. -/
def piecesHeard : Receiver :=
  if rx.rxPieces then rx
  else
    let guessed := rx.rx.filterMap fun r => if r.payload.isNone then r.seq else none
    { rx with
      rxPieces := true
      rx := rx.rx.map fun r => if r.payload.isNone then { r with seq := none } else r
      harq := guessed.foldl Keyed.erase rx.harq }

/-- The other station is measuring: `new`, the transmission being received is its
measurement; otherwise its last one was. -/
def measurementHeard (new : Bool) : Receiver :=
  if rx.rxMeasure then rx
  else
    { rx with
      rxMeasure := new
      measured := if new || rx.measured.isNone then some report else rx.measured
      harq := []
      rx := rx.rx.map fun r => if r.payload.isNone then { r with seq := none } else r }

/-- What the other station's opening control frame says of its own frames. -/
def noteOpening (ctl : GrantFrame) : Receiver :=
  if ctl.measure then rx.measurementHeard (ctl.count > 0)
  else if ctl.count > 0 then { rx with measured := none }
  else rx

/-- The block a decoded frame carries or completes; for a piece, the block once
every piece of it is heard. -/
def blockOf (header : DataHeader) (body : Bytes) : Option Bytes × Receiver :=
  match header.piece with
  | none => (some body, rx)
  | some piece =>
    if rx.buf.contains header.seq then (some body, rx)
    else
      let held := ((rx.pieces.get? header.seq).getD {}).place piece.offset.toNat body piece.last
      (held.body, { rx with pieces := rx.pieces.insert header.seq held })

/-- A whole block is kept until its turn; the first copy of it stays. -/
def keepBlock (seq : UInt8) (block : Bytes) : Receiver :=
  { rx with
    buf := if rx.buf.contains seq then rx.buf else rx.buf.insert seq block
    pieces := rx.pieces.erase seq
    harq := rx.harq.erase seq }

def keepWhole (seq : UInt8) : Option Bytes → Receiver
  | some block => rx.keepBlock seq block
  | none => rx

/-- The blocks whose turn it is, in order. -/
def deliverReady : Nat → Receiver → List Bytes × Receiver
  | 0, rx => ([], rx)
  | turns + 1, rx =>
    match rx.buf.get? rx.base with
    | none => ([], rx)
    | some data =>
      let (more, rx) := deliverReady turns { rx with
        buf := rx.buf.erase rx.base
        harq := rx.harq.erase rx.base
        pieces := rx.pieces.erase rx.base
        base := seqAfter rx.base 1 }
      (data :: more, rx)

/-- Whether `seq` is the furthest block seen. -/
def furthest (seq : UInt8) : Bool :=
  !rx.maxSeen.any fun seen => seqDistance seq rx.base ≤ seqDistance seen rx.base

def forgetSeen : Receiver :=
  if rx.maxSeen.any fun seen => seqDistance seen rx.base ≥ window then { rx with maxSeen := none } else rx

/-- A data frame of the window: the blocks it lets go, in order. -/
def takeBlock (header : DataHeader) (body : Bytes) : List Bytes × Receiver :=
  let rx := if rx.furthest header.seq then { rx with maxSeen := some header.seq } else rx
  let (block, rx) := rx.blockOf header body
  let rx := rx.keepWhole header.seq block
  let (ready, rx) := deliverReady rx.buf.length rx
  (ready, rx.forgetSeen)

/-- The bitmap, the numbers missing and the next new one. -/
def receiveWindow : UInt16 × List UInt8 × UInt8 :=
  let limit := (rx.maxSeen.map fun seen => seqDistance seen rx.base + 1).getD 0
  let held (i : Nat) : Bool := rx.buf.contains (seqAfter rx.base (UInt8.ofNat i))
  let bitmap := (List.range window).foldl (fun (bits : UInt16) i =>
    if held i then bits ||| (1 <<< UInt16.ofNat i) else bits) 0
  let missing := ((List.range window).filter fun i => !held i && i < limit).map fun i =>
    seqAfter rx.base (UInt8.ofNat i)
  (bitmap, missing, seqAfter rx.base (UInt8.ofNat limit))

/-! ### The sequence numbers a transmission's slots take -/

/-- The blocks a transmission laid out after an acknowledgement carries, in order. -/
def expectedOf (snap : AckSnapshot) : List UInt8 :=
  snap.missing ++ (List.range (maxBurst - snap.missing.length)).map fun i =>
    seqAfter snap.nextNew (UInt8.ofNat i)

/-- The one offset at which every anchor sits where it is expected; `none` when the
anchors disagree. -/
def offsetOf (expected : List UInt8) : Option ℤ → List (Nat × UInt8) → Option (Option ℤ)
  | offset, [] => some offset
  | offset, (slot, seq) :: anchors =>
    match expected.idxOf? seq with
    | none => none
    | some position =>
      let this : ℤ := (position : ℤ) - slot
      match offset with
      | none => offsetOf expected (some this) anchors
      | some o => if o = this then offsetOf expected (some o) anchors else none

/-- The sequence number of the frame in `slot`, from the frames that decoded. -/
def inferSeq (slot : Nat) : Option UInt8 :=
  let anchors := (rx.rx.filter fun r => r.payload.isSome).filterMap fun r => r.seq.map fun s => (r.slot, s)
  let snapshots := if rx.ackHistory.isEmpty then [⟨[], rx.base⟩] else rx.ackHistory
  snapshots.findSome? fun snap =>
    let expected := expectedOf snap
    match offsetOf expected none anchors with
    | none => none
    | some offset =>
      let place : ℤ := slot + offset.getD 0
      if place < 0 then none else expected[place.toNat]?

end Receiver

namespace Engine

variable (e : Engine)

def restartRx : Engine := { e with rx := e.rx.restart }

def noteOpening (ctl : GrantFrame) : Engine := { e with rx := e.rx.noteOpening ctl }

/-- Whether a frame sits where a data frame of the transmission being received can:
as its opening control frame stated, or in line with a frame of it that decoded. -/
def onGrid (frame : Heard) : Bool :=
  let floor := e.timing.isFloor frame.mode
  match e.rx.grid with
  | some grid =>
    let slotS := e.frameS grid.floor
    let k := roundTiesEven ((frame.tStart - grid.start) / slotS)
    floor = grid.floor && 0 ≤ k && k < grid.count &&
      |frame.tStart - (grid.start + k * slotS)| ≤ gridToleranceS
  | none =>
    match e.rx.rx.find? fun r => r.payload.isSome with
    | none => true
    | some reference =>
      let slotS := max (reference.frame.tEnd - reference.frame.tStart) micro
      let k := roundTiesEven ((frame.tStart - reference.frame.tStart) / slotS)
      floor = e.timing.isFloor reference.frame.mode &&
        |frame.tStart - (reference.frame.tStart + k * slotS)| ≤ gridToleranceS

/-- A control frame read opens the other station's transmission and states it. -/
def openRx (opener : Heard) (count : Nat) (floor : Bool) : Engine :=
  let e := { e with rx := { e.rx with t0 := some opener.tEnd, grid := some ⟨opener.tEnd, count, floor⟩ } }
  { e with rx := { e.rx with rx := e.rx.rx.filter fun r => e.onGrid r.frame } }

/-! ### Accepting -/

/-- A measurement frame: its bit in the report. -/
def acceptMeasure (seq : UInt8) : Engine :=
  let rx := e.rx.measurementHeard true
  { e with rx := if seq.toNat < window - 1
      then { rx with measured := rx.measured.map (· ||| (2 <<< seq.toUInt16)) } else rx }

def countReceived : Engine :=
  { e with stats := { e.stats with framesReceived := e.stats.framesReceived + 1 } }

def deliver (rx : Receiver) (ready : List Bytes) : Engine :=
  { e with
    rx
    stats := { e.stats with bytesDelivered := e.stats.bytesDelivered + ready.flatten.length }
    actions := e.actions ++ (ready.filter fun data => !data.isEmpty).map .deliver }

/-- A frame of the session's data; what it lets go is delivered. -/
def acceptData (header : DataHeader) (body : Bytes) (late : Bool) : Engine :=
  let e := e.countReceived
  let rx := if late then e.rx else e.rx.clearReport
  let rx := if header.piece.isSome && !late then rx.piecesHeard else rx
  if inWindow header.seq rx.base window then
    let (ready, rx) := rx.takeBlock header body
    e.deliver rx ready
  else { e with rx }

/-- Take a decoded data frame of this session. `late`: of a transmission already
over; its data is kept, a measurement frame is of a report already made. -/
def accept (payload : Bytes) (late : Bool) : Accepted × Engine :=
  match decodeData payload with
  | .error _ => (.not_, e)
  | .ok (header, body) =>
    if header.session ≠ e.session then (.not_, e)
    else if header.kind = .measure then
      if late then (.not_, e) else (.measurement, e.acceptMeasure header.seq)
    else if header.kind ≠ .data then (.not_, e)
    else (.data header.seq, e.acceptData header body late)

/-- The record at `index`, changed. -/
def setRecord (index : Nat) (f : RxRecord → RxRecord) : Engine :=
  { e with rx := { e.rx with rx := e.rx.rx.modify index f } }

/-- The decoded payload of the record at `index`: kept if it is this session's data
or a measurement frame of it, the record dropped otherwise. -/
def keep (index : Nat) (payload : Bytes) : Option Nat × Engine :=
  let (accepted, e) := (e.setRecord index fun r => { r with payload := some payload }).accept payload false
  match accepted with
  | .data seq => (some index, e.setRecord index fun r => { r with seq := some seq })
  | .measurement => (some index, e.setRecord index fun r => { r with seq := none })
  | .not_ => (none, { e with rx := { e.rx with rx := e.rx.rx.eraseIdx index } })

def countFailed : Engine := { e with stats := { e.stats with framesFailed := e.stats.framesFailed + 1 } }

def countRescued : Engine :=
  { e with stats := { e.stats with harqRescues := e.stats.harqRescues + 1 } }

/-- A block's buffer, the copies combined into it, and their rung. -/
def hold (guess : UInt8) (entry : HarqBuffer × Nat × Nat) : Engine :=
  { e with rx := { e.rx with harq := e.rx.harq.insert guess entry } }

def combineWith (soft : SoftFrame) (index : Nat) (guess : UInt8) (buffer prev : HarqBuffer)
    (combines : Nat) : Option Nat × Engine :=
  match soft.decode (some prev) with
  | (some combined, _) => e.countRescued.keep index combined
  | (none, merged) =>
    (some index, (e.hold guess (if combines + 1 ≥ e.config.maxCombines
      then (buffer, 0, soft.mode) else (merged, combines + 1, soft.mode))).countFailed)

/-- A copy that did not decode alone, combined with what is held of its block; one
re-encoded at another mode starts over. -/
def combine (soft : SoftFrame) (index : Nat) (guess : UInt8) (buffer : HarqBuffer) :
    Option Nat × Engine :=
  match (e.rx.harq.get? guess).filter fun h => h.2.2 = soft.mode with
  | none => (some index, (e.hold guess (buffer, 0, soft.mode)).countFailed)
  | some (prev, combines, _) =>
    (e.setRecord index fun r => { r with combined := true }).combineWith soft index guess buffer prev combines

/-- The place of a frame in the transmission being received. -/
def slotOf (frame : Heard) : Nat :=
  let t0 := e.rx.t0.getD frame.tStart
  (roundTiesEven ((frame.tStart - t0) / max (frame.tEnd - frame.tStart) micro)).toNat

def file (frame : Heard) : Engine :=
  { e with rx := { e.rx with
    t0 := some (e.rx.t0.getD frame.tStart)
    rx := e.rx.rx ++ [⟨frame, e.slotOf frame, none, none, false⟩] } }

/-- A frame filed that did not decode alone, its sequence number inferred from its slot. -/
def takeGuessed (soft : SoftFrame) (index : Nat) (guess : Option UInt8) (buffer : HarqBuffer) :
    Option Nat × Engine :=
  let e := e.setRecord index fun r => { r with seq := guess }
  match guess.filter fun g => inWindow g e.rx.base window with
  | none => (some index, e.countFailed)
  | some guess => e.combine soft index guess buffer

def takeFiled (soft : SoftFrame) (index slot : Nat) : Option Bytes × HarqBuffer → Option Nat × Engine
  | (some payload, _) => e.keep index payload
  | (none, buffer) =>
    -- a measurement frame is never sent again, and a piece has no slot of its own
    if e.rx.rxMeasure || e.rx.rxPieces || !e.rx.pieces.isEmpty then (some index, e.countFailed)
    else e.takeGuessed soft index (e.rx.inferSeq slot) buffer

/-- A data frame of the transmission being received: decoded alone, or combined with
an earlier copy of its block. The place of its record, if it has one. -/
def takeData (soft : SoftFrame) : Option Nat × Engine :=
  let frame := Heard.of soft
  if (soft.decode none).1.isNone && !e.onGrid frame then (none, e.countFailed)
  else (e.file frame).takeFiled soft e.rx.rx.length (e.slotOf frame) (soft.decode none)

/-- What `takeData` filed, for `lastData`. -/
def noteData (index : Option Nat) : Engine :=
  match index.bind fun i => e.rx.rx[i]? with
  | none => e
  | some r => { e with lastData := some ⟨r.seq, r.combined, r.combined && r.payload.isSome⟩ }

/-! ### What was heard -/

/-- A count this station can believe, from the data frames of a transmission. -/
def statedCount (records : List RxRecord) : Option Nat :=
  (records.filterMap fun r => match r.frame.follows with
    | some f => if r.payload.isSome && !r.combined && f < maxFollows then some (r.slot + 1 + f) else none
    | none => none).max?

/-- What this station heard of the other's transmission being closed: the SNR of it. -/
def observe (records : List RxRecord) : Option ℚ × Engine :=
  let snrs := (records.filter fun r => r.payload.isSome || r.frame.trusted).map fun r => r.frame.snrDb
  let last := records.reverse.find? fun r => r.payload.isSome
  let stated := match e.rx.grid with
    | some grid => some grid.count
    | none => statedCount records
  let missed := match stated with
    | none => missedUnknown
    | some stated => UInt8.ofNat (min ((List.range stated).filter fun k =>
        !records.any fun r => r.slot = k).length maxData)
  let snr := if snrs.isEmpty then none else some (snrs.sum / snrs.length)
  (snr, { e with rx := { e.rx with
    missed
    lastRxMode := match last with
      | some r => some r.frame.mode
      | none => e.rx.lastRxMode } })

/-- What is left of the transmission being received goes to the account. -/
def closeRx : Option ℚ × Engine :=
  let (snr, e) := { e with rx := { e.rx with rx := [] } }.observe e.rx.rx
  (snr, e.restartRx)

/-- What a control frame says this station has received, remembered for the slot
inference of the copies sent after it. -/
def ackFields : (UInt8 × UInt16) × Engine :=
  let (bitmap, missing, nextNew) := e.rx.receiveWindow
  ((e.rx.base, e.rx.measured.getD bitmap),
    { e with rx := { e.rx with ackHistory := (⟨missing, nextNew⟩ :: e.rx.ackHistory).take 2 } })

/-- Every data frame the header being answered stated has been reported. -/
def heardAll : Bool :=
  match e.rx.grid, e.slave.grant with
  | some grid, some _ => (List.range grid.count).all fun k => e.rx.rx.any fun r => r.slot = k
  | _, _ => false

end Engine

end AetherHF.Link
