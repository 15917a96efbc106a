import AetherHF.Link.Granted.Timing

/-! A station's own data: blocks cut from what `send` was given, sent again until
they are acknowledged, re-encoded or split when their rung strands them, and what
the other station's acknowledgements say of them. -/
namespace AetherHF.Link

/-- A measurement frame's filler, eight bytes a draw. -/
def fillerFrom : Nat → Draws → Bytes
  | 0, _ => []
  | n + 1, draws =>
    let (z, draws) := draws.nextU64
    (List.range 8).map (fun i => (z >>> UInt64.ofNat (8 * (7 - i))).toUInt8) ++ fillerFrom n draws

/-- A measurement frame's filler, from the session and the frame's index. -/
def measureBody (session index : UInt8) (length : Nat) : Bytes :=
  let seed := (0x4D45415355524500 : UInt64) ||| (session.toUInt64 <<< 8) ||| index.toUInt64
  (fillerFrom ((length + 7) / 8) ⟨seed⟩).take length

def carriesMeasurement (frames : List TxFrame) : Bool :=
  frames.any fun f => f.container = .data && dataKind f.payload = some .measure

namespace Sender

def record? (tx : Sender) (s : UInt8) : Option TxRecord := tx.records.find? fun r => r.seq = s

def modify (tx : Sender) (s : UInt8) (f : TxRecord → TxRecord) : Sender :=
  { tx with records := tx.records.modify (tx.records.findIdx fun r => r.seq = s) f }

def remove (tx : Sender) (s : UInt8) : Sender :=
  { tx with records := tx.records.filter fun r => r.seq ≠ s }

/-- `BTreeMap::insert`. -/
def insert (tx : Sender) (r : TxRecord) : Sender :=
  { tx with records := (tx.records.filter fun q => q.seq ≠ r.seq) ++ [r] }

/-- Blocks sent and not acknowledged, in the window's order. -/
def unacked (tx : Sender) : List UInt8 :=
  ((tx.records.filter fun r => !r.acked && r.sent).map fun r => r.seq).insertionSort
    fun a b => seqDistance a tx.base ≤ seqDistance b tx.base

/-- Payload bytes queued or sent and not yet acknowledged. -/
def pendingBytes (tx : Sender) : Nat :=
  tx.queue.length + ((tx.records.filter fun r => !r.acked).map fun r => r.body.length).sum

/-- Payload bytes the other station does not hold in order yet. -/
def undeliveredBytes (tx : Sender) : Nat :=
  tx.queue.length + (tx.records.map fun r => r.body.length).sum

def allAcknowledged (tx : Sender) : Bool := tx.queue.isEmpty && tx.records.all fun r => r.acked

/-- The lowest blocks go once they are acknowledged. -/
def release : Nat → Sender → Sender
  | 0, tx => tx
  | turns + 1, tx =>
    if tx.base ≠ tx.next ∧ (tx.record? tx.base).any fun r => r.acked then
      release turns { tx.remove tx.base with base := seqAfter tx.base 1 }
    else tx

/-- A block cut at `rung` from the front of the queue. -/
def cut (tx : Sender) (rung take : Nat) : Sender :=
  { tx.insert {
      seq := tx.next, body := tx.queue.take take, mode := rung, origin := rung, txCount := 0
      acked := false, reencoded := 0, unknown := false, pieces := none, pieceSends := [] } with
    queue := tx.queue.drop take
    next := seqAfter tx.next 1 }

end Sender

namespace TxRecord

/-- Given another codeword at a slower rung. -/
def reencode (r : TxRecord) (target : Nat) : TxRecord :=
  { r with mode := target, pieces := none, reencoded := r.reencoded + r.txCount, txCount := 0 }

/-- Sent in pieces from now on. -/
def split (r : TxRecord) (target : Nat) (parts : List (Piece × Bytes)) : TxRecord :=
  { r with
    mode := target
    pieceSends := List.replicate parts.length 0
    pieces := some parts
    reencoded := r.reencoded + r.txCount
    txCount := 0 }

end TxRecord

namespace Engine

variable (e : Engine)

def unacked : List UInt8 := e.tx.unacked

def hasWork : Bool :=
  !e.tx.queue.isEmpty || !e.unacked.isEmpty || (e.measuring.ask.isSome || e.measuring.out.isSome)

/-- Whether a new block can be cut for this transmission. -/
def canCut : Bool :=
  !e.tx.queue.isEmpty && e.measuring.ask.isNone && seqDistance e.tx.next e.tx.base < window

def queuedFrames : Nat :=
  let cap := max (dataCapacity (e.timing.capacity e.burstMode)) 1
  let unacked := ((e.unacked.filterMap e.tx.record?).map TxRecord.frames).sum
  unacked + (e.tx.queue.length + cap - 1) / cap + ((e.measuring.ask.map Prod.snd).getD 0)

/-- Whether this station's data can go only on the tone floor. -/
def dataFloorOnly : Bool :=
  let limit := match e.tx.pinned with
    | some pinned => min pinned e.cap
    | none => e.cap
  (e.timing.floorModes > 0 && e.timing.isFloor limit) ||
    (e.rate.snrDb.isSome && e.timing.isFloor e.burstMode)

/-! ### Stranded blocks -/

section
variable [Libm]

/-- The rungs a stranded block may go at in pieces are no faster than this. -/
def splitBound (asked : Option Nat) (stuck : Bool) (mode : Nat) : Option Nat :=
  let bound := if stuck then some ((asked.map fun b => min b (mode - 1)).getD (mode - 1)) else asked
  let bound := match bound, e.tx.pieceBound with
    | some b, some limit => some (min b limit)
    | bound, _ => bound
  bound.filter (· < mode)

/-- A block no rung up to the choice carries whole goes in pieces. -/
def splitStranded (r : TxRecord) (asked : Option Nat) (due : Nat) (spent stuck : Bool) : Engine :=
  match e.splitBound asked stuck r.mode with
  | none => e
  | some bound =>
    if !e.hopeless r.mode && !e.rate.refuses r.mode && r.pieces.isNone && r.txCount ≤ due then e
    else match e.splitRung r.body.length r.mode bound with
      | none => e
      | some target =>
        let below := r.mode - 1
        let pieceBound := if spent
          then some ((e.tx.pieceBound.map fun b => min b below).getD below) else e.tx.pieceBound
        let tx := { e.tx with pieceBound }
        match pieces r.body (e.timing.capacity target) with
        | .error _ => { e with tx }
        | .ok parts =>
          { e with
            tx := tx.modify r.seq fun r => r.split target parts
            stats := { e.stats with framesSplit := e.stats.framesSplit + 1 } }

/-- An unacknowledged block whose rung the path does not carry comes down. -/
def restrand (chosen : Nat) (asked : Option Nat) (s : UInt8) : Engine :=
  match e.tx.record? s with
  | none => e
  | some r =>
    let due := if e.rate.refuses r.mode then 1
      else if e.hopeless r.mode then e.config.reencodeEarlyAfter else e.config.maxCombines
    let spent := r.pieces.isSome && r.txCount ≥ due
    let stuck := spent || (r.pieces.isSome && e.tx.pieceBound.any (r.mode > ·))
    if (r.txCount ≥ due && chosen < r.mode) || stuck then
      match e.reencodeTarget r.body.length r.mode chosen with
      | some target =>
        { e with
          tx := e.tx.modify s fun r => r.reencode target
          stats := { e.stats with framesReencoded := e.stats.framesReencoded + 1 } }
      | none => e.splitStranded r asked due spent stuck
    else e

def restrandAll (chosen : Nat) (asked : Option Nat) (seqs : List UInt8) : Engine :=
  seqs.foldl (fun (e : Engine) s => e.restrand chosen asked s) e

end

/-! ### The transmission's frames -/

/-- The bytes of the next block cut at `rung`; never one short of full, the one
length the container cannot carry. -/
def cutTake (rung : Nat) : Nat :=
  let cap := dataCapacity (e.timing.capacity rung)
  let take := min cap e.tx.queue.length
  let take := (e.tx.pinBody.map fun body => min take body).getD take
  if take + 1 = cap then take - 1 else take

/-- New blocks, the first at the try's rung, until the transmission is full. -/
def cutNew (mode room : Nat) : Nat → Option Nat → List UInt8 → Engine → List UInt8 × Engine
  | 0, _, seqs, e => (seqs, e)
  | turns + 1, probe, seqs, e =>
    if seqs.length < room ∧ seqDistance e.tx.next e.tx.base < window ∧ !e.tx.queue.isEmpty then
      let rung := probe.getD mode
      cutNew mode room turns none (seqs ++ [e.tx.next]) { e with tx := e.tx.cut rung (e.cutTake rung) }
    else (seqs, e)

def wholeHeader (r : TxRecord) : DataHeader := ⟨.data, r.seq, e.session, none⟩

def dataFrame (payload : Bytes) (mode rv follows : Nat) : TxFrame :=
  ⟨.data, payload, mode, rv, false, follows⟩

/-- A block goes once more. -/
def countCopy (r : TxRecord) : Engine :=
  { e with
    tx := e.tx.modify r.seq fun r => { r with txCount := r.txCount + 1 }
    stats := if r.sent then { e.stats with framesResent := e.stats.framesResent + 1 } else e.stats }

/-- Every copy of a block, re-encoded or not, is charged to the rung it was cut at. -/
def chargeCopy (r : TxRecord) : Engine :=
  { e with tx := { e.tx with
      sentCopies := e.tx.sentCopies ++ [(r.seq, r.origin, e.frameS (e.timing.isFloor r.mode))] } }

/-- The next copy of the block at place `i` of the transmission's `count`. -/
def layCopy (count : Nat) : List TxFrame × Engine → UInt8 × Nat → List TxFrame × Engine
  | (frames, e), (s, i) =>
    match e.tx.record? s with
    | none => (frames, e)
    | some r =>
      match encodeData (e.wholeHeader r) r.body (e.timing.capacity r.mode) with
      | .error _ => (frames, e.countCopy r)
      | .ok payload =>
        (frames ++ [dataFrame payload r.mode (rvSequence.getD (r.txCount % rvSequence.length) 0)
          (min (count - 1 - i) maxFollows)], (e.countCopy r).chargeCopy r)

def layCopies (seqs : List UInt8) : List TxFrame × Engine :=
  let (frames, e) := seqs.zipIdx.foldl (layCopy seqs.length) ([], e)
  (frames, { e with stats := { e.stats with framesSent := e.stats.framesSent + frames.length } })

/-- The pieces of a block that have gone least, as many as there is room for. -/
def leastSent (sends : List Nat) (least room : Nat) : List Nat :=
  ((sends.zipIdx.filter fun p => p.1 = least).map Prod.snd).take room

/-- Each piece of a block goes once before any again, and the blocks go in order. -/
def choosePieces (room : Nat) : List UInt8 → List (UInt8 × Nat) → Engine → List (UInt8 × Nat) × Engine
  | [], chosen, e => (chosen, e)
  | s :: rest, chosen, e =>
    match e.tx.record? s with
    | none => choosePieces room rest chosen e
    | some r =>
      match r.pieceSends.min? with
      | none => choosePieces room rest chosen e
      | some least =>
        let take := leastSent r.pieceSends least (room - chosen.length)
        if take.isEmpty then (chosen, e)
        else
          let resent := if least > 0 then take.length else 0
          choosePieces room rest (chosen ++ take.map fun k => (s, k)) { e with
            tx := e.tx.modify s fun r => { r with
              txCount := r.txCount + 1
              pieceSends := r.pieceSends.mapIdx fun k sends => if k ∈ take then sends + 1 else sends }
            stats := { e.stats with framesResent := e.stats.framesResent + resent } }

/-- The frame of a chosen piece at place `i` of the transmission's `count`. -/
def layPiece (count : Nat) (place : (UInt8 × Nat) × Nat) : Option TxFrame := do
  let r ← e.tx.record? place.1.1
  let (piece, bytes) ← r.pieces.bind fun parts => parts[place.1.2]?
  match encodeData ⟨.data, r.seq, e.session, some piece⟩ bytes (e.timing.capacity r.mode) with
  | .error _ => none
  | .ok payload => some (dataFrame payload r.mode 0 (min (count - 1 - place.2) maxFollows))

/-- A transmission of pieces, and of nothing else. -/
def pieceFrames (seqs : List UInt8) (room : Nat) : List TxFrame × Engine :=
  let (chosen, e) := choosePieces room seqs [] e
  let frames := chosen.zipIdx.filterMap (e.layPiece chosen.length)
  (frames, { e with stats := { e.stats with framesSent := e.stats.framesSent + frames.length } })

/-- How many frames a room (none: no limit) and the transmission's own limits hold. -/
def roomFor (frame : ℚ) (roomS : Option ℚ) (limit : Nat) : Nat :=
  match roomS with
  | some room => min limit (whole (room / frame))
  | none => limit

def measureFrame (mode count i : Nat) : Option TxFrame :=
  let index := UInt8.ofNat (min i 255)
  let capacity := e.timing.capacity mode
  match encodeData ⟨.measure, index, e.session, none⟩
      (measureBody e.session index (dataCapacity capacity)) capacity with
  | .error _ => none
  | .ok payload => some (dataFrame payload mode 0 (min (count - 1 - i) maxFollows))

/-- The measurement asked for, as many of its frames as the transmission holds. -/
def measurement (roomS : Option ℚ) : List TxFrame × Engine :=
  match e.measuring.ask with
  | none => ([], e)
  | some (mode, asked) =>
    let mode := min mode e.cap
    let frame := e.frameS (e.timing.isFloor mode)
    let count := roomFor frame roomS (min (min asked maxData) (e.burstCapacity frame))
    if count = 0 then ([], e)
    else
      ((List.range count).filterMap (e.measureFrame mode count), { e with
        measuring := { e.measuring with ask := none, out := some (mode, count), unheard := false }
        stats := { e.stats with framesSent := e.stats.framesSent + count } })

/-- The try's rung and the transmission's: a try across the floor's edge takes a
whole transmission, of new data. -/
def tryAcross : Nat × Option Nat × Bool :=
  let mode := e.burstMode
  match e.probeRung with
  | none => (mode, none, false)
  | some rung =>
    if e.timing.isFloor rung = e.timing.isFloor mode then (mode, some rung, false)
    else if e.canCut then (rung, none, true)
    else (mode, none, false)

/-- New blocks after those sent again, when they are of the transmission's family. -/
def fill (fresh : Bool) (mode room : Nat) (probe : Option Nat) (seqs : List UInt8) :
    List UInt8 × Engine :=
  if fresh then cutNew mode room room probe seqs e else (seqs, e)

/-- The frames of one family, its unacknowledged blocks first. -/
def familyFrames (mode : Nat) (probe : Option Nat) (across : Bool) (unacked : List UInt8)
    (roomS : Option ℚ) : List TxFrame × Engine :=
  let floorOf (s : UInt8) : Option Bool := (e.tx.record? s).map fun r => e.timing.isFloor r.mode
  let family := if across then e.timing.isFloor mode
    else ((unacked.head?.bind floorOf).getD (e.timing.isFloor mode))
  let seqs := unacked.filter fun s => floorOf s = some family
  let room := roomFor (e.frameS family) roomS (e.burstCapacity (e.frameS family))
  if room = 0 then ([], e)
  else
    let split := seqs.filter fun s => (e.tx.record? s).any fun r => r.pieces.isSome
    if !split.isEmpty then e.pieceFrames split room
    else
      let fresh := family = e.timing.isFloor mode && e.measuring.ask.isNone
      let (seqs, e) := e.fill fresh mode room probe (seqs.take room)
      e.layCopies seqs

/-- This station's data for a transmission, as many frames as `roomS` (none: no
limit) allows. A measurement asked for goes alone once nothing is unacknowledged,
and nothing goes while one waits for its report. -/
def dataFrames [Libm] (roomS : Option ℚ) : List TxFrame × Engine :=
  if roomS.any (· ≤ 0) || e.measuring.out.isSome then ([], e)
  else if e.measuring.ask.isSome && e.unacked.isEmpty then e.measurement roomS
  else
    let (mode, probe, across) := e.tryAcross
    -- what an unheard answer would have said waits for an answer, through one silent slot
    let unacked := e.unacked.filter fun s =>
      e.master.silent ≥ 2 || (e.tx.record? s).any fun r => !r.unknown
    let e := e.restrandAll e.burstMode e.tx.answeredRung unacked
    e.familyFrames mode probe across unacked roomS

/-! ### Acknowledgements -/

/-- The families both stations' control frames go in now, for the rate controller. -/
def price : Engine :=
  let own := if e.role = .master then e.master.hdrFloor else e.slave.ansSticky
  { e with rate := e.rate.setFamilies own e.wantsFloor }

/-- The outcomes of the copies sent, latest first: a block newly acknowledged was
delivered by its latest copy, every other copy was air spent for nothing. -/
def judgedCopies (newly : List UInt8) : List (UInt8 × Nat × ℚ) → List UInt8 → List FrameOutcome
  | [], _ => []
  | (seq, mode, air) :: earlier, credited =>
    let ok := newly.contains seq && !credited.contains seq
    { mode, airS := air, capacity := dataCapacity (e.timing.capacity mode), detected := true
      decoded := ok, combined := false } ::
      judgedCopies newly earlier (if ok then seq :: credited else credited)

/-- What an acknowledgement says of the copies sent since the last one. -/
def judgeCopies [Libm] (newly : List UInt8) : Engine :=
  let outcomes := (e.judgedCopies newly e.tx.sentCopies.reverse []).reverse
  let e := { e with tx := { e.tx with sentCopies := [] } }.price
  { e with rate := e.rate.observeFrames outcomes e.peer.snrDb }

/-- The report of this station's measurement, or that its answer came without it. -/
def takeReport (ctl : GrantFrame) : Engine :=
  match e.measuring.out with
  | none => e
  | some (mode, sent) =>
    if ctl.reports then
      let rung : LadderRung := {
        mode, frames := sent
        decoded := ((List.range sent).filter ctl.measured).length
        snrDb := if e.measuring.unheard then none else ctl.snrDb }
      { e with measuring := { e.measuring with
          out := none, unheard := false, again := false, ladder := e.measuring.ladder ++ [rung] } }
    else { e with measuring := { e.measuring with unheard := true } }

/-- Blocks an acknowledgement acknowledges for the first time. -/
def newlyAcked (ctl : GrantFrame) : List TxRecord :=
  e.tx.records.filter fun r => !r.acked && r.sent && ctl.received r.seq

/-- The acknowledgement's word on every block sent. -/
def applyAck (ctl : GrantFrame) : Engine :=
  let newly := e.newlyAcked ctl
  let tx := { e.tx with
    records := e.tx.records.map fun (r : TxRecord) => { r with
      unknown := false
      acked := r.acked || (r.sent && ctl.received r.seq) }
    topAckedMode := newly.foldl (fun top (r : TxRecord) => some (max (top.getD 0) r.mode)) e.tx.topAckedMode }
  { e with
    tx := tx.release tx.records.length
    stats := { e.stats with
      bytesAcked := e.stats.bytesAcked + (newly.map fun r => r.body.length).sum }
    leaving := if !newly.isEmpty && e.leaving.patienceUntil.isSome
      then { e.leaving with patienceUntil := some (e.now + e.discPatience) } else e.leaving }

/-- An answer to a transmission of this station's: how many of its frames the other
never detected, and what became of its copies. -/
def judgeAnswer [Libm] (ctl : GrantFrame) (newly : List UInt8) : Engine :=
  if e.tx.sentCopies.isEmpty then e
  else
    let missed := if ctl.missed ≠ missedUnknown then some ctl.missed else none
    { e with
      peer := { e.peer with missed }
      stats := { e.stats with
        framesMissed := e.stats.framesMissed + ((missed.map UInt8.toNat).getD 0) } }.judgeCopies newly

/-- The other station's acknowledgement of this one's data, or its report of this
station's measurement. A header decoded late reports nothing. -/
def takeAck [Libm] (ctl : GrantFrame) (fresh : Bool) : Engine :=
  let e := if fresh then e.takeReport ctl else e
  let newly := (e.newlyAcked ctl).map fun r => r.seq
  let e := e.applyAck ctl
  if fresh then
    let e := e.judgeAnswer ctl newly
    if e.rate.snrDb.isSome then { e with tx := { e.tx with answeredRung := some e.rate.choice } } else e
  else e

/-! ### Measurements that did not go -/

/-- A measurement that never reached the air is asked for again, not reported. -/
def askAgain (measured : Bool) : Engine :=
  if measured && e.measuring.out.isSome && e.measuring.ask.isNone then
    { e with measuring := { e.measuring with ask := e.measuring.out, out := none, unheard := false } }
  else e

/-- A measurement's slot went silent: it is measured again, and silent a second
time recorded with nothing decoded. -/
def measurementUnheard : Engine :=
  match e.measuring.out with
  | none => e
  | some (mode, sent) =>
    if !e.measuring.again then
      { e with measuring := { e.measuring with again := true } }.askAgain true
    else
      { e with measuring := { e.measuring with
          out := none, again := false, unheard := false
          ladder := e.measuring.ladder ++ [⟨mode, sent, 0, none⟩] } }

end Engine

end AetherHF.Link
