import AetherHF.Radio.State

/-! KISS clients' datagrams: queued, fed into the transmit queue burst by burst, reported, and
those of other stations joined. -/
namespace AetherHF.Radio

open Link (TxFrame FrameError)
open Link.Datagram (DatagramError)

/-- The debug form of a frame's error. -/
def frameErrorDebug : FrameError → String
  | .tooShort => "TooShort"
  | .unknownKind bits => s!"UnknownKind({bits})"
  | .badLength => "BadLength"
  | .badCallsign => "BadCallsign"
  | .outOfRange => "OutOfRange"

def datagramErrorText : DatagramError → String
  | .empty => "an empty datagram carries nothing"
  | .badNumber => "a datagram's number is 1–255"
  | .noRoom => "the rung's frames carry no datagram"
  | .tooLong max => s!"longer than the {max} bytes sixteen fragments carry at this rung"
  | .badType frameType => s!"frame type {frameType} is not one a datagram carries"
  | .badCallsign => "the callsign will not pack"
  | .frame error => frameErrorDebug error

namespace Datagrams

/-- A draw in [0, 1): xorshift, for the persistence coin. -/
def draw (d : Datagrams) : ℚ × Datagrams :=
  let rng := d.rng ^^^ (d.rng <<< 13)
  let rng := rng ^^^ (rng >>> 7)
  let rng := rng ^^^ (rng <<< 17)
  ((rng >>> 11).toNat / 2 ^ 53, { d with rng })

/-- The oldest report goes when there is no room for another. -/
def addReport (d : Datagrams) (report : DatagramReport) : Datagrams :=
  { d with reports := (if maxUntaken ≤ d.reports.length then d.reports.tail else d.reports) ++ [report] }

def addReceived (d : Datagrams) (datagram : ReceivedDatagram) : Datagrams :=
  { d with received := (if maxUntaken ≤ d.received.length then d.received.tail else d.received) ++ [datagram] }

end Datagrams

namespace Station

variable {P : Type} (s : Station P)

/-- What became of a datagram sent with a reference. -/
def report (reference : Option Text) (sent : Bool) (reason : Option String) : Station P :=
  match reference with
  | none => s
  | some reference =>
    { s with datagrams := s.datagrams.addReport ⟨reference, sent, reason⟩ }.tell (.reported reference sent)

def reportAll (queue : List QueuedDatagram) (reason : String) : Station P :=
  queue.foldl (fun (s : Station P) datagram => s.report datagram.reference false (some reason)) s

/-- Every datagram waiting dropped, each reported. -/
def clearDatagrams (reason : String) : Station P :=
  ({ s with datagrams := { s.datagrams with queue := [] } }.tell
    (.cleared (s.pending.any Outgoing.earlier))).reportAll s.datagrams.queue reason

/-- The longest a burst may be on the air inside the key watchdog's limit. -/
def burstLimitS (config : StationConfig) : ℚ := max (config.maxKeyS - config.keyLeadS - config.keyTailS - 1) (11 / 10)

/-- Cut into runs of a size, the last one shorter. -/
def chunks {α : Type} (size : Nat) (xs : List α) : List (List α) :=
  (List.range ((xs.length + size - 1) / size)).map fun i => (xs.drop (i * size)).take size

def dataFrame (mode : Nat) (payload : Bytes) : TxFrame := ⟨.data, payload, mode, 0, false, 0⟩

/-- A client's frame as the bursts of a datagram. -/
def burstsOf (carried : Bytes) (number : UInt8) (rung : Nat) : Except DatagramError (List (List TxFrame) × Nat) :=
  match Link.Datagram.fragments carried number (s.engine.timing.capacity rung) with
  | .error e => .error e
  | .ok pieces =>
    let perBurst := max ⌊burstLimitS s.config / s.engine.timing.dataFrameSFor rung⌋.toNat 1
    .ok (chunks perBurst (pieces.map (dataFrame rung)), pieces.length)

def numbered (number : UInt8) : Station P := { s with datagrams := { s.datagrams with number } }

def enqueue (datagram : QueuedDatagram) : Station P :=
  { s with datagrams := { s.datagrams with queue := s.datagrams.queue ++ [datagram] } }

def acceptReference : Option Text → Station P
  | some reference => s.tell (.accepted reference)
  | none => s

def sendDatagram (request : DatagramRequest) : Except DatagramRefusal DatagramQueued × Station P :=
  if s.config.answerOnly then
    (.error (.notAllowed "this station is answer-only: it starts no exchange, and a datagram is one"), s)
  else if request.frame.isEmpty then (.error (.invalid "an empty frame carries nothing"), s)
  else if datagramQueue ≤ s.datagrams.queue.length then (.error .queueFull, s)
  else
    let rung := min (request.rung.getD 1) (s.engine.timing.dataCapacity.length - 1)
    let capacity := s.engine.timing.capacity rung
    match Link.Datagram.body s.engine.myCall request.frameType request.frame with
    | .error e => (.error (.invalid (datagramErrorText e)), s)
    | .ok carried =>
      if Link.Datagram.maxPayload capacity < carried.length then
        let room := Link.Datagram.maxPayload capacity - Link.Datagram.headerBytes
        (.error (.invalid s!"{request.frame.length} bytes do not fit the {room} a datagram carries at rung {rung}"), s)
      else
        let number := Link.Datagram.nextNumber s.datagrams.number
        let s := s.numbered number
        match s.burstsOf carried number rung with
        | .error e => (.error (.invalid (datagramErrorText e)), s)
        | .ok (bursts, count) =>
          (.ok ⟨s.datagrams.queue.length + 1, count, bursts.length, count * s.engine.timing.dataFrameSFor rung, rung⟩,
            (s.enqueue ⟨request.reference, bursts, request.waitForClear, max (1 / 20) (min request.persistence 1),
              max (1 / 50) (min request.slotS 2)⟩).acceptReference request.reference)

/-- Something else is going on: a session, a probe, a transmission. -/
def engaged : Bool :=
  !s.pending.isEmpty || s.transmitting || s.engine.state ≠ .idle || s.engine.calling.probing.isSome

/-- The client's coin: its datagram may go now, or the channel is tried again a slot on. -/
def tossCoin (front : QueuedDatagram) (now : ℚ) : Bool × Station P :=
  let (drawn, datagrams) := s.datagrams.draw
  if front.persistence ≤ drawn then
    (false, { s with datagrams := { datagrams with nextTryS := some (now + front.slotS) } })
  else (true, { s with datagrams })

/-- The front datagram's next burst, on the transmit queue. -/
def feedBurst : Station P :=
  match s.datagrams.queue with
  | [] => s
  | front :: rest => match front.bursts with
    | [] => { s with datagrams := { s.datagrams with queue := rest } }
    | burst :: bursts =>
      { s with
        datagrams := { s.datagrams with
          queue := if bursts.isEmpty then rest else { front with bursts } :: rest }
        pending := s.pending ++ [.datagram burst front.reference bursts.isEmpty] }

/-- The front datagram's next burst where nothing else goes on, the channel is clear as its client asked, and the coin says so. -/
def tryFeed (w : Surroundings) (now : ℚ) : Station P :=
  if s.engaged then s
  else match s.datagrams.queue with
    | [] => s
    | front :: _ =>
      if front.waitForClear && (!w.settled || w.busy) then s
      else if s.datagrams.nextTryS.any (now < ·) then s
      else match s.tossCoin front now with
        | (false, s) => s
        | (true, s) => s.feedBurst

def feedDatagram (w : Surroundings) (now : ℚ) : Station P :=
  { s with datagrams := { s.datagrams with reassembler := s.datagrams.reassembler.expire now } }.tryFeed w now

/-- A burst the gate refused: the rest of its datagram goes too. -/
def refuseDatagram (reference : Option Text) (last : Bool) (why : String) : Station P :=
  if last then s.report reference false (some why)
  else match s.datagrams.queue with
    -- its remaining bursts are the front of the queue
    | front :: rest => { s with datagrams := { s.datagrams with queue := rest } }.report front.reference false (some why)
    | [] => s.report reference false (some why)

/-- A datagram's last burst left the transmitter, whole or cut short. -/
def datagramTransmitted (cut : Bool) : Station P :=
  match s.datagrams.onAir with
  | none => s
  | some reference =>
    let s := { s with datagrams := { s.datagrams with onAir := none } }
    if cut then s.report reference false (some "the transmission was cut short")
    else { s with datagrams := { s.datagrams with sent := s.datagrams.sent + 1 } }.report reference true none

/-- A decoded DATAGRAM frame: the sender it names, and the station with the piece joined to the others. -/
def heardDatagramPiece (payload : Bytes) (snrDb : ℚ) (rung : Nat) (now : ℚ) : Option Text × Station P :=
  match Link.Datagram.readFragment payload with
  | none => (none, s)
  | some fragment =>
    let named := if fragment.index = 0 then (Link.unpackCallsign fragment.body).toOption else none
    let (joined, reassembler) := s.datagrams.reassembler.add fragment now
    let d := { s.datagrams with reassembler }
    let d := match joined.bind Link.Datagram.parseBody with
      | none => d
      | some (source, frameType, frame) =>
        { d with heard := d.heard + 1 }.addReceived ⟨source, frameType, frame, snrDb, rung⟩
    (named.filter fun call => !call.isEmpty, { s with datagrams := d })

def takeReports : List DatagramReport × Station P :=
  (s.datagrams.reports, { s with datagrams := { s.datagrams with reports := [] } })

end Station

end AetherHF.Radio
