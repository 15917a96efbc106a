import AetherHF.Radio.Transmit

/-! Keying, playing and ending a transmission, hearing, and giving up where the radio or the card
fails. -/
namespace AetherHF.Radio

open Link (SoftFrame)

namespace Station

variable {P : Type} (s : Station P)

/-! ### Giving transmissions up -/

def captureLagAllowanceS : ℚ := 1 / 2

/-- A transmission cut short at `now`: it granted nothing if it could not be read yet. -/
def reportCut (window : KeyWindow) (now : ℚ) : Station P :=
  if window.cutUnread (now + s.radiationLatencyS - s.config.keyLeadS) then s.tellEngine none .cutUnread now none
  else s.tellEngine none .done now window.wholeEnd

def cutKeying (now : ℚ) : Station P :=
  match s.keying with
  | none => s
  | some window => { s with keying := none }.reportCut window now

def dropKeying (now : ℚ) : Station P :=
  match s.keying with
  | none => s
  | some _ => { s with keying := none }.tellEngine none .dropped now none

def fallSilent : Station P := { s with playback := [], authorized := none }

/-- The engine transmission rendered and waiting for its slot is dropped. -/
def discardWaitingLink : Station P := s.fallSilent.dropKeying s.now

/-- What was rendered would radiate past its slack: not sent at all. -/
def dropLate (now : ℚ) : Station P := if s.keying.isSome then (s.fallSilent.dropKeying now).pump else s

def deafTail (now : ℚ) : Station P := { s with deafUntil := now + s.config.playbackLeadS + captureLagAllowanceS }

/-- The card is asked to drop what it holds. -/
def flushed (cutShort : Bool) : Station P := { s with clock := { s.clock with flushDevice := true, cutShort } }

/-- Close the session now: what is left of a burst goes with it. -/
def abort : Station P :=
  let s :=
    if s.transmitting && !s.playingTest then (s.fallSilent.flushed true).cutKeying s.now
    -- rendered and waiting for its slot
    else if s.keying.isSome && !s.transmitting && !s.playback.isEmpty then s.discardWaitingLink
    else s
  let s := s.dropLinkPending s.now
  { s with
    pending := s.pending.filter fun next => match next with
      | .frames _ => false
      | _ => true
    engine := s.engine.abort }.pump

/-- Bursts given up with the transmitter. -/
def refuseAll (dropped : List Outgoing) (why : String) : Station P :=
  dropped.foldl (fun (s : Station P) next => match next with
    | .datagram _ reference last => s.refuseDatagram reference last why
    | _ => s) s

end Station

section
variable {P : Type} [Ptt P]

namespace Station

variable (s : Station P)

/-- The key let go, whatever the radio says. -/
def release : Except PttError Unit × Station P :=
  let (result, ptt) := s.ptt.unkey
  (result, { s with ptt }.tell (.released result.isOk))

/-- Give up on the transmission in progress, after a failure of the radio's or the card's. -/
def abandonTx : Except PttError Unit × Station P :=
  let transmitting := s.transmitting
  let now := s.now
  let s := if !transmitting && s.keying.isSome then s.discardWaitingLink else s.cutKeying now
  let s := ((s.dropLinkPending now).fallSilent).datagramTransmitted true
  let s := { s with pending := [] }.refuseAll s.pending "the transmitter failed"
  let s := { s.flushed false with transmitting := false, playingTest := false }
  let s := if transmitting then s.deafTail now else s
  let (result, s) := s.release
  (result, s.pump)

def orAbandon {α : Type} : Except PttError α × Station P → Station P
  | (.ok _, s) => s
  | (.error _, s) => s.abandonTx.2

/-! ### Playing -/

def micro : ℚ := 1 / 10 ^ 6

/-- The keying gate: whether what is rendered may be keyed now. One past its slack is dropped. -/
def withinWindow (now : ℚ) : Bool × Station P :=
  match s.keying with
  | none => (true, s)
  | some window =>
    if s.playback.isEmpty then (true, s)
    else
      let keyedAt := now + s.captureLag.lagS + s.radiationLatencyS
      if window.notBefore.any (keyedAt + s.latency.key.least < · - micro) then (false, s)
      else if window.notAfter.any (· + micro < keyedAt + s.latency.key.typical) then (false, s.dropLate now)
      else (true, s)

/-- The engine's transmission ended as its frames did, before the identifier behind them. -/
def answerFinished (now : ℚ) (tailS : ℚ) : Station P :=
  match s.keying with
  | none => s
  | some window =>
    { s with keying := none }.tellEngine none .done now
      (some (now - tailS - window.trailingSamples / s.config.audioRate + s.radiationLatencyS - s.config.keyLeadS))

/-- The transmission is over, by the card's clock. -/
def finishTransmission (now : ℚ) : Except PttError Unit × Station P :=
  let cut := s.clock.cutShort
  let s := { s with clock := { s.clock with cutShort := false }, transmitting := false, playingTest := false }
  match s.release with
  | (.error e, s) => (.error e, s)
  | (.ok (), s) => (.ok (), (((s.datagramTransmitted cut).answerFinished now s.tailS).deafTail now).pump)

def play (count : Nat) : Station P :=
  let out := s.playback.take count
  { s with playback := s.playback.drop count, clock := s.clock.handOver out.length }.tell (.played out)

/-- The wait the keying command took, learned. -/
def learnKey (waitedS : ℚ) : Station P :=
  { s with latency := { s.latency with key := s.latency.key.push waitedS } }.tellEngineLatency

/-- On the air from here: the card's limit, and where the transmission's parts lie. -/
def keyUp (w : Surroundings) (startsAt : ℚ) : Station P :=
  let rate : ℚ := s.config.audioRate
  let from_ := startsAt + s.radiationLatencyS - s.config.keyLeadS
  { s with
    transmitting := true
    clock := { s.clock with
      cutShort := false
      guard_ := none
      onset := (s.keying.bind KeyWindow.notAfter).map fun latest =>
        ⟨w.keyedAt + max (latest - startsAt) 0, 0, s.samplesIn s.config.keyLeadS⟩ }
    keying := s.keying.map fun window => { window with
      wholeEnd := some (from_ + window.framesSamples / rate)
      headerOnAir := window.headerSamples.map fun (a, b) => (from_ + a / rate, from_ + b / rate) } }

/-- The radio is keyed: the first samples, or the key let go at once where it took too long. -/
def keyed (w : Surroundings) (now : ℚ) (count : Nat) : Except PttError Nat × Station P :=
  let startsAt := now + s.captureLag.lagS + w.keyWaitedS
  let radiatesAt := startsAt + s.radiationLatencyS
  let latest := s.keying.bind KeyWindow.notAfter
  let s := s.tell (.keyed radiatesAt latest)
  if latest.any (· + micro < radiatesAt) then
    match s.release with
    | (.error e, s) => (.error e, s)
    | (.ok (), s) => (.ok 0, s.dropLate now)
  else (.ok (s.playback.take count).length, (s.keyUp w startsAt).play count)

/-- The radio asked to key. -/
def askKey (w : Surroundings) (now : ℚ) (count : Nat) : Except PttError Nat × Station P :=
  match s.ptt.key now with
  | (.error e, ptt) => (.error e, { s with ptt }.tell .keyRefused)
  | (.ok (), ptt) => ({ s with ptt }.learnKey w.keyWaitedS).keyed w now count

/-- The leave spent. -/
def keyNext (w : Surroundings) (now : ℚ) (count : Nat) : Except PttError Nat × Station P :=
  if s.authorized.isNone then (.ok 0, { s with playback := [] })
  else { s with authorized := none }.askKey w now count

/-- What goes to the card now: how many samples. -/
def playbackInto (w : Surroundings) (count : Nat) : Except PttError Nat × Station P :=
  let now := s.now
  if s.playback.isEmpty && s.transmitting then
    if !s.clock.cutShort && !s.caughtUp then (.ok 0, s)
    else match s.finishTransmission now with
      | (.error e, s) => (.error e, s)
      | (.ok (), s) => (.ok 0, s)
  else
    let s := if s.playback.isEmpty then s.startPending w now else s
    if s.playback.isEmpty then (.ok 0, s)
    else if s.transmitting then (.ok (s.playback.take count).length, s.play count)
    else match s.withinWindow now with
      | (false, s) => (.ok 0, s)
      | (true, s) => s.keyNext w now count

/-! ### Hearing -/

/-- What came of the audio heard. -/
inductive Arrival where
  | frame (soft : SoftFrame)
  | preamble (tStart : ℚ) (frameS : Option ℚ)
  | datagram (payload : Bytes) (snrDb : ℚ) (rung : Nat)
  /-- A frame of another session. -/
  | other (what : HeardOther)

/-- A block captured, and what the receiver made of it: up to the end of this station's own
transmission, and after. -/
structure Block where
  samples : Nat
  baseband : Nat
  before : List Arrival
  after : List Arrival

def arrive [Libm] (now : ℚ) : Arrival → Station P
  | .frame soft => { s with engine := s.engine.onFrame soft now }
  | .preamble tStart frameS => { s with engine := s.engine.onPreamble tStart now frameS }
  | .datagram payload snrDb rung => (s.heardDatagramPiece payload snrDb rung now).2
  | .other what => { s with reservation := s.reservation.heard now what }

def absorb [Libm] (arrivals : List Arrival) (now : ℚ) : Station P :=
  (arrivals.foldl (fun (s : Station P) arrival => s.arrive now arrival) s).pump

/-- How much of a block's baseband came in after the transmission running had left the card. -/
def capturedAfterTransmission (captured baseband : Nat) : Nat :=
  let past := match s.clock.devicePlayed, s.clock.drainsAt with
    | some played, some drains => played - drains
    | _, _ => 0
  if past = 0 || captured = 0 then 0
  else min (rounded (min past captured * baseband / captured : ℚ)) baseband

/-- The block heard: muted while this station transmits, up to where its transmission ended. -/
def hear [Libm] (block : Block) (now : ℚ) : Except PttError Unit × Station P :=
  let after := s.capturedAfterTransmission block.samples block.baseband
  if !s.transmitting || after = 0 || !s.playback.isEmpty then (.ok (), s.absorb block.before now)
  else
    let ended := now - after / s.config.fsBaseband
    match (s.absorb block.before ended).finishTransmission ended with
    | (.error e, s) => (.error e, s)
    | (.ok (), s) => (.ok (), s.absorb block.after now)

/-- The key was stuck: all that is queued is dropped. -/
def trip (now : ℚ) : Except PttError Unit × Station P :=
  let s := s.tell (.tripped s.playingTest (s.datagrams.onAir.isSome || s.pending.any Outgoing.isDatagram))
  let s := (s.fallSilent.cutKeying now).dropLinkPending now
  let s := { s.flushed false with pending := [], transmitting := false }
  (s.deafTail now).release

def pollKey (now : ℚ) : Except PttError Unit × Station P :=
  match s.ptt.poll now with
  | (.error e, ptt) => (.error e, { s with ptt }.tell (.released false))
  | (.ok .tripped, ptt) => ({ s with ptt }.tell (.released true)).trip now
  | (.ok _, ptt) => (.ok (), { s with ptt })

/-- A session's closing identifier is still to go out: owed, queued or on the air. -/
def closingIdentifierPending : Bool :=
  s.engine.closing.idOwed > 0 || s.linksPending.any (fun tx => 0 < tx.identifierS) || s.keying.any KeyWindow.identifier

def setupIdWaitS : ℚ := 30

/-- A contact that went no further than its setup is identified on its own. -/
def advanceIdentifier (w : Surroundings) (now : ℚ) : Station P :=
  match s.identifier.setupAt with
  | none => s
  | some at_ =>
    if (w.cw s.identifier.setupCall).isNone then { s with identifier := { s.identifier with setupAt := none } }
    else if s.engaged || s.closingIdentifierPending || now - at_ < setupIdWaitS then s
    else { s with identifier := { s.identifier with setupAt := none }, pending := s.pending ++ [.identifier] }

/-- A block of captured audio. -/
def capture [Libm] (w : Surroundings) (block : Block) : Except PttError Unit × Station P :=
  let s := { s with audioSeen := s.audioSeen + block.samples }
  let now := s.now
  match s.hear block now with
  | (.error e, s) => (.error e, s)
  | (.ok (), s) =>
    match { s with
        reservation := s.reservation.channel now w.busy
        engine := s.engine.tick now }.pollKey now with
    | (.error e, s) => (.error e, s)
    | (.ok (), s) => (.ok (), s.pump.advanceIdentifier w now)

/-- The card dropped the transmission running unplayed: its first sample would have left too late. -/
def cardDroppedLate : Except PttError Unit × Station P :=
  if !s.transmitting then (.ok (), s)
  else
    let now := s.now
    let s := (s.tell (.cardDropped s.datagrams.onAir.isSome)).dropKeying now
    let s := { s with
      playback := []
      clock := { s.clock with cutShort := false, onset := none, guard_ := none }
      transmitting := false
      playingTest := false }
    let (result, s) := (s.deafTail now).release
    (result, s.pump)

end Station

end

end AetherHF.Radio
