import AetherHF.Base.Lists
import AetherHF.Link.Reassembly
import AetherHF.Radio.Datagrams

/-! What is taken from the engine and the queue: held for a busy channel, judged, rendered, or
given up. -/
namespace AetherHF.Radio

open Link (TxFrame Engine Transmit Action)
open Regulatory (Edges Transmission Direction AirOccupancy)

namespace Station

variable {P : Type} (s : Station P)

/-! ### What the engine decides -/

/-- The engine told what became of a transmission of its own: one never rendered, or the one rendered last. -/
def tellEngine (unrendered : Option LinkTx) (outcome : Outcome) (now : ℚ) (framesEnd : Option ℚ) : Station P :=
  { s with engine := match outcome with
    | .done => s.engine.onTxDone now framesEnd
    | .dropped => s.engine.onTxDropped now
    | .cutUnread => s.engine.onTxCutUnread now }.tell (.answered unrendered outcome)

/-- Queued as the engine handed it over; one keyed at once goes no sooner than the engine reckoned. -/
def linkOf (t : Transmit) : LinkTx where
  frames := t.frames
  window :=
    { notBefore := some (t.notBefore.getD (s.now + s.engineLatencyS))
      notAfter := t.notAfter
      slotless := t.listenFirst || startsAnExchange t.frames }
  identifierS := t.identifierS
  listenFirst := t.listenFirst

def takeAction : Action → Station P
  | .transmit t => { s with pending := s.pending ++ [Outgoing.link (s.linkOf t)] }.tell (.handed (s.linkOf t))
  | .event (.connected _ role) =>
    { s with
      sessionDirection := some (if role = .master then .originate else .respond)
      identifier := { s.identifier with setupAt := none } }
  | _ => s

/-- Take what the engine has decided. -/
def pump : Station P :=
  let (actions, engine) := s.engine.drain
  actions.foldl takeAction { s with engine }

/-! ### Waiting for the channel -/

def otherIdWaitMaxS : ℚ := 15

/-- Whether it is polite to start something. -/
def channelClear (w : Surroundings) (now : ℚ) : Bool :=
  (s.engine.state ≠ .idle && s.engine.state ≠ .connecting) || (w.settled && !w.busy && !s.reservation.holds now)

def forgetHeld : Station P := { s with heldSince := none, heldFrom := none }

/-- A beacon still waiting when a session starts is dropped. -/
def dropBeaconsInSession : Station P :=
  if s.engine.state = .idle || !s.pending.any Outgoing.beacon then s
  else { s with pending := s.pending.filter fun next => !next.beacon }.forgetHeld

/-- Held once more: what waits in the engine for it to end moves with it. -/
def holdBack (now : ℚ) : Station P :=
  let s := match s.heldSince with
    | some since =>
      { s with engine := s.engine.onTxDelayed (now - since), heldTotalS := s.heldTotalS + (now - since) }
    | none => s
  { s with heldSince := some now, heldFrom := some (s.heldFrom.getD now) }

def letGo (now : ℚ) : Station P :=
  { s with lastHoldS := (s.heldFrom.map (now - ·)).getD 0 }.forgetHeld

/-- Whether the transmission at the head of the queue waits for a busy channel. -/
def heldForBusy (w : Surroundings) (now : ℚ) : Bool × Station P :=
  let s := s.dropBeaconsInSession
  match s.pending.head? with
  | none => (true, s)
  | some next =>
    -- past the closing hold, the other station's identifier is over
    if next.outsideEngine && now < s.engine.holdUntil - 1 / 10 ^ 9 then (true, s)
    else
      let waitedOut := s.heldFrom.any fun since => otherIdWaitMaxS ≤ now - since
      let busyForId := next.alone && w.busy && !waitedOut
      let polite := !next.inTurn && s.config.waitForClear && !s.channelClear w now && !(next.alone && waitedOut)
      if !next.inTurn && (polite || busyForId) then (true, s.holdBack now) else (false, s.letGo now)

/-! ### The gate -/

def audioCenterHz : ℚ := 1500
def cwHalfWidthHz : ℚ := 100
def toneHalfWidthHz : ℚ := 25

/-- A narrow emission. -/
def tone (centre halfWidth : ℚ) : Edges := ⟨(centre - halfWidth, centre + halfWidth), (centre - halfWidth, centre + halfWidth)⟩

def identifierTransmission (w : Surroundings) (call : Text) : Transmission where
  what := "the Morse identifier"
  kind := .cw
  audio := tone (((w.cw call).map Prod.fst).getD audioCenterHz) cwHalfWidthHz
  direction := s.sessionDirection.getD .originate

def controlName : Link.GrantKind → String
  | .header => "header"
  | .answer => "answer"
  | .disc => "disc"
  | .discAck => "discack"

def rungName (air : AirOccupancy) (mode : Nat) : String := (air.rungs[mode]?.map fun rung => rung.name).getD ""

/-- What a burst of frames is, and who began its exchange. -/
def describeFrames (air : AirOccupancy) : List TxFrame → String × Direction
  | [] => ("nothing", s.sessionDirection.getD .originate)
  | first :: _ =>
    let session := s.sessionDirection.getD .originate
    let burst := (s!"a data burst at rung {first.mode} ({rungName air first.mode})", session)
    match first.container with
    | .data => match Link.decodeData first.payload with
      | .error _ => burst
      | .ok (header, _) => match header.kind with
        | .connectReq => ("a call", .originate)
        | .connectAck => ("the answer to a call", .respond)
        | .beacon => ("a beacon", .originate)
        | .probe => ("a probe", .originate)
        | .probeAck => ("the answer to a probe", .respond)
        | .datagram => ("a KISS client's datagram", .originate)
        | .measure => (s!"a measurement at rung {first.mode} ({rungName air first.mode})", session)
        | .data => burst
    | .control => match Link.GrantFrame.decode first.payload with
      | .ok ctl => (s!"a {controlName ctl.kind} frame", session)
      | .error _ => ("a control frame", session)

def framesTransmission (air : AirOccupancy) (frames : List TxFrame) (drive : Bool) : Except String Transmission :=
  match frames.mapM (frameEdges air) with
  | .error why => .error why
  | .ok edges => match Edges.joined edges with
    | none => .error "an empty burst"
    | some audio =>
      let (what, direction) := if drive then ("a drive burst", .operator) else s.describeFrames air frames
      .ok ⟨what, .data, audio, direction⟩

/-- What a queued transmission is, as the rules class it. -/
def transmissionOf (air : AirOccupancy) (w : Surroundings) (next : Outgoing) : Except String Transmission :=
  match next with
  | .link tx =>
    if tx.frames.isEmpty then .ok (s.identifierTransmission w s.engine.myCall) else s.framesTransmission air tx.frames false
  | .frames frames | .datagram frames _ _ => s.framesTransmission air frames false
  | .drive frames => s.framesTransmission air frames true
  | .identifier => .ok (s.identifierTransmission w s.identifier.setupCall)
  | .audio _ true _ => .ok ⟨"a keying test", .nothing, tone audioCenterHz 0, .operator⟩
  | .audio _ false _ => .ok ⟨"the tune tone", .test, tone audioCenterHz toneHalfWidthHz, .operator⟩
  | .pause .. => .error "a pause is not a transmission"

section
variable {s} {air : AirOccupancy} {w : Surroundings} {transmission : Transmission}

theorem framesTransmission_holds {frames : List TxFrame} {drive : Bool}
    (judged : s.framesTransmission air frames drive = .ok transmission) : Spans air frames transmission := by
  unfold framesTransmission at judged
  split at judged
  · cases judged
  · rename_i measured among
    split at judged
    · cases judged
    · rename_i audio joined
      obtain rfl := Except.ok.inj judged
      refine ⟨rfl, ?_⟩
      intro frame member
      obtain ⟨edges, member', is⟩ := forall₂_mem (Link.Datagram.mapM_ok among) member
      exact ⟨edges, is, Edges.le_joined joined member'⟩

theorem transmissionOf_describes {next : Outgoing} (judged : s.transmissionOf air w next = .ok transmission) :
    Describes air transmission next := by
  cases next with
  | link tx =>
    dsimp only [transmissionOf, Describes] at judged ⊢
    split at judged <;> rename_i empty
    · obtain rfl := Except.ok.inj judged
      rw [if_pos empty]
      rfl
    · rw [if_neg empty]
      exact framesTransmission_holds judged
  | frames frames =>
    change s.framesTransmission air frames false = _ at judged
    exact framesTransmission_holds judged
  | drive frames =>
    change s.framesTransmission air frames true = _ at judged
    exact framesTransmission_holds judged
  | datagram frames reference last =>
    change s.framesTransmission air frames false = _ at judged
    exact framesTransmission_holds judged
  | identifier =>
    obtain rfl := Except.ok.inj judged
    rfl
  | audio samples silent test =>
    cases silent <;> (obtain rfl := Except.ok.inj judged; rfl)
  | pause seconds untilS => cases judged

end

def unmeasured : String := "TX BLOCKED: the signal's spectrum is not known"

/-- The leave the policy gives, where it does; otherwise why not, in a sentence. -/
def judge (w : Surroundings) (next : Outgoing) : Except String Leave :=
  match s.occupancy with
  | none => .error unmeasured
  | some air =>
    match described : s.transmissionOf air w next with
    | .error _ => .error unmeasured
    | .ok transmission =>
      match given : s.policy.authorize w.situation transmission with
      | .ok authorization =>
        .ok ⟨next, s.policy, w.situation, air, transmission, authorization, transmissionOf_describes described, given⟩
      | .error decision => .error decision.summary

/-- Every engine transmission still queued dropped, the engine told of each. -/
def dropLinkPending (now : ℚ) : Station P :=
  s.linksPending.foldl (fun (s : Station P) tx => s.tellEngine (some tx) .dropped now none)
    { s with pending := s.pending.filter fun next => !next.isLink }

/-- A session halted: its next transmission is not lawful. -/
def haltSession (now : ℚ) : Station P :=
  if s.engine.state = .idle then s
  else
    let s := s.dropLinkPending now
    { s with engine := s.engine.abort }

/-- A transmission the rules refuse is dropped, and the session with it when it was a session's. -/
def refuse (why : String) (now : ℚ) : Station P :=
  match s.pending with
  | [] => { s with authorized := none }
  | next :: rest =>
    let s := { s with pending := rest, authorized := none }.tell (.refused next)
    match next with
    | .link tx => ((s.tellEngine (some tx) .dropped now none).haltSession now).pump
    | .datagram _ reference last => s.refuseDatagram reference last why
    | _ => s

/-- The transmission at the head of the queue, judged. -/
def gate (w : Surroundings) (now : ℚ) : Bool × Station P :=
  match s.pending.head? with
  | none => (false, s)
  | some next => match s.judge w next with
    | .ok leave => (true, { s with authorized := some leave }.tell (.judged leave))
    | .error why => (false, s.refuse why now)

/-! ### Rendering -/

def silence (samples : Nat) : List ℚ := .replicate samples 0

/-- Inside the keying's lead and tail. -/
def keyedAudio (audio : List ℚ) : List ℚ :=
  silence (s.samplesIn s.config.keyLeadS) ++ audio ++ silence (s.samplesIn s.tailS)

def fill (next : Outgoing) (audio : List ℚ) : Station P := { s with playback := audio }.tell (.rendered next audio)

/-- The Morse identifier's audio, where the rules allow it now. -/
def identifierAudioFor (w : Surroundings) (call : Text) : Option (List ℚ) :=
  match w.cw call with
  | none => none
  | some (hz, audio) =>
    let identifier : Transmission := ⟨"the Morse identifier", .cw, tone hz cwHalfWidthHz, s.sessionDirection.getD .originate⟩
    if (s.policy.evaluate w.recent identifier).allowed && !audio.isEmpty then some audio else none

def identified : Station P := { s with identifier := { s.identifier with setupAt := none } }

/-- The moment of silence between the Morse identifier and the frames it goes with. -/
def cwIdGapS : ℚ := 1 / 10

/-- The closing identifier behind a transmission's frames, inside the time the engine counted for it. -/
def linkIdentifier (w : Surroundings) (identifierS : ℚ) : Option (List ℚ) :=
  if identifierS ≤ 0 || w.unkeyable then none
  else match s.identifierAudioFor w s.engine.myCall with
    | none => none
    | some audio =>
      let room := rounded (identifierS * s.config.audioRate)
      let gap := min (s.samplesIn cwIdGapS) room
      some (silence gap ++ audio.take (room - gap))

/-- A contact that goes no further is identified on its own. -/
def noteSetup (now : ℚ) (frames : List TxFrame) : Station P :=
  if setsUpContact frames && (s.engine.state = .idle || s.engine.state = .connecting) then
    { s with identifier := ⟨some now, s.engine.myCall⟩ }
  else s

def renderIdentifier (w : Surroundings) : Station P :=
  match s.identifierAudioFor w s.identifier.setupCall with
  | none => s.tell (.unrendered .identifier)
  | some audio => (s.fill .identifier (s.keyedAudio audio)).identified

/-- The engine's closing identifier on its own: one with nothing to send is done at once. -/
def renderLinkIdentifier (w : Surroundings) (now : ℚ) (tx : LinkTx) : Station P :=
  let audio := if w.unkeyable then none else s.identifierAudioFor w s.engine.myCall
  match audio with
  | none => ((s.tell (.unrendered (.link tx))).tellEngine (some tx) .done now none).pump
  | some audio =>
    let room := max (rounded (tx.identifierS * s.config.audioRate)) 1
    let lead := s.samplesIn s.config.keyLeadS
    let sent := audio.take room
    ({ s with keying := some { tx.window with
        identifier := true, framesSamples := lead, trailingSamples := sent.length } }.fill (.link tx)
      (s.keyedAudio sent)).identified

def renderAudio (next : Outgoing) (samples : List ℚ) (test : Bool) : Station P :=
  { s with playingTest := test }.fill next (s.keyedAudio samples)

/-- A transmission of the engine's: its header's place for a cut, and the identifier behind its frames. -/
def renderLink (w : Surroundings) (now : ℚ) (tx : LinkTx) (rendered : List ℚ) (first length : Nat) : Station P :=
  let s := s.noteSetup now tx.frames
  let lead := s.samplesIn s.config.keyLeadS
  let header := if tx.frames.head?.any (·.container = .control) then
      some (lead, lead + rendered.length * first / length) else none
  let carried := s.linkIdentifier w tx.identifierS
  let trailing := carried.getD []
  let s := { s with
    keying := some { tx.window with
      identifier := carried.isSome
      framesSamples := lead + rendered.length
      trailingSamples := trailing.length
      headerSamples := header }
    playingTest := false }
  let s := s.fill (.link tx) (s.keyedAudio (rendered ++ trailing))
  if carried.isSome then s.identified else s

/-- A beacon, a datagram or a drive burst. -/
def renderFrames (next : Outgoing) (rendered : List ℚ) (test : Bool) : Station P :=
  { s with keying := none, playingTest := test }.fill next (s.keyedAudio rendered)

/-- A datagram's last burst is what its report waits for. -/
def noteOnAir (reference : Option Text) (last : Bool) : Station P :=
  if last then { s with datagrams := { s.datagrams with onAir := some reference } } else s

/-- The transmission taken from the queue, judged and allowed, rendered. -/
def renderHead (w : Surroundings) (now : ℚ) (next : Outgoing) : Station P :=
  match next with
  | .link tx =>
    if tx.frames.isEmpty then s.renderLinkIdentifier w now tx
    else match w.modulate tx.frames with
      | none => (s.tell (.unrendered next)).tellEngine (some tx) .dropped now none
      | some (rendered, first, length) => s.renderLink w now tx rendered first length
  | .frames frames => match w.modulate frames with
    | none => s.tell (.unrendered next)
    | some (rendered, _, _) => s.renderFrames next rendered false
  | .drive frames => match w.modulate frames with
    | none => s.tell (.unrendered next)
    | some (rendered, _, _) => s.renderFrames next rendered true
  | .datagram frames reference last => match w.modulate frames with
    | none => (s.noteOnAir reference last).tell (.unrendered next)
    | some (rendered, _, _) => (s.noteOnAir reference last).renderFrames next rendered false
  -- handled before anything is popped
  | .pause .. => s
  | .identifier => s.renderIdentifier w
  | .audio samples _ test => s.renderAudio next samples test

/-- Take the transmission at the head of the queue, and render it. -/
def renderNext (w : Surroundings) (now : ℚ) : Station P :=
  match s.pending with
  | [] => s
  | next :: rest => { s with pending := rest }.renderHead w now next

/-- The pauses at the head of the queue that are over are gone; one that is not keeps its deadline. -/
def pastPauses (now : ℚ) : List Outgoing → Bool × List Outgoing
  | .pause seconds untilS :: rest =>
    let deadline := untilS.getD (now + seconds)
    if now < deadline then (false, .pause seconds (some deadline) :: rest) else pastPauses now rest
  | pending => (true, pending)

/-- Render the next queued burst, if the channel and the rules allow. -/
def startPending (w : Surroundings) (now : ℚ) : Station P :=
  match pastPauses now s.pending with
  | (false, pending) => { s with pending }
  | (true, pending) =>
    let s := { s with pending }
    let s := if s.pending.isEmpty then s.feedDatagram w now else s
    if s.pending.isEmpty then s
    else match s.heldForBusy w now with
      | (true, s) => s
      | (false, s) => match s.gate w now with
        | (false, s) => s
        | (true, s) => s.renderNext w now

/-- Render what is queued to go next, and whether that was a transmission of the engine's. -/
def renderPending (w : Surroundings) : Bool × Station P :=
  if s.transmitting || !s.playback.isEmpty then (false, s)
  else
    let s := s.startPending w s.now
    (!s.playback.isEmpty && s.keying.isSome, s)

end Station

end AetherHF.Radio
