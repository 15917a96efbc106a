import Mathlib.Algebra.Order.Ring.Unbundled.Rat
import AetherHF.Base.Stream
import AetherHF.Host.Vara

/-! The loop of the command port: what a host program is told of the modem's sessions, and
what its commands ask of the modem. -/
namespace AetherHF.Host

/-- How long a `CONNECTED` held waits once the program has heard the call's `PENDING`, in
nanoseconds. -/
def pendingSettle : Nat := 1500000000

/-- The longest a `DISCONNECTED` waits for the station's closing identifier. -/
def closingIdWait : Nat := 150000000000

/-- A scanning host's beat, learned from its own `LISTEN` commands. -/
structure Scan where
  /-- When `LISTEN` last went on. -/
  onSince : Option Nat := none
  /-- The last few listening windows. -/
  windows : List Nat := []
  deriving DecidableEq, Repr

namespace Scan

def keep : Nat := 4

def beat : Nat := 2

/-- The least of the end of a window kept clear. -/
def leastGuard : Nat := 50000000

variable (scan : Scan)

/-- `LISTEN` went from `was` to `nowOn`. -/
def listen (was nowOn : Bool) (at_ : Nat) : Scan :=
  match was, nowOn with
  | false, true => { scan with onSince := some at_ }
  | true, false => match scan.onSince with
    | some since =>
      let windows := scan.windows ++ [at_ - since]
      ⟨none, if windows.length > keep then windows.tail else windows⟩
    | none => scan
  | _, _ => scan

/-- Whether a `CONNECTED` written now could cross the host's next `LISTEN OFF`. -/
def late (at_ : Nat) : Bool :=
  match scan.onSince with
  | none => false
  | some since =>
    if scan.windows.length < beat then false
    else match scan.windows.min? with
      | none => false
      | some window =>
        let guard_ := max (window / 4) leastGuard
        let open_ := at_ - since
        open_ + guard_ ≥ window && open_ < window * 2

end Scan

/-! ### What goes between the program, the adapter and the modem -/

inductive StateName where
  | connected
  | disconnected
  | identified
  /-- `role`, or one not known here. -/
  | other
  deriving DecidableEq, Repr

/-- A `state` event of the modem's. -/
structure StateEvent where
  name : StateName
  /-- Of a connection, `"<call> (role)"`. -/
  detail : Text := []
  /-- The callsign the session runs under. -/
  callsign : Option Text := none
  identifierPending : Bool := false
  deriving DecidableEq, Repr

namespace StateEvent

def remote (event : StateEvent) : Text := event.detail.words.head?.getD []

/-- This station was called. -/
def called (event : StateEvent) : Bool := event.detail.words[1]? = some "(slave)".toList

end StateEvent

/-- What the modem publishes, as far as the adapter's account of its sessions goes. -/
inductive Event where
  | state (event : StateEvent)
  | ptt (on hostKeys : Bool)
  | bandwidth (hz : Option Nat)
  deriving DecidableEq, Repr

/-- A session or a call is over. -/
def Event.ends : Event → Bool
  | .state event => event.name = .disconnected
  | _ => false

/-- What the adapter asks of the modem. -/
inductive Request where
  | bandwidthSet (hz : Nat)
  | callsignsSet (calls : List Text)
  | connect (remote : Text) (callsign : Option Text) (keepBandwidth : Bool)
  | status
  | abort
  | disconnect
  | beacon (callsign : Option Text)
  | tune (seconds : ℚ)
  | configGet
  deriving DecidableEq, Repr

/-- What the modem answers to the requests of a command. -/
structure Answers where
  /-- The bandwidth it runs after a `bandwidth.set` it took. -/
  bandwidth : Option Nat := none
  /-- A `connect` is taken. -/
  taken : Bool := false
  /-- `status` says it is calling. -/
  connecting : Bool := false
  /-- A beacon's name is refused. -/
  nameRefused : Bool := false
  /-- The transmit level, in whole decibels. -/
  levelDb : Option Int := none
  deriving DecidableEq, Repr

inductive Line where
  | note (notification : Notification)
  | reply (text : Text)
  deriving DecidableEq, Repr

/-- What passes, in order. -/
inductive Entry where
  | asked (request : Request)
  /-- The modem's answer to a `connect`, and whether a `disconnected` published before it
  stands unread. -/
  | answered (taken unread : Bool)
  /-- A `state` event read. -/
  | heard (event : StateEvent)
  | said (line : Line)
  deriving DecidableEq, Repr

def Entry.note (notification : Notification) : Entry := .said (.note notification)

/-- The variables of the loop. -/
structure Server where
  host : HostState := {}
  /-- The session the program was told of with `CONNECTED`. -/
  connectedTo : Option Text := none
  /-- A call the program placed that has neither come up nor been said to have ended. -/
  calling : Bool := false
  /-- A `connected` held until the program listens. -/
  pendingConnected : Option StateEvent := none
  /-- A `DISCONNECTED` held, and since when. -/
  disconnectHeld : Option Nat := none
  scan : Scan := {}
  /-- `PENDING` said for a call whose `CONNECTED` is held. -/
  pendingSaid : Bool := false
  pendingAt : Option Nat := none
  /-- A session is up, or its identifier still to go, that the program was not told of. -/
  untold : Bool := false
  pttTold : Bool := false
  deriving DecidableEq, Repr

/-- Turn a state event into the lines of the published interface. -/
def reportState (data : StateEvent) (host : HostState) (connectedTo : Option Text) (calling pendingSaid : Bool) :
    Option Text × Bool × List Entry :=
  match data.name with
  | .connected =>
    -- a session the panel started is not this program's
    if !data.called && !calling then (connectedTo, calling, [])
    else
      let mine := ((data.callsign.filter fun call => !call.isEmpty).or host.myCall).getD []
      let (caller, callee) := if data.called then (data.remote, mine) else (mine, data.remote)
      (some data.remote, false,
        (if !data.called || pendingSaid then [] else [.note .pending]) ++
          [.note (.registered mine), .note (.connected caller callee host.bandwidthHz),
            .note .encryptionDisabled, .note .linkRegistered])
  | .disconnected =>
    (none, false, if connectedTo.isSome || calling then [.note .disconnected] else [])
  | _ => (connectedTo, calling, [])

/-- Carry out what a command asked for: the host's state after it, whether the modem took a
call, and what passed. -/
def apply (action : HostAction) (own : Bool) (answers : Answers) (unread : Bool) (host : HostState) :
    HostState × Bool × List Entry :=
  match action with
  | .none | .listen _ => (host, false, [])
  | .bandwidth hz =>
    let host := { host with bandwidthHz := answers.bandwidth.getD host.bandwidthHz }
    let satisfied (running : Nat) : Bool := running = hz || (hz = 2750 && running = 2300)
    let ok := satisfied (answers.bandwidth.getD host.bandwidthHz)
    ({ host with bandwidthAsked := some hz }, false,
      [.asked (.bandwidthSet hz), .said (.reply (if ok then "OK".toList else "WRONG".toList))])
  | .callsigns calls => (host, false, [.asked (.callsignsSet calls)])
  | .connect caller called =>
    let request := .connect called (if host.answersTo caller then some caller else none) host.bandwidthAsked.isSome
    -- refused, the call did not happen
    (host, answers.taken,
      [.asked request, .answered answers.taken unread] ++ if answers.taken then [] else [.note .disconnected])
  | .disconnect =>
    -- the program's own session or call, and no other
    if !own then (host, false, [])
    else (host, false, [.asked .status, .asked (if answers.connecting then .abort else .disconnect)])
  | .abort => if !own then (host, false, []) else (host, false, [.asked .abort])
  | .cqFrame source =>
    (host, false, [.asked (.beacon source)] ++ if answers.nameRefused then [.asked (.beacon none)] else [])
  | .tune seconds => (host, false, [.asked (.tune (if seconds ≤ 0 then 0 else min seconds 10))])
  | .tuneLevel => (host, false, [.asked .configGet, .said (.reply (match answers.levelDb with
    | some level => "TUNE ".toList ++ (toString level).toList
    | none => "WRONG".toList))])

namespace Server

variable (s : Server)

/-- A command of the host's. -/
def command [FloatText] (text : Text) (answers : Answers) (unread : Bool) (at_ : Nat) : Server × List Entry :=
  let (host, outcome) := s.host.command text
  let scan := s.scan.listen s.host.listening host.listening at_
  let (host, taken, passed) := apply outcome.action (s.connectedTo.isSome || s.calling) answers unread host
  ({ s with host, scan, calling := s.calling || taken }, outcome.replies.map (fun reply => .said (.reply reply)) ++ passed)

/-- A connection held for the host's `LISTEN` to come back. -/
def release (at_ : Nat) : Server × List Entry :=
  let listeningAgain := s.host.listening && !s.scan.late at_
  let settled := s.pendingAt.any fun said => at_ - said ≥ pendingSettle
  match s.pendingConnected with
  | some data =>
    if listeningAgain || settled then
      let (connectedTo, calling, lines) := reportState data s.host s.connectedTo s.calling false
      ({ s with
        pendingConnected := none, pendingSaid := false, pendingAt := none
        connectedTo, calling, untold := connectedTo.isNone }, lines)
    else (s, [])
  | none => (s, [])

/-- `PENDING` at once, before the station keys its acceptance. -/
def announce (event : StateEvent) (at_ : Nat) : Server × List Entry :=
  if event.name = .connected ∧ event.called ∧ s.host.listening ∧ !s.pendingSaid then
    ({ s with pendingSaid := true, pendingAt := some at_ }, [.note .pending])
  else (s, [])

/-- A disconnection cancels a connection still held. -/
def cancel (event : StateEvent) : Server × List Entry :=
  if event.name = .disconnected then
    ({ s with
      pendingConnected := none, pendingSaid := false, pendingAt := none
      untold := s.untold && event.identifierPending },
      if s.pendingConnected.isSome && s.pendingSaid then [.note .cancelPending] else [])
  else (s, [])

/-- What the state event is reported as, nothing holding it. -/
def report (event : StateEvent) : Server × List Entry :=
  let (connectedTo, calling, lines) := reportState event s.host s.connectedTo s.calling s.pendingSaid
  let s := { s with connectedTo, calling }
  (if event.name = .connected then { s with pendingSaid := false, pendingAt := none, untold := connectedTo.isNone } else s,
    lines)

/-- A `DISCONNECTED` held, said. -/
def unhold : Server × List Entry :=
  ({ s with disconnectHeld := none }, if s.disconnectHeld.isSome then [.note .disconnected] else [])

/-- Past the announcement and the cancellation. -/
def settle (event : StateEvent) (at_ : Nat) : Server × List Entry :=
  match event.name with
  | .identified => { s with untold := false }.unhold
  | .disconnected =>
    if event.identifierPending ∧ (s.connectedTo.isSome ∨ s.calling) then
      ({ s with connectedTo := none, calling := false, disconnectHeld := some at_ }, [])
    else s.report event
  | .connected =>
    let (s, ended) := s.unhold
    let (s, lines) := s.report event
    (s, ended ++ lines)
  | .other => s.report event

def stateEvent (event : StateEvent) (at_ : Nat) : Server × List Entry :=
  let (s, announced) := s.announce event at_
  if event.name = .connected ∧ event.called ∧ (!s.host.listening || s.scan.late at_) then
    ({ s with pendingConnected := some event, untold := true }, announced)
  else
    let (s, cancelled) := s.cancel event
    let (s, lines) := s.settle event at_
    (s, announced ++ cancelled ++ lines)

/-- The key went up or down, and whether the program keys the radio. -/
def keyed (on hostKeys : Bool) : Server × List Entry :=
  if hostKeys || (if on then !s.untold && s.pendingConnected.isNone else s.pttTold) then
    ({ s with pttTold := on }, [.note (.ptt on)])
  else (s, [])

def event (read : Event × Nat) : Server × List Entry :=
  match read.1 with
  | .state event =>
    let (s, lines) := s.stateEvent event read.2
    (s, .heard event :: lines)
  | .ptt on hostKeys => s.keyed on hostKeys
  | .bandwidth hz => ({ s with host := { s.host with bandwidthHz := hz.getD s.host.bandwidthHz } }, [])

/-- A `DISCONNECTED` held too long. -/
def expire (at_ : Nat) : Server × List Entry :=
  if s.disconnectHeld.any fun since => at_ - since ≥ closingIdWait then s.unhold else (s, [])

end Server

/-- What one turn of the loop finds. -/
structure Turn where
  /-- Published since the events were last read, before the modem answers the command. -/
  unread : List (Event × Nat) := []
  /-- A command, the modem's answers to it, and when. -/
  command : Option (Text × Answers × Nat) := none
  releaseAt : Nat := 0
  /-- Published after that. -/
  later : List (Event × Nat) := []
  expireAt : Nat := 0
  deriving DecidableEq, Repr

/-- One turn of the loop. -/
def Server.turn [FloatText] (s : Server) (t : Turn) : Server × List Entry :=
  let (s, asked) := match t.command with
    | some (text, answers, at_) => s.command text answers (t.unread.any (·.1.ends)) at_
    | none => (s, [])
  let (s, released) := s.release t.releaseAt
  let (s, heard) := Stream.run Server.event s (t.unread ++ t.later)
  let (s, expired) := s.expire t.expireAt
  (s, asked ++ released ++ heard ++ expired)

/-- The turns of the loop, and all that passes. -/
def Server.run [FloatText] : Server → List Turn → Server × List Entry := Stream.run Server.turn

end AetherHF.Host
