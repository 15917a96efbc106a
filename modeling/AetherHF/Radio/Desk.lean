import Mathlib.Logic.Relation
import AetherHF.Radio.Playback

/-! What a station's transmissions go through, apart from when: each of the station's functions
is a few acts on it. -/
namespace AetherHF.Radio

open Link (TxFrame)

structure Desk (P : Type) where
  pending : List Outgoing
  playback : List ℚ
  transmitting : Bool
  playingTest : Bool
  /-- What is rendered or on the air is the engine's. -/
  keying : Bool
  authorized : Bool
  queue : List QueuedDatagram
  onAir : Option (Option Text)
  ptt : PttWatchdog P
  /-- The radio refused, and the transmission is not given up yet. -/
  failed : Bool
  log : List Entry

def Station.desk {P : Type} (s : Station P) : Desk P where
  pending := s.pending
  playback := s.playback
  transmitting := s.transmitting
  playingTest := s.playingTest
  keying := s.keying.isSome
  authorized := s.authorized.isSome
  queue := s.datagrams.queue
  onAir := s.datagrams.onAir
  ptt := s.ptt
  failed := false
  log := s.log

namespace Desk

variable {P : Type} (d : Desk P)

def tell (entries : List Entry) : Desk P := { d with log := d.log ++ entries }

/-- The engine told of what it has on the air. -/
def answer (outcome : Outcome) : Desk P :=
  if d.keying then { d with keying := false }.tell [.answered none outcome] else d

/-- The engine's transmissions still queued dropped. -/
def dropLinks : Desk P :=
  { d with pending := d.pending.filter fun next => !next.isLink }.tell
    ((d.pending.filterMap Outgoing.link?).map fun tx => .answered (some tx) .dropped)

def fallSilent : Desk P := { d with playback := [], authorized := false }

/-- What is said of a datagram, where its client asked. -/
def report (reference : Option Text) (sent : Bool) : Desk P :=
  match reference with
  | none => d
  | some reference => d.tell [.reported reference sent]

/-- The datagram on the air reported. -/
def land (sent : Bool) : Desk P :=
  match d.onAir with
  | none => d
  | some reference => { d with onAir := none }.report reference sent

def refuseBurst (reference : Option Text) (last : Bool) : Desk P :=
  if last then d.report reference false
  else match d.queue with
    | front :: rest => { d with queue := rest }.report front.reference false
    | [] => d.report reference false

def refuseAll (dropped : List Outgoing) : Desk P :=
  dropped.foldl (fun (d : Desk P) next => match next with
    | .datagram _ reference last => d.refuseBurst reference last
    | _ => d) d

/-- What the gate lets go is off the queue. -/
def take (next : Outgoing) (rest : List Outgoing) : Desk P :=
  { d with
    pending := rest
    authorized := true
    onAir := match next with
      | .datagram _ reference true => some reference
      | _ => d.onAir }

variable [Ptt P]

def release : Desk P := { d with ptt := d.ptt.unkey.2 }.tell [.released d.ptt.unkey.1.isOk]

/-- A release the radio refuses is a failure. -/
def letGo : Desk P := { d.release with failed := !d.ptt.unkey.1.isOk }

end Desk

/-- Nothing rendered, and nothing on the air. -/
structure Desk.Resting {P : Type} (d : Desk P) : Prop where
  silent : d.playback = []
  quiet : d.transmitting = false
  well : d.failed = false

/-- Rendered, and allowed. -/
structure Desk.Waiting {P : Type} (d : Desk P) : Prop where
  sounds : d.playback ≠ []
  quiet : d.transmitting = false
  leave : d.authorized = true
  well : d.failed = false

/-- Past the latest it may radiate. -/
def late (radiatesAt : ℚ) (latest : Option ℚ) : Prop := ∃ l ∈ latest, l + Station.micro < radiatesAt

namespace Desk

variable {P : Type} (d : Desk P)

def hand (tx : LinkTx) : Desk P := { d with pending := d.pending ++ [Outgoing.link tx] }.tell [.handed tx]

/-- A datagram's next burst, on the queue of transmissions. -/
def feed (front : QueuedDatagram) (rest : List QueuedDatagram) : Desk P :=
  match front.bursts with
  | [] => { d with queue := rest }
  | burst :: bursts =>
    { d with
      queue := if bursts.isEmpty then rest else { front with bursts } :: rest
      pending := d.pending ++ [.datagram burst front.reference bursts.isEmpty] }

def accept (datagram : QueuedDatagram) : Desk P :=
  { d with queue := d.queue ++ [datagram] }.tell (datagram.reference.map Entry.accepted).toList

def reportAll (queue : List QueuedDatagram) : Desk P :=
  queue.foldl (fun (d : Desk P) datagram => d.report datagram.reference false) d

def clear : Desk P := ({ d with queue := [] }.tell [.cleared (d.pending.any Outgoing.earlier)]).reportAll d.queue

variable [Ptt P]

def keyAt (now : ℚ) : Desk P := { d with authorized := false, ptt := (d.ptt.key now).2 }

def finished : Desk P := { d with transmitting := false, playingTest := false }

def trip (now : ℚ) (outcome : Outcome) : Desk P :=
  let d := ({ d with ptt := (d.ptt.poll now).2 }.tell [.released true]).tell
    [.tripped d.playingTest (d.onAir.isSome || d.pending.any Outgoing.isDatagram)]
  { (d.fallSilent.answer outcome).dropLinks with pending := [], transmitting := false }.letGo

def cardDrop : Desk P :=
  { (d.tell [.cardDropped d.onAir.isSome]).answer .dropped with
    playback := [], transmitting := false, playingTest := false }.letGo

def abandon (outcome : Outcome) : Desk P :=
  let d := (d.answer outcome).dropLinks.fallSilent.land false
  ({ d with pending := [] }.refuseAll d.pending).finished.release

end Desk

/-- One act. -/
inductive Act {P : Type} [Ptt P] : Desk P → Desk P → Prop
  | hand (d : Desk P) (tx : LinkTx) : Act d (d.hand tx)
  | put (d : Desk P) (next : Outgoing) (own : next.own = true) : Act d { d with pending := d.pending ++ [next] }
  | prune (d : Desk P) (keep : Outgoing → Bool) (kept : ∀ next ∈ d.pending, next.own = false → keep next = true) :
      Act d { d with pending := d.pending.filter keep }
  | await (d : Desk P) {seconds : ℚ} {untilS : Option ℚ} {rest : List Outgoing}
      (head : d.pending = .pause seconds untilS :: rest) (deadline : Option ℚ) :
      Act d { d with pending := .pause seconds deadline :: rest }
  | resume (d : Desk P) {seconds : ℚ} {untilS : Option ℚ} {rest : List Outgoing}
      (head : d.pending = .pause seconds untilS :: rest) : Act d { d with pending := rest }
  | refuse (d : Desk P) (resting : d.Resting) {next : Outgoing} {rest : List Outgoing} (head : d.pending = next :: rest)
      (own : next.own = true) : Act d ({ d with pending := rest, authorized := false }.tell [.refused next])
  | refuseLink (d : Desk P) (resting : d.Resting) {tx : LinkTx} {rest : List Outgoing} (head : d.pending = .link tx :: rest) :
      Act d (({ d with pending := rest, authorized := false }.tell [.refused (.link tx)]).tell [.answered (some tx) .dropped])
  | refuseDatagram (d : Desk P) (resting : d.Resting) {frames : List TxFrame} {reference : Option Text} {last : Bool}
      {rest : List Outgoing} (head : d.pending = .datagram frames reference last :: rest) :
      Act d (({ d with pending := rest, authorized := false }.tell [.refused (.datagram frames reference last)]).refuseBurst
        reference last)
  | dropLinks (d : Desk P) (free : d.Resting ∨ d.keying = false ∨ d.transmitting = true ∧ d.playingTest = true) :
      Act d d.dropLinks
  | render (d : Desk P) (resting : d.Resting) (leave : Leave) {rest : List Outgoing} (head : d.pending = leave.next :: rest)
      (audio : List ℚ) (keying test : Bool) (sounds : leave.next.own = false → audio ≠ [])
      (keys : keying = true → leave.next.isLink = true ∨ d.keying = true) (link : leave.next.isLink = true → keying = true)
      (linkTest : leave.next.isLink = true → test = true → d.playingTest = true)
      (datagramTest : leave.next.isDatagram = true → test = false) :
      Act d ((({ d.take leave.next rest with playback := audio, keying, playingTest := test } : Desk P).tell [.judged leave]).tell
        [.rendered leave.next audio])
  | unrendered (d : Desk P) (resting : d.Resting) (leave : Leave) {rest : List Outgoing}
      (head : d.pending = leave.next :: rest) (other : leave.next.isLink = false) :
      Act d (((d.take leave.next rest).tell [.judged leave]).tell [.unrendered leave.next])
  | unrenderedLink (d : Desk P) (resting : d.Resting) (leave : Leave) {rest : List Outgoing} {tx : LinkTx}
      (is : leave.next = .link tx) (head : d.pending = .link tx :: rest) (outcome : Outcome) :
      Act d ((((d.take (.link tx) rest).tell [.judged leave]).tell [.unrendered (.link tx)]).tell [.answered (some tx) outcome])
  | keyUp (d : Desk P) (waiting : d.Waiting) (now radiatesAt : ℚ) (latest : Option ℚ) (obeyed : (d.ptt.key now).1 = .ok ())
      (inTime : ¬ late radiatesAt latest) :
      Act d ({ d.keyAt now with transmitting := true }.tell [.keyed radiatesAt latest])
  | keyLate (d : Desk P) (waiting : d.Waiting) (keys : d.keying = true) (now radiatesAt : ℚ) (latest : Option ℚ)
      (obeyed : (d.ptt.key now).1 = .ok ()) (late_ : late radiatesAt latest) :
      Act d ((((d.keyAt now).tell [.keyed radiatesAt latest]).release.fallSilent).answer .dropped)
  | keyStuck (d : Desk P) (waiting : d.Waiting) (now radiatesAt : ℚ) (latest : Option ℚ)
      (obeyed : (d.ptt.key now).1 = .ok ()) (late_ : late radiatesAt latest) :
      Act d { ((d.keyAt now).tell [.keyed radiatesAt latest]).release with failed := true }
  | keyRefused (d : Desk P) (waiting : d.Waiting) (now : ℚ) : Act d { (d.keyAt now).tell [.keyRefused] with failed := true }
  | play (d : Desk P) (on : d.transmitting = true) (well : d.failed = false) (count : Nat) :
      Act d ({ d with playback := d.playback.drop count }.tell [.played (d.playback.take count)])
  | finish (d : Desk P) (on : d.transmitting = true) (silent : d.playback = []) (sent : Bool) :
      Act d ((d.finished.release.land sent).answer .done)
  | finishStuck (d : Desk P) (on : d.transmitting = true) (silent : d.playback = []) :
      Act d { d.finished.release with failed := true }
  | cut (d : Desk P) (on : d.transmitting = true) (test : d.playingTest = false) (outcome : Outcome) :
      Act d (d.fallSilent.answer outcome).dropLinks
  | discard (d : Desk P) (quiet : d.transmitting = false) (keys : d.keying = true) : Act d (d.fallSilent.answer .dropped)
  | pollStuck (d : Desk P) (now : ℚ) : Act d { { d with ptt := (d.ptt.poll now).2 }.tell [.released false] with failed := true }
  | trip (d : Desk P) (now : ℚ) (outcome : Outcome) : Act d (d.trip now outcome)
  | cardDrop (d : Desk P) (on : d.transmitting = true) : Act d d.cardDrop
  | abandon (d : Desk P) (outcome : Outcome) : Act d ({ d with failed := false }.abandon outcome)
  /-- Audio without leave is never keyed. -/
  | unjudged (d : Desk P) (sounds : d.playback ≠ []) (quiet : d.transmitting = false) (none_ : d.authorized = false)
      (well : d.failed = false) : Act d { d with playback := [] }
  | stopTest (d : Desk P) (test : d.playingTest = true) : Act d { d with playback := [], playingTest := false }
  | accept (d : Desk P) (datagram : QueuedDatagram) (bursts : datagram.bursts ≠ []) : Act d (d.accept datagram)
  | feed (d : Desk P) (resting : d.Resting) (empty : d.pending = []) {front : QueuedDatagram} {rest : List QueuedDatagram}
      (queued : d.queue = front :: rest) : Act d (d.feed front rest)
  | clear (d : Desk P) : Act d d.clear

abbrev Acts {P : Type} [Ptt P] : Desk P → Desk P → Prop := Relation.ReflTransGen Act

end AetherHF.Radio
