import AetherHF.Link.Granted.Ends
import AetherHF.Link.Granted.StreamHandle

/-! Two stations in one session, and any frame either hands over lost, decoded late,
twice or not at all. Each direction is a selective-repeat stream, so each station
delivers a prefix of what the other was given, and what is acknowledged has arrived. -/
namespace AetherHF.Link

open SelectiveRepeat (Stream Steps Inv)

/-! ### A station's side of a session -/

namespace Action

/-- The session is over. -/
def ends : Action → Bool
  | .event (.disconnected _) => true
  | _ => false

def frames : Action → List TxFrame
  | .transmit t => t.frames
  | _ => []

def bytes : Action → Bytes
  | .deliver data => data
  | _ => []

end Action

/-- The actions of the session, as far as its end. -/
def ofSession (actions : List Action) : List Action := actions.takeWhile fun action => !action.ends

/-- A DISC or a `DISC_ACK`. -/
def TxFrame.closes (f : TxFrame) : Bool :=
  f.container = .control && match GrantFrame.decode f.payload with
    | .ok ctl => ctl.kind = .disc || ctl.kind = .discAck
    | .error _ => false

/-- A frame handed over: a DATA frame under the place of its block in the stream, a
CONTROL frame under the blocks the other station had acknowledged when it was made. -/
structure SentFrame where
  container : Container
  payload : Bytes
  mark : Nat

/-- A station in a session, with what went over it, the latest of each first. Places
count from the session's start; `live` until it ends here. -/
structure Side where
  engine : Engine
  live : Bool := true
  sends : List Bytes := []
  deliveries : List Bytes := []
  /-- This station's blocks acknowledged in order. -/
  taken : Nat := 0
  /-- The other's blocks delivered. -/
  got : Nat := 0
  sent : List SentFrame := []

namespace Side

variable (s : Side)

/-- The bytes the station was given to send. -/
def given : Bytes := s.sends.reverse.flatten

/-- The bytes of the other station's it delivered. -/
def delivered : Bytes := s.deliveries.reverse.flatten

def mark (others : Nat) (f : TxFrame) : SentFrame where
  container := f.container
  payload := f.payload
  mark := match f.container with
    | .control => others
    | .data => match decodeData f.payload with
      | .ok (header, _) => s.taken + seqDistance header.seq s.engine.tx.base
      | .error _ => 0

def givenBy : Input → Bytes
  | .send data => data
  | _ => []

/-- The frames a call hands over for the session: of its end, only the closing ones. -/
def handsOver (actions : List Action) : List TxFrame :=
  (if s.live then (ofSession actions).flatMap Action.frames else []) ++
    (actions.flatMap Action.frames).filter TxFrame.closes

/-- What a call comes to: the engine after it, its actions taken. -/
def take (others : Nat) (input : Input) (actions : List Action) (engine : Engine) : Side :=
  let live := s.live && !actions.any Action.ends
  { engine
    live
    sends := if s.live then givenBy input :: s.sends else s.sends
    deliveries := if s.live then (ofSession actions).flatMap Action.bytes :: s.deliveries else s.deliveries
    taken := if live then s.taken + seqDistance engine.tx.base s.engine.tx.base else s.taken
    got := if live then s.got + seqDistance engine.rx.base s.engine.rx.base else s.got
    sent := (s.handsOver actions).map (s.mark others) ++ s.sent }

@[simp] theorem take_given (others : Nat) (input : Input) (actions : List Action) (engine : Engine) :
    (s.take others input actions engine).given = if s.live then s.given ++ givenBy input else s.given := by
  unfold take given
  split <;> simp

@[simp] theorem take_delivered (others : Nat) (input : Input) (actions : List Action) (engine : Engine) :
    (s.take others input actions engine).delivered =
      if s.live then s.delivered ++ (ofSession actions).flatMap Action.bytes else s.delivered := by
  unfold take delivered
  split <;> simp

/-- One call of the engine's, when the other station has had `others` blocks acknowledged. -/
def call [Libm] (others : Nat) (input : Input) : Side :=
  s.take others input (s.engine.handle input).actions (s.engine.handle input).drain.2

end Side

/-! ### Both sides -/

/-- How late what is read may be: blocks delivered since a data frame's, blocks
acknowledged since a control frame was made. -/
structure Lateness where
  data : Option Nat
  control : Option Nat

def within (bound : Option Nat) (now mark : Nat) : Prop := ∀ limit ∈ bound, now < mark + limit

/-- A frame decodes, alone or combined, only to what the other station handed over. -/
def Hears (late : Lateness) (s other : Side) (soft : SoftFrame) : Prop :=
  match soft.container with
  | .data => ∀ payload, Engine.heardAs soft payload → ∃ f ∈ other.sent, f.container = .data ∧
      f.payload = payload ∧ ∀ header body, decodeData payload = .ok (header, body) → header.kind = .data →
        within late.data s.got (f.mark + 1)
  | .control => ∀ payload, (soft.decode none).1 = some payload → ∃ f ∈ other.sent,
      f.container = .control ∧ f.payload = payload ∧ within late.control s.taken f.mark

structure Pair where
  a : Side
  b : Side

namespace Pair

def start (a b : Engine) : Pair :=
  ⟨{ engine := a, sends := [a.tx.queue] }, { engine := b, sends := [b.tx.queue] }⟩

/-- A call of either engine's; a frame it hears is one the other handed over. -/
inductive Step [Libm] (late : Lateness) (p : Pair) : Pair → Prop
  | a (input : Input) (hears : ∀ soft now, input = .frame soft now → Hears late p.a p.b soft) :
      Step late p { p with a := p.a.call p.b.taken input }
  | b (input : Input) (hears : ∀ soft now, input = .frame soft now → Hears late p.b p.a soft) :
      Step late p { p with b := p.b.call p.a.taken input }

abbrev Run [Libm] (late : Lateness) : Pair → Pair → Prop := Relation.ReflTransGen (Step late)

end Pair

/-- Two engines whose session has just begun. -/
structure Opened (a b : Engine) : Prop where
  up : a.state.inSession = true ∧ b.state.inSession = true
  session : a.session = b.session
  blank : a.Blank ∧ b.Blank
  drained : a.actions = [] ∧ b.actions = []

/-! ### What a frame handed over says -/

/-- A data frame of a stream: a copy of the block at its place. -/
def Copies (s : Stream Bytes) (payload : Bytes) (place : Nat) : Prop :=
  ∀ header body, decodeData payload = .ok (header, body) → header.kind = .data → CopyOf s place header body

/-- A control frame that acknowledges a stream says what is so. -/
def Acknowledges (s : Stream Bytes) (payload : Bytes) (from_ : Nat) : Prop :=
  ∀ ctl, GrantFrame.decode payload = .ok ctl → ctl.kind = .header ∨ ctl.kind = .answer → AckOf s from_ ctl

theorem Copies.steps {s s' : Stream Bytes} {payload : Bytes} {place : Nat} (copies : Copies s payload place)
    (steps : Steps window s s') : Copies s' payload place :=
  fun header body read kind => (copies header body read kind).steps steps

theorem Acknowledges.steps {s s' : Stream Bytes} {payload : Bytes} {from_ : Nat}
    (ack : Acknowledges s payload from_) (steps : Steps window s s') : Acknowledges s' payload from_ :=
  fun ctl read kind => (ack ctl read kind).steps steps

/-- What a station hands over between its own stream `s` and the other's `t`. -/
structure FrameSays (base from_ : Nat) (s t : Stream Bytes) (f : TxFrame) : Prop where
  data : f.container = .data → ∀ header body, decodeData f.payload = .ok (header, body) →
    header.kind = .data → ∃ k, base ≤ k ∧ k < base + 256 ∧ CopyOf s k header body
  control : f.container = .control → Acknowledges t f.payload from_

theorem FrameSays.steps {base from_ : Nat} {s s' t t' : Stream Bytes} {f : TxFrame}
    (frame : FrameSays base from_ s t f) (steps : Steps window s s') (steps' : Steps window t t') :
    FrameSays base from_ s' t' f where
  data container header body read kind := by
    obtain ⟨k, low, high, copy⟩ := frame.data container header body read kind
    exact ⟨k, low, high, copy.steps steps⟩
  control container := (frame.control container).steps steps'

/-- A frame the engine may hand over says what is so of both streams. -/
theorem FrameOf.holds {e : Engine} {f : TxFrame} {s t : Stream Bytes} {base from_ : Nat} (of : FrameOf e f)
    (sends : Sends e.tx s) (inv : Inv window s) (gets : Gets e.rx t) (low : base ≤ s.base)
    (near : s.base ≤ base + 200) (from_le : from_ ≤ t.got) : FrameSays base from_ s t f := by
  have room := inv.room
  rw [show window = 16 from rfl] at room
  cases of with
  | data container up data =>
    refine ⟨fun _ header body read kind => ?_, fun control => absurd (container.symm.trans control) nofun⟩
    obtain ⟨k, first, last, copy⟩ := sends.copyOf inv data read kind
    exact ⟨k, by omega, by omega, copy⟩
  | opening container kinds encoded =>
    refine ⟨fun _ header body read kind => ?_, fun control => absurd (container.symm.trans control) nofun⟩
    rw [decodeData_of_encodeData encoded] at read
    cases read
    exact absurd kind kinds.1
  | acknowledging container payload base_ bitmap =>
    refine ⟨fun data => absurd (container.symm.trans data) nofun, fun _ ctl read _ => ?_⟩
    obtain ⟨g, decoded, _, same, bits⟩ := GrantFrame.decode_encode _
    rw [payload, decoded] at read
    cases read
    exact gets.ackOf from_le (same.trans base_) (bits.trans bitmap)
  | closing container payload kind =>
    refine ⟨fun data => absurd (container.symm.trans data) nofun, fun _ ctl read kinds => ?_⟩
    obtain ⟨g, decoded, same, _⟩ := GrantFrame.decode_encode _
    rw [payload, decoded] at read
    cases read
    rw [same] at kinds
    rcases kind with is | is <;> rw [is] at kinds <;> rcases kinds with no | no <;> cases no

/-! ### The actions of a call -/

theorem ofSession_append {actions new : List Action} (open_ : actions.any Action.ends = false) :
    ofSession (actions ++ new) = actions ++ ofSession new :=
  List.takeWhile_append_of_pos fun action member => by
    simpa using List.any_eq_false.mp open_ action member

theorem ofSession_open {actions : List Action} (open_ : actions.any Action.ends = false) :
    ofSession actions = actions := by
  simpa [ofSession] using @ofSession_append actions [] open_

theorem ofSession_ended {actions new : List Action} (ended : actions.any Action.ends = true) :
    ofSession (actions ++ new) = ofSession actions := by
  induction actions with
  | nil => cases ended
  | cons action rest ih =>
    unfold ofSession at ih ⊢
    by_cases here : action.ends = true
    · simp [here]
    · simp only [List.any_cons, here, Bool.false_or] at ended
      simp [here, ih ended]

/-- A step tells the driver more, and takes nothing back. -/
theorem Micro.extends {b : Brought} {e e' : Engine} (step : Micro b e e') :
    ∃ new, e'.actions = e.actions ++ new := by
  cases step with
  | quiet quiet => exact ⟨[], by rw [quiet.actions, List.append_nil]⟩
  | tell _ _ _ actions => exact ⟨_, actions⟩
  | transmit _ _ _ actions => exact ⟨_, actions⟩
  | give => exact ⟨[], (List.append_nil _).symm⟩
  | cut => exact ⟨[], (List.append_nil _).symm⟩
  | ack => exact ⟨[], (List.append_nil _).symm⟩
  | accept payload header body late =>
    obtain ⟨ready, delivers⟩ := e.acceptData_delivers header body late
    exact ⟨_, delivers.actions⟩
  | leave _ _ _ _ _ _ actions => exact ⟨_, actions⟩
  | call _ _ _ _ _ actions => exact ⟨[], by rw [actions, List.append_nil]⟩
  | up _ _ _ _ actions => exact ⟨_, actions⟩
  | called _ _ _ _ _ _ _ actions => exact ⟨_, actions⟩

/-! ### One call of one side -/

/-- Where a side is in a call, its streams having stood at `s₀` and `t₀`: its own is at
`s`, the other's at `t`. -/
structure During (a : Side) (given : Bytes) (others : Nat) (s₀ t₀ : Stream Bytes) (e : Engine)
    (s t : Stream Bytes) : Prop where
  steps : Steps window s₀ s
  steps' : Steps window t₀ t
  settled : s.Settled
  settled' : t.Settled
  got : s.got = s₀.got
  held : s.held = s₀.held
  sent' : t.sent = t₀.sent
  base' : t.base = t₀.base
  live : e.actions.any Action.ends = false → e.state.inSession = true ∧ Sends e.tx s ∧ Gets e.rx t ∧
    given = s.sent.flatten ++ e.tx.queue
  given : s.sent.flatten <+: given
  delivered : a.delivered ++ (ofSession e.actions).flatMap Action.bytes = t.passedOn.flatten
  frames : ∀ f ∈ (ofSession e.actions).flatMap Action.frames, FrameSays s₀.base others s t f

section

variable {a : Side} {given : Bytes} {others : Nat} {s₀ t₀ s t : Stream Bytes} {e e' : Engine}

/-- After the session's end, or with nothing told of it, the streams stand. -/
theorem During.ended (during : During a given others s₀ t₀ e s t) {new : List Action}
    (ended : e.actions.any Action.ends = true) (actions : e'.actions = e.actions ++ new) :
    During a given others s₀ t₀ e' s t where
  __ := during
  live open_ := by
    rw [actions, List.any_append, ended] at open_
    cases open_
  delivered := by
    rw [actions, ofSession_ended ended]
    exact during.delivered
  frames := by
    rw [actions, ofSession_ended ended]
    exact during.frames

/-- A step of a session that is up: where the streams go, and what is told. -/
theorem During.moves (during : During a given others s₀ t₀ e s t)
    (open_ : e.actions.any Action.ends = false) {s' t' : Stream Bytes} {new : List Action}
    (actions : e'.actions = e.actions ++ new) (steps : Steps window s s') (steps' : Steps window t t')
    (settled : s'.Settled) (settled' : t'.Settled) (got : s'.got = s.got) (held : s'.held = s.held)
    (sent' : t'.sent = t.sent) (base' : t'.base = t.base) (up : e'.state.inSession = true) (sends : Sends e'.tx s')
    (gets : Gets e'.rx t') (given_ : given = s'.sent.flatten ++ e'.tx.queue)
    (delivered : t'.passedOn.flatten = t.passedOn.flatten ++ (ofSession new).flatMap Action.bytes)
    (frames : ∀ f ∈ (ofSession new).flatMap Action.frames, FrameSays s₀.base others s' t' f) :
    During a given others s₀ t₀ e' s' t' where
  steps := during.steps.trans steps
  steps' := during.steps'.trans steps'
  settled := settled
  settled' := settled'
  got := got.trans during.got
  held := held.trans during.held
  sent' := sent'.trans during.sent'
  base' := base'.trans during.base'
  live _ := ⟨up, sends, gets, given_⟩
  given := given_ ▸ List.prefix_append _ _
  delivered := by
    rw [actions, ofSession_append open_, List.flatMap_append, ← List.append_assoc, delivered,
      ← during.delivered, ofSession_open open_]
  frames := by
    rw [actions, ofSession_append open_, List.flatMap_append]
    intro f member
    rcases List.mem_append.mp member with old | new
    · exact (during.frames f (by rwa [ofSession_open open_])).steps steps steps'
    · exact frames f new

theorem Sends.kept (sends : Sends e.tx s) (kept : Kept e e') : Sends e'.tx s :=
  ⟨kept.txBase.trans sends.base, kept.txNext.trans sends.next, records_reworked sends.records kept.records⟩

theorem Gets.kept (gets : Gets e.rx t) (kept : Kept e e') : Gets e'.rx t :=
  gets.same kept.rxBase kept.buf kept.pieces kept.measured

/-- The streams stand while the session does. -/
theorem During.still (during : During a given others s₀ t₀ e s t)
    (open_ : e.actions.any Action.ends = false) (still : Still e e') {new : List Action}
    (actions : e'.actions = e.actions ++ new) (bytes : (ofSession new).flatMap Action.bytes = [])
    (frames : ∀ f ∈ (ofSession new).flatMap Action.frames, FrameSays s₀.base others s t f) :
    During a given others s₀ t₀ e' s t := by
  obtain ⟨up, sends, gets, given_⟩ := during.live open_
  exact during.moves open_ actions .refl .refl during.settled during.settled' rfl rfl rfl rfl
    (still.inSession.trans up) (sends.kept still.toKept) (gets.kept still.toKept) (still.queue ▸ given_)
    (by rw [bytes, List.append_nil]) frames

/-- A step in which the other station is not heard moves only this one's stream, and
not its base. -/
theorem During.micro {b : Brought} (during : During a given others s₀ t₀ e s t) (inv : Inv window s₀)
    (inv' : Inv window t₀) (others_le : others ≤ t₀.base) (step : Micro b.mute e e')
    (nothing : ∀ data, ¬b.bytes data) :
    ∃ s', During a given others s₀ t₀ e' s' t ∧ s'.base = s.base := by
  obtain ⟨more, extends_⟩ := step.extends
  by_cases open_ : e.actions.any Action.ends = true
  · exact ⟨s, during.ended open_ extends_, rfl⟩
  have open_ : e.actions.any Action.ends = false := by simpa using open_
  obtain ⟨up, sends, gets, given_⟩ := during.live open_
  have invs := inv.steps during.steps
  have invt := inv'.steps during.steps'
  cases step with
  | quiet quiet =>
    exact ⟨s, during.still open_ quiet.toStill (quiet.actions.trans (List.append_nil _).symm) rfl
      (by simp [ofSession]), rfl⟩
  | tell still event other actions =>
    have plain : Action.ends (.event event) = false := by cases event <;> first | rfl | cases other
    exact ⟨s, during.still open_ still actions (by simp [ofSession, plain, Action.bytes])
      (by simp [ofSession, plain, Action.frames]), rfl⟩
  | transmit still sent frames actions =>
    refine ⟨s, during.still open_ still actions (by simp [ofSession, Action.ends, Action.bytes]) ?_, rfl⟩
    intro f member
    have among : f ∈ sent.frames := by simpa [ofSession, Action.ends, Action.frames] using member
    have low := during.steps.base_le
    have behind := invs.behind
    have got := during.got
    have ahead := inv.ahead
    have room := inv.room
    have from_ := invt.behind
    rw [during.base'] at from_
    rw [show window = 16 from rfl] at room
    exact (frames f among).holds sends invs gets low (by omega) (others_le.trans from_)
  | give data given => exact absurd given (nothing data)
  | cut rung take room session =>
    obtain ⟨near, sends'⟩ := sends.cut invs rung take room
    refine ⟨s.cut (e.tx.queue.take take), during.moves open_ (List.append_nil _).symm (.single (.cut _ near))
      .refl during.settled during.settled' rfl rfl rfl rfl up sends' gets ?_ (by simp [ofSession])
      (by simp [ofSession]), rfl⟩
    simp [given_, Stream.cut, Sender.cut]
  | ack _ told => exact told.elim
  | accept _ _ _ _ heard => exact heard.elim
  | leave reason idle remote queue blank _ actions =>
    refine ⟨s, { during with live := fun open' => ?_, delivered := ?_, frames := ?_ }, rfl⟩
    · rw [actions] at open'
      simp [Action.ends] at open'
    · have told := during.delivered
      rw [ofSession_open open_] at told
      rw [actions, ofSession_append open_]
      simpa [ofSession, Action.ends] using told
    · have frames := during.frames
      rw [ofSession_open open_] at frames
      rw [actions, ofSession_append open_]
      simpa [ofSession, Action.ends] using frames
  | call idle => exact absurd idle (inSession_busy up)
  | up _ calling => rw [calling] at up; cases up
  | called outside => rw [outside] at up; cases up

/-- Nothing of the other station heard. -/
theorem During.mute {b : Brought} (during : During a given others s₀ t₀ e s t) (inv : Inv window s₀)
    (inv' : Inv window t₀) (others_le : others ≤ t₀.base) (moves : Moves b.mute e e')
    (nothing : ∀ data, ¬b.bytes data) :
    ∃ s', During a given others s₀ t₀ e' s' t ∧ s'.base = s.base := by
  induction moves with
  | refl => exact ⟨s, during, rfl⟩
  | tail _ step ih =>
    obtain ⟨s₁, during₁, base₁⟩ := ih
    obtain ⟨s₂, during₂, base₂⟩ := during₁.micro inv inv' others_le step nothing
    exact ⟨s₂, during₂, base₂.trans base₁⟩

/-- What a call brings of the other station is a copy of a block of its stream not too
long passed on, or says what is so of this one's. -/
structure Tidings (b : Brought) (s t : Stream Bytes) : Prop where
  data : ∀ payload header body, b.data payload → decodeData payload = .ok (header, body) →
    header.kind = .data → ∃ k, CopyOf t k header body ∧ t.got ≤ k + 240
  control : ∀ ctl, b.control ctl → ctl.kind = .header ∨ ctl.kind = .answer →
    ∃ from_, AckOf s from_ ctl ∧ s.base < from_ + 112

/-- The step in which the other station is heard. -/
theorem During.hears {b : Brought} (during : During a given others s₀ t₀ e s t₀) (inv : Inv window s₀)
    (inv' : Inv window t₀) (others_le : others ≤ t₀.base) (base : s.base = s₀.base) (step : Micro b e e')
    (nothing : ∀ data, ¬b.bytes data) (tidings : Tidings b s₀ t₀) :
    ∃ s' t', During a given others s₀ t₀ e' s' t' := by
  obtain ⟨more, extends_⟩ := step.extends
  by_cases open_ : e.actions.any Action.ends = true
  · exact ⟨s, t₀, during.ended open_ extends_⟩
  have open_ : e.actions.any Action.ends = false := by simpa using open_
  obtain ⟨up, sends, gets, given_⟩ := during.live open_
  have invs := inv.steps during.steps
  have muted (step : Micro b.mute e e') : ∃ s' t', During a given others s₀ t₀ e' s' t' := by
    obtain ⟨s', later, _⟩ := during.micro inv inv' others_le step nothing
    exact ⟨s', t₀, later⟩
  cases step with
  | ack ctl told _ kind =>
    obtain ⟨from_, ack, fresh⟩ := tidings.control ctl told kind
    have tells := (ack.steps during.steps).tells invs (base ▸ fresh)
    obtain ⟨s', steps, sends', sent, got, held⟩ := sends.applyAck invs during.settled tells
    have settled : s'.Settled := by
      unfold Stream.Settled
      rw [held, got]
      exact during.settled
    refine ⟨s', t₀, during.moves open_ (List.append_nil _).symm steps .refl settled during.settled' got held rfl rfl up
      sends' gets ?_ (by simp [ofSession]) (by simp [ofSession])⟩
    rw [sent, e.applyAck_queue]
    exact given_
  | accept payload header body late heard read _ kind =>
    obtain ⟨k, copy, fresh⟩ := tidings.data payload header body heard read kind
    obtain ⟨t', ready, steps, gets', settled, base', sent', delivers, passed⟩ :=
      gets.acceptData inv' during.settled' copy fresh late
    have delivered (ready : List Bytes) : ofSession (ready.map Action.deliver) = ready.map .deliver :=
      ofSession_open (by simp [Action.ends])
    refine ⟨s, t', during.moves open_ delivers.actions .refl steps during.settled settled rfl rfl sent' base'
      (delivers.state ▸ up) (delivers.tx ▸ sends) gets' (delivers.tx ▸ given_) ?_ ?_⟩
    · rw [passed, delivered, List.flatMap_map]
      simp only [Action.bytes, List.flatMap_id']
    · rw [delivered, List.flatMap_map]
      simp [Action.frames]
  | quiet quiet => exact muted (.quiet quiet)
  | tell still event other actions => exact muted (.tell still event other actions)
  | transmit still sent frames actions => exact muted (.transmit still sent frames actions)
  | give data given => exact muted (.give data given)
  | cut rung take room session => exact muted (.cut rung take room session)
  | leave reason idle remote queue blank windowed actions =>
    exact muted (.leave reason idle remote queue blank windowed actions)
  | call idle calling queue blank windowed actions =>
    exact muted (.call idle calling queue blank windowed actions)
  | up kept calling up role actions => exact muted (.up kept calling up role actions)
  | called outside while_ up queue blank windowed role actions =>
    exact muted (.called outside while_ up queue blank windowed role actions)

theorem During.once {b : Brought} (during : During a given others s₀ t₀ e s₀ t₀) (inv : Inv window s₀)
    (inv' : Inv window t₀) (others_le : others ≤ t₀.base) (once : Once b e e')
    (nothing : ∀ data, ¬b.bytes data) (tidings : Tidings b s₀ t₀) :
    ∃ s' t', During a given others s₀ t₀ e' s' t' := by
  cases once with
  | unheard moves =>
    obtain ⟨s', later, _⟩ := during.mute inv inv' others_le moves nothing
    exact ⟨s', t₀, later⟩
  | hears before step after =>
    obtain ⟨s₁, before, base⟩ := during.mute inv inv' others_le before nothing
    obtain ⟨s₂, t₂, heard⟩ := before.hears inv inv' others_le base step nothing tidings
    obtain ⟨s₃, later, _⟩ := heard.mute inv inv' others_le after nothing
    exact ⟨s₃, t₂, later⟩

end

/-! ### Both directions -/

/-- The stream from `a` to `b`, and where the two stand in it. -/
structure Half (a b : Side) (s : Stream Bytes) : Prop where
  inv : Inv window s
  settled : s.Settled
  sender : a.live = true → Sends a.engine.tx s ∧ a.given = s.sent.flatten ++ a.engine.tx.queue ∧
    a.taken = s.base
  taken : a.taken ≤ s.base
  given : s.sent.flatten <+: a.given
  receiver : b.live = true → Gets b.engine.rx s ∧ b.got = s.got
  delivered : b.delivered = s.passedOn.flatten
  copies : ∀ f ∈ a.sent, f.container = .data → Copies s f.payload f.mark
  acks : ∀ f ∈ b.sent, f.container = .control → Acknowledges s f.payload f.mark

/-- The driver has taken what it was told, and the session is up while it lives. -/
structure Side.Ready (a : Side) : Prop where
  drained : a.engine.actions = []
  up : a.live = true → a.engine.state.inSession = true

theorem closing_mark {a : Side} {others : Nat} {f : SentFrame} {actions : List Action}
    (member : f ∈ ((actions.flatMap Action.frames).filter TxFrame.closes).map (a.mark others)) :
    f.container = .control ∧ ∀ s from_, Acknowledges s f.payload from_ := by
  obtain ⟨frame, inside, rfl⟩ := List.mem_map.mp member
  have closes := (List.mem_filter.mp inside).2
  unfold TxFrame.closes at closes
  obtain ⟨container, kind⟩ := Bool.and_eq_true_iff.mp closes
  refine ⟨of_decide_eq_true container, fun s from_ ctl read kinds => ?_⟩
  have read : GrantFrame.decode frame.payload = .ok ctl := read
  rw [read] at kind
  rcases kinds with is | is <;> simp [is] at kind

/-- A frame handed over, under its mark. -/
theorem FrameSays.marked {a : Side} {others base : Nat} {s t : Stream Bytes} {f : TxFrame}
    (frame : FrameSays base others s t f) (taken : a.taken = base)
    (number : a.engine.tx.base = UInt8.ofNat base) :
    (f.container = .data → Copies s f.payload (a.mark others f).mark) ∧
      (f.container = .control → Acknowledges t f.payload (a.mark others f).mark) := by
  refine ⟨fun container header body read kind => ?_, fun container => ?_⟩
  · obtain ⟨k, low, high, copy⟩ := frame.data container header body read kind
    have distance := seqDistance_ofNat k base
    have place : (a.mark others f).mark = k := by
      simp only [Side.mark, container, read, taken, copy.seq, number]
      omega
    rwa [place]
  · have mark : (a.mark others f).mark = others := by simp only [Side.mark, container]
    rw [mark]
    exact frame.control container

section

variable {a b : Side} {s t : Stream Bytes} {others : Nat} {input : Input} {e : Engine}

/-- After its session's end a station says nothing more of the streams. -/
theorem Half.dead_sender (half : Half a b s) (dead : a.live = false) (actions : List Action) :
    Half (a.take others input actions e) b s where
  inv := half.inv
  settled := half.settled
  sender live := by simp [Side.take, dead] at live
  taken := by simp [Side.take, dead, half.taken]
  given := by simpa [dead] using half.given
  receiver := half.receiver
  delivered := half.delivered
  copies f member container := by
    rcases (List.mem_append.mp member).symm with old | new
    · exact half.copies f old container
    · have closing : f.container = .control := (closing_mark (by simpa [Side.handsOver, dead] using new)).1
      cases closing.symm.trans container
  acks := half.acks

theorem Half.dead_receiver (half : Half b a t) (dead : a.live = false) (actions : List Action) :
    Half b (a.take others input actions e) t where
  inv := half.inv
  settled := half.settled
  sender := half.sender
  taken := half.taken
  given := half.given
  receiver live := by simp [Side.take, dead] at live
  delivered := by simpa [dead] using half.delivered
  copies := half.copies
  acks f member container := by
    rcases (List.mem_append.mp member).symm with old | new
    · exact half.acks f old container
    · exact (closing_mark (by simpa [Side.handsOver, dead] using new)).2 t f.mark

/-- What a live station hands over, under its marks. -/
theorem During.marked {given : Bytes} {s' t' : Stream Bytes} (during : During a given others s t e s' t')
    (live : a.live = true) (half : Half a b s) {f : SentFrame}
    (member : f ∈ (a.handsOver e.actions).map (a.mark others)) :
    (f.container = .data → Copies s' f.payload f.mark) ∧
      (f.container = .control → Acknowledges t' f.payload f.mark) := by
  obtain ⟨sends, _, taken⟩ := half.sender live
  unfold Side.handsOver at member
  rw [List.map_append, if_pos live] at member
  rcases List.mem_append.mp member with session | closing
  · obtain ⟨frame, inside, rfl⟩ := List.mem_map.mp session
    exact (during.frames frame inside).marked taken sends.base
  · obtain ⟨container, says_⟩ := closing_mark closing
    exact ⟨fun data => (nomatch container.symm.trans data), fun _ => says_ _ _⟩

/-- A live station's own stream after a call. -/
theorem During.own {s' t' : Stream Bytes}
    (during : During a (a.given ++ Side.givenBy input) others s t e s' t') (live : a.live = true)
    (own : Half a b s) : Half (a.take others input e.actions e.drain.2) b s' := by
  obtain ⟨sends, _, taken⟩ := own.sender live
  have inv := own.inv.steps during.steps
  have low := during.steps.base_le
  have still (up : (a.take others input e.actions e.drain.2).live = true) :
      e.actions.any Action.ends = false := by simpa [Side.take, live] using up
  have place (open_ : e.actions.any Action.ends = false) :
      (a.take others input e.actions e.drain.2).taken = s'.base := by
    obtain ⟨_, sends', _⟩ := during.live open_
    have moved : (a.take others input e.actions e.drain.2).taken =
        a.taken + seqDistance e.tx.base a.engine.tx.base := by simp [Side.take, live, open_, Engine.drain]
    have distance := seqDistance_ofNat s'.base s.base
    have high := inv.behind
    have got := during.got
    have ahead := own.inv.ahead
    have room := own.inv.room
    rw [show window = 16 from rfl] at room
    rw [moved, sends'.base, sends.base, taken]
    omega
  refine ⟨inv, during.settled, fun up => ?_, ?_, ?_, fun up => ?_, ?_, fun f member container => ?_,
    fun f member container => ?_⟩
  · obtain ⟨_, sends', _, given⟩ := during.live (still up)
    refine ⟨sends', ?_, place (still up)⟩
    rw [Side.take_given, if_pos live]
    exact given
  · by_cases open_ : e.actions.any Action.ends = false
    · exact (place open_).le
    · have ended : e.actions.any Action.ends = true := by simpa using open_
      have stays : (a.take others input e.actions e.drain.2).taken = a.taken := by
        simp [Side.take, live, ended]
      rw [stays, taken]
      exact low
  · simpa [live] using during.given
  · obtain ⟨gets, got⟩ := own.receiver up
    exact ⟨gets.stands during.steps during.got during.held, got.trans during.got.symm⟩
  · rw [own.inv.passedOn_same during.steps during.got]
    exact own.delivered
  · rcases (List.mem_append.mp member).symm with old | new
    · exact (own.copies f old container).steps during.steps
    · exact (during.marked live own new).1 container
  · exact (own.acks f member container).steps during.steps

/-- The other station's stream after it. -/
theorem During.other {s' t' : Stream Bytes}
    (during : During a (a.given ++ Side.givenBy input) others s t e s' t') (live : a.live = true)
    (own : Half a b s) (other : Half b a t) : Half b (a.take others input e.actions e.drain.2) t' := by
  obtain ⟨gets, got⟩ := other.receiver live
  have inv := other.inv.steps during.steps'
  refine ⟨inv, during.settled', fun up => ?_, ?_, ?_, fun up => ?_, ?_, fun f member container => ?_,
    fun f member container => ?_⟩
  · obtain ⟨sends, given, taken⟩ := other.sender up
    exact ⟨sends.stands during.steps' during.sent' during.base', during.sent'.symm ▸ given,
      taken.trans during.base'.symm⟩
  · exact during.base'.symm ▸ other.taken
  · exact during.sent'.symm ▸ other.given
  · have open_ : e.actions.any Action.ends = false := by simpa [Side.take, live] using up
    obtain ⟨_, _, gets', _⟩ := during.live open_
    have moved : (a.take others input e.actions e.drain.2).got =
        a.got + seqDistance e.rx.base a.engine.rx.base := by simp [Side.take, live, open_, Engine.drain]
    refine ⟨gets', ?_⟩
    have distance := seqDistance_ofNat t'.got t.got
    have low := during.steps'.got_le
    have ahead := inv.ahead
    have room := other.inv.room
    have behind := other.inv.behind
    rw [show window = 16 from rfl] at room
    rw [during.sent'] at ahead
    rw [moved, gets'.base, gets.base, got]
    omega
  · have told := during.delivered
    simpa [live] using told
  · exact (other.copies f member container).steps during.steps'
  · rcases (List.mem_append.mp member).symm with old | new
    · exact (other.acks f old container).steps during.steps'
    · exact (during.marked live own new).2 container

end

end AetherHF.Link
