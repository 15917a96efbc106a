import AetherHF.Link.Granted.Credit

/-! Where a call of the engine's applies an acknowledgement, and that nothing else in the call
bears on the copies or their blocks. -/
namespace AetherHF.Link

namespace Engine

variable (e : Engine)

/-! ### The acknowledgement of a call -/

section

variable [Libm]

/-- Where `take_ack` is called for a control frame: the engine it is called on, and whether the
acknowledgement is applied fresh. -/
def masterAck (ctl : GrantFrame) (frame : Heard) : Option (Engine × Bool) :=
  if e.inSlot frame ∧ ctl.kind = .answer then some (((e.heard frame).takeReading ctl.snrDb).noteLateness frame, true) else none

def slaveAck (ctl : GrantFrame) (frame : Heard) : Option (Engine × Bool) :=
  if ctl.kind = .header then
    match e.placed frame true with
    | (false, e) => some (e, false)
    | (true, e) =>
      let e := ((e.heard frame).measureLateness frame).takeReading ctl.snrDb
      some ((e.openRx frame ctl.count.toNat ctl.dataFloor).noteOpening ctl, true)
  else none

def controlAck (ctl : GrantFrame) (frame : Heard) : Option (Engine × Bool) :=
  if e.state.inSession ∧ ctl.session = e.session &&& 0x7F then
    if e.role = .master then e.masterAck ctl frame else e.slaveAck ctl frame
  else none

/-- The acknowledgement a call applies: the control frame, the engine it is applied to, and whether
it is fresh. -/
def acknowledged : Input → Option (GrantFrame × Engine × Bool)
  | .frame soft now =>
    match soft.container, (soft.decode none).1 with
    | .control, some payload =>
      match GrantFrame.decode payload with
      | .ok ctl => ((e.listen now).controlAck ctl (Heard.of soft)).map fun ack => (ctl, ack)
      | .error _ => none
    | _, _ => none
  | _ => none

end

/-- Where an acknowledgement is applied in a call, and that nothing before or after it in the call
acknowledges, begins or ends anything, or ends what it does. -/
structure Applies (e e' : Engine) (ctl : GrantFrame) (fresh : Bool) (e₁ : Engine) [Libm] : Prop where
  before : Quiet e e₁
  up : e.state.inSession = true
  after : Moves ({} : Brought) (e₁.takeAck ctl fresh) e'

section

variable [Libm]

theorem masterControl_applies {ctl : GrantFrame} {frame : Heard} (up : e.state.inSession = true) :
    match e.masterAck ctl frame with
    | none => Moves {} e (e.masterControl ctl frame)
    | some (e₁, fresh) => Applies e (e.masterControl ctl frame) ctl fresh e₁ := by
  unfold masterAck masterControl
  by_cases inSlot : e.inSlot frame
  · simp only [inSlot, true_and, Bool.not_true, Bool.false_eq_true, if_false]
    have read : Quiet e ((e.heard frame).takeReading ctl.snrDb) := (e.heard_quiet frame).trans (takeReading_quiet _ _)
    generalize (e.heard frame).takeReading ctl.snrDb = e₁ at read ⊢
    cases kind : ctl.kind with
    | discAck => exact read.moves.trans (e₁.closeAcknowledged_moves frame)
    | disc => exact read.moves.trans (e₁.slaveLeft_quiet frame (read.inSession_of up)).moves
    | header => exact read.moves
    | answer =>
      refine ⟨read.trans (e₁.noteLateness_quiet frame), up, ?_⟩
      unfold takeAnswer
      extract_lets e₂ e₃ e₄ stop
      have wishes : Quiet ((e₁.noteLateness frame).takeAck ctl true) e₂ := takeWishes_quiet _ ctl frame
      have opened : Quiet e₂ e₃ := (e₂.openRx_quiet frame ctl.count.toNat ctl.dataFloor).trans (noteOpening_quiet _ ctl)
      have owed : Quiet e₃ e₄ := by
        unfold e₄
        split
        · exact .unseen rfl
        · exact .refl _
      exact (wishes.trans (opened.trans (owed.trans (e₄.stateEnd_quiet _ _)))).moves
  · simp only [inSlot, false_and, Bool.not_false, if_true, if_false, Bool.false_eq_true]
    exact .refl

theorem slaveControl_applies {ctl : GrantFrame} {frame : Heard} (up : e.state.inSession = true) :
    match e.slaveAck ctl frame with
    | none => Moves {} e (e.slaveControl ctl frame)
    | some (e₁, fresh) => Applies e (e.slaveControl ctl frame) ctl fresh e₁ := by
  have placed := e.placed_quiet frame true
  unfold slaveAck slaveControl
  generalize e.placed frame true = out at placed ⊢
  obtain ⟨ours, e₁⟩ := out
  dsimp only at placed
  by_cases header : ctl.kind = .header
  · simp only [header, if_true]
    cases ours with
    | false => exact ⟨placed, up, .refl⟩
    | true =>
      have read : Quiet e₁ (((e₁.heard frame).measureLateness frame).takeReading ctl.snrDb) :=
        ((e₁.heard_quiet frame).trans (measureLateness_quiet _ frame)).trans (takeReading_quiet _ _)
      dsimp only
      generalize ((e₁.heard frame).measureLateness frame).takeReading ctl.snrDb = e₂ at read ⊢
      have opened : Quiet e₂ ((e₂.openRx frame ctl.count.toNat ctl.dataFloor).noteOpening ctl) :=
        (e₂.openRx_quiet _ _ _).trans (noteOpening_quiet _ ctl)
      refine ⟨placed.trans (read.trans opened), up, ?_⟩
      unfold takeHeader
      extract_lets e₃
      have granted : Quiet (e₃.takeAck ctl true) ((e₃.takeAck ctl true).takeGrant ctl frame) := .unseen rfl
      exact granted.moves.trans (scheduleSlave_moves _)
  · simp only [header, if_false]
    cases ours with
    | false => exact placed.moves
    | true =>
      have read : Quiet e₁ (((e₁.heard frame).measureLateness frame).takeReading ctl.snrDb) :=
        ((e₁.heard_quiet frame).trans (measureLateness_quiet _ frame)).trans (takeReading_quiet _ _)
      dsimp only
      generalize ((e₁.heard frame).measureLateness frame).takeReading ctl.snrDb = e₂ at read ⊢
      refine (placed.trans read).moves.trans ?_
      cases kind : ctl.kind with
      | disc => exact (e₂.endSession_moves _ _).trans (answerDisc_moves _ _ _ _)
      | header => exact absurd kind header
      | answer => exact .refl
      | discAck => exact .refl

theorem onControl_applies (ctl : GrantFrame) (frame : Heard) :
    match e.controlAck ctl frame with
    | none => Moves {} e (e.onControl ctl frame)
    | some (e₁, fresh) => Applies e (e.onControl ctl frame) ctl fresh e₁ := by
  unfold controlAck onControl
  by_cases up : e.state.inSession = true
  · by_cases ours : ctl.session = e.session &&& 0x7F
    · by_cases master : e.role = .master
      · simp only [up, ours, master, and_self, if_true, Bool.not_true, Bool.false_eq_true, if_false, ne_eq, not_true_eq_false]
        exact e.masterControl_applies up
      · simp only [up, ours, master, and_self, if_true, Bool.not_true, Bool.false_eq_true, if_false, ne_eq, not_true_eq_false]
        exact e.slaveControl_applies up
    · simp only [up, ours, and_false, if_false, Bool.not_true, Bool.false_eq_true, ne_eq, not_false_eq_true, if_true]
      exact .refl
  · simp only [Bool.not_eq_true] at up
    simp only [up, Bool.false_eq_true, false_and, if_false, Bool.not_false, if_true]
    exact e.answerLeft_moves ctl frame

theorem onFrame_applies (soft : SoftFrame) (now : ℚ) :
    match e.acknowledged (.frame soft now) with
    | none => ∃ b : Brought, (∀ ctl, ¬ b.control ctl) ∧ Moves b e (e.onFrame soft now)
    | some (ctl, e₁, fresh) => Applies e (e.onFrame soft now) ctl fresh e₁ := by
  have listening : Quiet e (e.listen now) := .unseen rfl
  cases container : soft.container with
  | data =>
    have moves := (e.onFrame_once soft now).moves
    simp only [acknowledged, container]
    exact ⟨_, fun ctl told => by simpa [container] using told.1, moves⟩
  | control =>
    cases read : (soft.decode none).1 with
    | none =>
      simp only [acknowledged, onFrame, container, read]
      exact ⟨{}, fun _ told => told, listening.moves⟩
    | some payload =>
      cases decoded : GrantFrame.decode payload with
      | error refused =>
        simp only [acknowledged, onFrame, container, read, decoded]
        exact ⟨{}, fun _ told => told, listening.moves⟩
      | ok ctl =>
        have applies := (e.listen now).onControl_applies ctl (Heard.of soft)
        simp only [acknowledged, onFrame, container, read, decoded]
        generalize (e.listen now).controlAck ctl (Heard.of soft) = ack at applies ⊢
        cases ack with
        | none => exact ⟨{}, fun _ told => told, listening.moves.trans applies⟩
        | some ack =>
          obtain ⟨e₁, fresh⟩ := ack
          exact ⟨listening.trans applies.before, applies.up, applies.after⟩

/-- Of one call: what it acknowledges, or that it acknowledges nothing. -/
theorem handle_applies (input : Input) (undrained : input ≠ .drain) :
    match e.acknowledged input with
    | none => ∃ b : Brought, (∀ ctl, ¬ b.control ctl) ∧ Moves b e (e.handle input)
    | some (ctl, e₁, fresh) => Applies e (e.handle input) ctl fresh e₁ := by
  cases input with
  | frame soft now => exact e.onFrame_applies soft now
  | send data => exact ⟨_, fun _ told => told, e.handle_moves _ undrained⟩
  | _ => exact ⟨_, fun _ told => told, e.handle_moves _ undrained⟩

end

end Engine

end AetherHF.Link
