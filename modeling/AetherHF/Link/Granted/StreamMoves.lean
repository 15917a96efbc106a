import AetherHF.Link.Granted.Streams

/-! What the engine's parts do to the streams of bytes: runs of the steps of `Streams`. -/
namespace AetherHF.Link

variable {b : Brought}

/-! ### What is filed of the other station's data -/

/-- The receiver's stream stands; what is heard of the transmission is filed. -/
structure Receiver.Filed (rx rx' : Receiver) : Prop where
  base : rx'.base = rx.base := by rfl
  buf : rx'.buf = rx.buf := by rfl
  pieces : rx'.pieces = rx.pieces := by rfl
  measured : Reports rx.measured → Reports rx'.measured := by exact id
  windowed : rx.Windowed → rx'.Windowed := by exact fun windowed => windowed.of_eq rfl

theorem Receiver.Filed.refl (rx : Receiver) : rx.Filed rx := ⟨rfl, rfl, rfl, id, id⟩

theorem Quiet.filed {e : Engine} {rx : Receiver} (filed : e.rx.Filed rx) : Quiet e { e with rx } :=
  ⟨⟨⟨rfl, rfl, rfl, rfl, rfl, reworked_refl _, filed.base, filed.buf, filed.pieces, filed.measured,
    filed.windowed⟩, Iff.rfl, rfl⟩, rfl⟩

namespace Receiver

theorem reports_report : Reports (some report) := by
  rintro word ⟨⟩
  decide

theorem reports_mark {measured : Option UInt16} (reports : Reports measured) (mark : UInt16) :
    Reports (measured.map (· ||| mark)) := by
  intro word marked
  obtain ⟨before, is, rfl⟩ := Option.map_eq_some_iff.mp marked
  intro zero
  apply reports before is
  have bits := congrArg UInt16.toNat zero
  simp only [UInt16.toNat_and, UInt16.toNat_or, Nat.and_or_distrib_right] at bits
  apply UInt16.toNat_inj.mp
  rw [UInt16.toNat_and]
  exact (Nat.or_eq_zero_iff.mp bits).1


theorem piecesHeard_filed (rx : Receiver) : rx.Filed rx.piecesHeard := by
  have windowed := fun windowed : rx.Windowed => windowed.piecesHeard
  unfold piecesHeard at windowed ⊢
  split_ifs at windowed ⊢ with known
  · exact .refl rx
  · exact { windowed }

theorem measurementHeard_filed (rx : Receiver) (new : Bool) : rx.Filed (rx.measurementHeard new) := by
  have windowed := fun windowed : rx.Windowed => windowed.measurementHeard new
  unfold measurementHeard at windowed ⊢
  split_ifs at windowed ⊢ with known owed
  · exact .refl rx
  · exact { measured := fun _ => reports_report, windowed }
  · exact { windowed }

theorem noteOpening_filed (rx : Receiver) (ctl : GrantFrame) : rx.Filed (rx.noteOpening ctl) := by
  unfold noteOpening
  split
  · exact rx.measurementHeard_filed _
  · split
    · exact { measured := fun _ _ none_ => absurd none_.symm (Option.some_ne_none _) }
    · exact .refl rx

end Receiver

namespace Engine

variable (e : Engine)

/-- Leaving a session, as far as the streams go. -/
structure Leaves (e' : Engine) : Prop where
  idle : e'.state = .idle := by rfl
  remote : e'.remoteCall = e.remoteCall := by rfl
  queue : e'.tx.queue = [] := by rfl
  blank : e'.Blank := by exact {}
  windowed : e'.rx.Windowed := by exact Receiver.windowed_empty
  actions : e'.actions = e.actions := by rfl

/-! ### Acknowledgements -/

theorem takeReport_quiet (ctl : GrantFrame) : Quiet e (e.takeReport ctl) := by
  unfold takeReport
  split
  · exact .unseen rfl
  · split
    · exact .unseen rfl
    · exact .unseen rfl

section

variable [Libm]

theorem judgeAnswer_quiet (ctl : GrantFrame) (newly : List UInt8) : Quiet e (e.judgeAnswer ctl newly) := by
  unfold judgeAnswer
  split
  · exact .unseen rfl
  · exact .unseen rfl

theorem takeAck_once (ctl : GrantFrame) (fresh : Bool) (told : b.control ctl)
    (session : e.state.inSession = true) (kind : ctl.kind = .header ∨ ctl.kind = .answer) :
    Once b e (e.takeAck ctl fresh) := by
  unfold takeAck
  extract_lets e₁ newly e₂ e₃
  have first : Quiet e e₁ := by
    unfold e₁
    split
    · exact e.takeReport_quiet ctl
    · exact .unseen rfl
  have acked : Once b e e₂ :=
    .before first.moves (.step (.ack ctl told (first.inSession_of session) kind))
  split
  · have judged := e₂.judgeAnswer_quiet ctl newly
    split
    · exact acked.after (judged.trans (.unseen (by rfl))).moves
    · exact acked.after judged.moves
  · exact acked

end

theorem askAgain_quiet (measured : Bool) : Quiet e (e.askAgain measured) := by
  unfold askAgain
  split
  · exact .unseen rfl
  · exact .unseen rfl

theorem measurementUnheard_quiet : Quiet e e.measurementUnheard := by
  unfold measurementUnheard
  split
  · exact .unseen rfl
  · split
    · exact Quiet.trans (.unseen (by rfl)) (askAgain_quiet _ true)
    · exact .unseen rfl

/-! ### The other station's data -/

theorem openRx_quiet (opener : Heard) (count : Nat) (floor : Bool) : Quiet e (e.openRx opener count floor) :=
  .unseen rfl

theorem setRecord_quiet (index : Nat) (f : RxRecord → RxRecord) : Quiet e (e.setRecord index f) := .unseen rfl

theorem acceptMeasure_quiet (seq : UInt8) : Quiet e (e.acceptMeasure seq) := by
  have heard := e.rx.measurementHeard_filed true
  unfold acceptMeasure
  apply Quiet.filed
  split
  · exact { heard with
      measured := fun reports => Receiver.reports_mark (heard.measured reports) _
      windowed := fun windowed => (heard.windowed windowed).of_eq rfl }
  · exact heard

theorem accept_once (payload : Bytes) (late : Bool) (heard : b.data payload)
    (session : e.state.inSession = true) : Once b e (e.accept payload late).2 := by
  unfold accept
  split
  · exact .refl e
  · rename_i header body read
    split
    · exact .refl e
    · rename_i ours
      split
      · split
        · exact .refl e
        · exact (e.acceptMeasure_quiet _).moves.once
      · split
        · exact .refl e
        · rename_i kind
          exact .step (.accept payload header body late heard read (not_not.mp ours) (not_not.mp kind) session)

theorem keep_once (index : Nat) (payload : Bytes) (heard : b.data payload)
    (session : e.state.inSession = true) : Once b e (e.keep index payload).2 := by
  have filed := e.setRecord_quiet index fun r => { r with payload := some payload }
  have accepted := Once.before filed.moves ((e.setRecord index fun r =>
    { r with payload := some payload }).accept_once (b := b) payload false heard (filed.inSession_of session))
  unfold keep
  generalize (e.setRecord index fun r => { r with payload := some payload }).accept payload false = out
    at accepted ⊢
  obtain ⟨what, e'⟩ := out
  cases what with
  | data seq => exact accepted.after (e'.setRecord_quiet _ _).moves
  | measurement => exact accepted.after (e'.setRecord_quiet _ _).moves
  | not_ => exact accepted.after (Quiet.moves (.unseen (by rfl)))

theorem countFailed_quiet : Quiet e e.countFailed := .unseen rfl

theorem hold_quiet {guess : UInt8} (inside : inWindow guess e.rx.base window = true)
    (entry : HarqBuffer × Nat × Nat) : Quiet e (e.hold guess entry) :=
  .filed ⟨rfl, rfl, rfl, id, fun windowed => windowed.hold inside entry⟩

/-- The payloads a soft frame may be heard as. -/
def heardAs (soft : SoftFrame) (payload : Bytes) : Prop := ∃ buffer, (soft.decode buffer).1 = some payload

section

variable {soft : SoftFrame} (heard : ∀ payload, heardAs soft payload → b.data payload)

include heard

theorem combineWith_once (index : Nat) {guess : UInt8} (buffer prev : HarqBuffer) (combines : Nat)
    (session : e.state.inSession = true) (inside : inWindow guess e.rx.base window = true) :
    Once b e (e.combineWith soft index guess buffer prev combines).2 := by
  unfold combineWith
  split
  · rename_i combined merged decoded
    have payload : heardAs soft combined := ⟨some prev, by rw [decoded]⟩
    have counted : Quiet e e.countRescued := .unseen rfl
    exact .before counted.moves (keep_once _ _ _ (heard _ payload) (counted.inSession_of session))
  · exact ((e.hold_quiet inside _).trans (countFailed_quiet _)).moves.once

theorem combine_once (index : Nat) {guess : UInt8} (buffer : HarqBuffer)
    (session : e.state.inSession = true) (inside : inWindow guess e.rx.base window = true) :
    Once b e (e.combine soft index guess buffer).2 := by
  unfold combine
  split
  · exact ((e.hold_quiet inside _).trans (countFailed_quiet _)).moves.once
  · have marked := e.setRecord_quiet index fun r => { r with combined := true }
    exact .before marked.moves (combineWith_once _ heard _ _ _ _ (marked.inSession_of session) inside)

theorem takeGuessed_once (index : Nat) (guess : Option UInt8) (buffer : HarqBuffer)
    (session : e.state.inSession = true) : Once b e (e.takeGuessed soft index guess buffer).2 := by
  unfold takeGuessed
  extract_lets e'
  have marked : Quiet e e' := e.setRecord_quiet index _
  split
  · exact (marked.trans e'.countFailed_quiet).moves.once
  · rename_i guess found
    have inside : inWindow guess e'.rx.base window = true := (Option.filter_eq_some_iff.mp found).2
    exact .before marked.moves (e'.combine_once heard _ _ (marked.inSession_of session) inside)

theorem takeData_once (session : e.state.inSession = true) : Once b e (e.takeData soft).2 := by
  unfold takeData
  extract_lets frame
  split
  · exact e.countFailed_quiet.moves.once
  · have filed : Quiet e (e.file frame) := .unseen rfl
    have up := filed.inSession_of session
    refine .before filed.moves ?_
    cases decoded : soft.decode none with
    | mk payload buffer =>
      cases payload with
      | some payload => exact keep_once _ _ _ (heard _ ⟨none, by rw [decoded]⟩) up
      | none =>
        rw [takeFiled]
        split
        · exact (countFailed_quiet _).moves.once
        · exact takeGuessed_once _ heard _ _ _ up

end

theorem noteData_quiet (index : Option Nat) : Quiet e (e.noteData index) := by
  unfold noteData
  split
  · exact .unseen rfl
  · exact .unseen rfl

theorem closeRx_quiet : Quiet e e.closeRx.2 := by
  unfold closeRx observe restartRx
  exact .unseen rfl

theorem ackFields_quiet : Quiet e e.ackFields.2 := .unseen rfl

/-! ### Keying -/

theorem event_moves (event : Event) (other : event.turns = false) :
    Moves b e (e.event event) := .tell ⟨.unseen rfl, Iff.rfl, rfl⟩ event other rfl

theorem disarm_quiet (timer : Timer) : Quiet e (e.disarm timer) := .unseen rfl

theorem arm_quiet (timer : Timer) (at_ : ℚ) : Quiet e (e.arm timer at_) := .unseen rfl

theorem heard_quiet [Libm] (frame : Heard) : Quiet e (e.heard frame) := .unseen rfl

theorem peerReading_quiet [Libm] (snrDb : ℚ) : Quiet e (e.peerReading snrDb) := .unseen rfl

theorem takeReading_quiet [Libm] (snrDb : Option ℚ) : Quiet e (e.takeReading snrDb) := by
  unfold takeReading
  split
  · exact e.peerReading_quiet _
  · exact .refl e

theorem transmit_moves {frames : List TxFrame} (of : ∀ f ∈ frames, FrameOf e f) (keying : Keying)
    (granting : Option Nat) : Moves b e (e.transmit frames keying granting) :=
  .single (.transmit ⟨.unseen rfl, Iff.rfl, rfl⟩ _ of rfl)

theorem armWait_quiet : Quiet e e.armWait := by
  unfold armWait
  split
  · exact .unseen rfl
  · extract_lets due e'
    split
    · exact .unseen rfl
    · split
      · split
        · exact .unseen rfl
        · exact .unseen rfl
      · split
        · exact .unseen rfl
        · exact .unseen rfl

theorem openSlot_quiet (stop : ℚ) : Quiet e (e.openSlot stop) := by
  unfold openSlot
  split
  · exact .unseen rfl
  · exact Quiet.trans (.unseen (by rfl)) (armWait_quiet _)

theorem stateEnd_quiet (stop : ℚ) (floor : Bool) : Quiet e (e.stateEnd stop floor) := by
  unfold stateEnd
  split
  · exact .unseen rfl
  · exact Quiet.trans (.unseen (by rfl)) (armWait_quiet _)

theorem keyGranting_moves (slot : Slot) {frames : List TxFrame} (of : ∀ f ∈ frames, FrameOf e f) :
    Moves b e (e.keyGranting slot frames) := by
  unfold keyGranting
  extract_lets number e'
  have numbered : Quiet e e' := .unseen rfl
  have same : ∀ f ∈ frames, FrameOf e' f := fun f member => (of f member).of_eq rfl rfl rfl rfl
  exact numbered.moves.trans ((e'.transmit_moves same _ _).trans (openSlot_quiet _ _).moves)

theorem dropIdentifier_quiet : Quiet e e.dropIdentifier := .unseen rfl

theorem holdFor_quiet (until_ : ℚ) : Quiet e (e.holdFor until_) := .unseen rfl

theorem identifyAfterLeaving_quiet : Quiet e e.identifyAfterLeaving := by
  unfold identifyAfterLeaving
  split
  · exact .unseen rfl
  · exact .unseen rfl

theorem sendIdentifier_moves : Moves b e e.sendIdentifier := by
  unfold sendIdentifier
  split
  · exact .refl
  · split
    · exact .refl
    · split
      · exact (e.arm_quiet _ _).moves
      · have owed : Quiet e (e.oweIdentifier 0) := .unseen rfl
        exact owed.moves.trans ((transmit_moves _ (List.forall_mem_nil _) _ _).trans
          (holdFor_quiet _ _).moves)

theorem oweAgain_quiet (ident : ℚ) : Quiet e (e.oweAgain ident) := by
  unfold oweAgain
  split
  · exact .unseen rfl
  · exact .unseen rfl

theorem armIdentifier_quiet (reason : Reason) (wasMaster remembered : Bool) :
    Quiet e (e.armIdentifier reason wasMaster remembered) := by
  unfold armIdentifier
  split
  · split
    · exact .unseen rfl
    · exact .unseen rfl
  · split
    · exact .unseen rfl
    · exact .unseen rfl

@[simp] theorem resetSession_rx : e.resetSession.rx = {} := rfl

@[simp] theorem resetSession_records : e.resetSession.tx.records = [] := rfl

@[simp] theorem resetSession_base : e.resetSession.tx.base = 0 := rfl

@[simp] theorem resetSession_next : e.resetSession.tx.next = 0 := rfl

@[simp] theorem resetSession_queue : e.resetSession.tx.queue = e.tx.queue := rfl

@[simp] theorem resetSession_actions : e.resetSession.actions = e.actions := by
  unfold resetSession
  rfl

@[simp] theorem resetSession_remoteCall : e.resetSession.remoteCall = e.remoteCall := by
  unfold resetSession
  rfl

@[simp] theorem resetSession_state : e.resetSession.state = e.state := rfl

theorem Leaves.after {e e' e'' : Engine} (leaves : e.Leaves e') (quiet : Quiet e' e'') : e.Leaves e'' where
  idle := quiet.idle.mpr leaves.idle
  remote := quiet.remote.trans leaves.remote
  queue := quiet.queue.trans leaves.queue
  blank := quiet.blank leaves.blank
  windowed := quiet.windowed leaves.windowed
  actions := quiet.actions.trans leaves.actions

theorem Leaves.micro {e e' : Engine} (leaves : e.Leaves e') (reason : Reason) :
    Micro b e (e'.event (.disconnected reason)) :=
  .leave reason leaves.idle leaves.remote leaves.queue
    ⟨leaves.blank.records, leaves.blank.txBase, leaves.blank.txNext, leaves.blank.rxBase,
      leaves.blank.buf, leaves.blank.pieces, leaves.blank.measured⟩ leaves.windowed (congrArg (· ++ [_]) leaves.actions)

theorem leaveSession_actions : e.leaveSession.actions = e.actions := by
  unfold leaveSession
  dsimp only
  rw [resetSession_actions]
  rfl

theorem leaveSession_remoteCall : e.leaveSession.remoteCall = e.remoteCall := by
  unfold leaveSession
  dsimp only
  rw [resetSession_remoteCall]
  rfl

theorem leaveSession_leaves : e.Leaves e.leaveSession :=
  ⟨rfl, e.leaveSession_remoteCall, rfl, blank_fresh rfl, Receiver.windowed_empty, e.leaveSession_actions⟩

theorem leaveSession_micro (reason : Reason) (left : Option Left) (length : ℚ) :
    Micro b e (((e.leaveSession.remember left).oweIdentifier length).event (.disconnected reason)) := by
  have rest : Quiet e.leaveSession ((e.leaveSession.remember left).oweIdentifier length) := .unseen rfl
  exact (e.leaveSession_leaves.after rest).micro reason

theorem identifyAlone_quiet (wasMaster unread : Bool) (reason : Reason) :
    Quiet e (e.identifyAlone wasMaster unread reason) := .unseen rfl

theorem endSessionWith_moves (reason : Reason) (discHeard unread : Bool) :
    Moves b e (e.endSessionWith reason discHeard unread) := by
  unfold endSessionWith
  dsimp only
  split
  · exact .trans (.single (e.leaveSession_micro reason _ _))
      ((identifyAlone_quiet _ _ _ _).trans (armIdentifier_quiet _ _ _ _)).moves
  · exact .single (e.leaveSession_micro reason _ _)

theorem endSessionWith_idle (reason : Reason) (discHeard unread : Bool) :
    (e.endSessionWith reason discHeard unread).state = .idle := by
  unfold endSessionWith
  dsimp only
  split
  · exact (armIdentifier_quiet _ _ _ _).idle.mpr rfl
  · rfl

theorem endSession_moves (reason : Reason) (discHeard : Bool) : Moves b e (e.endSession reason discHeard) :=
  e.endSessionWith_moves reason discHeard false

/-! ### Answering -/

theorem forfeit_quiet (anchor : ℚ) : Quiet e (e.forfeit anchor) :=
  Quiet.trans (.unseen (by rfl)) (closeRx_quiet _)

theorem countForfeit_quiet (answer : Answer) : Quiet e (e.countForfeit answer) := by
  unfold countForfeit
  extract_lets e'
  split
  · exact Quiet.trans (.unseen (by rfl)) (forfeit_quiet _ _)
  · exact .unseen rfl

theorem closeHeard_quiet : Quiet e e.closeHeard := by
  have closed := e.closeRx_quiet
  unfold closeHeard
  generalize e.closeRx = pair at closed ⊢
  obtain ⟨snr, e'⟩ := pair
  dsimp only
  split
  · exact closed.trans (.unseen (by rfl))
  · exact closed

theorem answerWith_moves {data : List TxFrame}
    (of : ∀ f ∈ data, f.container = .data ∧ DataOf e.tx e.session f) (floor : Bool) (keying : Keying)
    (windowEnd : Option ℚ) (up : e.state.inSession = true) :
    Moves b e (e.answerWith floor data keying windowEnd) := by
  refine e.ackFields_quiet.moves.trans (transmit_moves _ ?_ _ _)
  intro f member
  rcases List.mem_cons.mp member with rfl | later
  · exact .acknowledging rfl rfl rfl rfl
  · exact .data (of f later).1 up (of f later).2

theorem sendAnswer_moves [Libm] (floor : Bool) (roomS : ℚ) (keying : Keying) (windowEnd : Option ℚ)
    (session : e.state.inSession = true) : Moves b e (e.sendAnswer floor roomS keying windowEnd) := by
  have closed := e.closeHeard_quiet
  have sends := e.closeHeard.dataFrames_sends (b := b) (some (e.closeHeard.answerRoom floor roomS))
    (closed.inSession_of session)
  exact closed.moves.trans (sends.moves.trans
    (answerWith_moves _ sends.frames floor keying windowEnd (sends.up.trans (closed.inSession_of session))))

theorem bodyFrame_frameOf {kind : DataKind} {session : UInt8} {floor : Bool} {body : Except FrameError Bytes}
    {frame : TxFrame} (built : e.bodyFrame kind session floor body = some frame)
    (kinds : kind ≠ .data ∧ kind ≠ .measure) (e' : Engine) : ∀ f ∈ [frame], FrameOf e' f := by
  intro f member
  cases List.mem_singleton.mp member
  unfold bodyFrame at built
  extract_lets mode at built
  split at built
  · cases built
  · split at built
    · cases built
    · rename_i payload encoded
      cases built
      exact .opening rfl kinds encoded

theorem sendAcceptance_moves (answer : Answer) : Moves b e (e.sendAcceptance answer) := by
  unfold sendAcceptance
  split
  · exact .refl
  · split
    · exact .refl
    · rename_i built
      exact e.transmit_moves (e.bodyFrame_frameOf built ⟨by decide, by decide⟩ e) _ _

theorem sendProbeAnswer_moves (answer : Answer) : Moves b e (e.sendProbeAnswer answer) := by
  unfold sendProbeAnswer
  split
  · exact .refl
  · extract_lets body
    split
    · exact .refl
    · rename_i built
      exact e.transmit_moves (e.bodyFrame_frameOf built ⟨by decide, by decide⟩ e) _ _

theorem sendDiscAnswer_moves (answer : Answer) : Moves b e (e.sendDiscAnswer answer) := by
  have closing (e' : Engine) : ∀ f ∈ [control (discFrame answer) answer.floor], FrameOf e' f := by
    intro f member
    cases List.mem_singleton.mp member
    refine .closing rfl rfl ?_
    unfold discFrame
    dsimp only
    split
    · exact .inr rfl
    · exact .inl rfl
  unfold sendDiscAnswer
  dsimp only
  split
  · split
    · exact e.dropIdentifier_quiet.moves.trans
        ((transmit_moves _ (closing _) _ _).trans (holdFor_quiet _ _).moves)
    · exact e.transmit_moves (closing _) _ _
  · have counted : Quiet e e.countLeftAnswered := .unseen rfl
    exact counted.moves.trans (transmit_moves _ (closing _) _ _)

section

variable [Libm]

theorem tryWindow_moves : Moves b e e.tryWindow := by
  unfold tryWindow
  split
  · exact .refl
  · split
    · exact .refl
    · rename_i connected
      extract_lets onAir room
      split
      · exact Quiet.moves (.unseen (by rfl))
      · split
        · exact .refl
        · split
          · exact .refl
          · have spoken : Quiet e { e with slave := { e.slave with
                window := none, answeredEnd := e.slave.mEnd } } := .unseen rfl
            refine spoken.moves.trans (sendAnswer_moves _ _ _ _ _ ?_)
            change e.state.inSession = true
            rw [not_not.mp connected]
            rfl

theorem keyAnswer_moves : Moves b e e.keyAnswer := by
  unfold keyAnswer
  split
  · exact .refl
  · rename_i answer _
    extract_lets e'
    have taken : Moves b e e' := Quiet.moves (.unseen (by rfl))
    split
    · exact taken.trans e'.tryWindow_moves
    · split
      · exact taken.trans (e'.countForfeit_quiet answer).moves
      · split
        · exact taken.trans (e'.sendAcceptance_moves answer)
        · exact taken.trans (e'.sendProbeAnswer_moves answer)
        · exact taken.trans (e'.sendDiscAnswer_moves answer)
        · exact taken.trans (e'.sendDiscAnswer_moves answer)
        all_goals
          split
          · rename_i up
            have answered : Quiet e' { e' with slave := { e'.slave with
                answeredEnd := some answer.anchor } } := .unseen rfl
            refine taken.trans (answered.moves.trans (sendAnswer_moves _ _ _ _ _ ?_))
            change e'.state.inSession = true
            rw [up.1]
            rfl
          · exact taken

theorem decideIfFinal_moves : Moves b e e.decideIfFinal := by
  unfold decideIfFinal
  split
  · exact .refl
  · split
    · exact .refl
    · exact (e.disarm_quiet .answer).moves.trans (keyAnswer_moves _)

theorem schedule_moves (answer : Answer) : Moves b e (e.schedule answer) := by
  unfold schedule
  split
  · exact (e.countForfeit_quiet answer).moves
  · have owed : Quiet e ({ e with answer := some answer }.arm .answer
      (max e.now (answer.start - e.ownLatency))) := .unseen rfl
    exact owed.moves.trans (decideIfFinal_moves _)

theorem answerDisc_moves (ctl : GrantFrame) (frame : Heard) (kind : GrantKind) :
    Moves b e (e.answerDisc ctl frame kind) := e.schedule_moves _

end

/-! ### The call and the probe -/

theorem withTry_quiet (drawn : ℚ × Draws) : Quiet e (e.withTry drawn) := .unseen rfl

theorem countTry_quiet : Quiet e e.countTry := e.withTry_quiet _

theorem sendConnect_moves : Moves b e e.sendConnect := by
  unfold sendConnect
  extract_lets level
  split
  · exact .refl
  · rename_i built
    exact e.countTry_quiet.moves.trans
      (keyGranting_moves _ _ (e.bodyFrame_frameOf built ⟨by decide, by decide⟩ _))

theorem retryConnect_moves : Moves b e e.retryConnect := by
  unfold retryConnect
  split
  · exact .refl
  · split
    · exact e.endSession_moves .noAnswer false
    · exact e.sendConnect_moves

theorem sendProbe_moves : Moves b e e.sendProbe := by
  have noted : Quiet e e.noteProbeSent := .unseen rfl
  unfold sendProbe
  split
  · exact noted.moves
  · split
    · exact noted.moves
    · rename_i built
      exact noted.moves.trans
        (keyGranting_moves _ _ (e.bodyFrame_frameOf built ⟨by decide, by decide⟩ _))

theorem settleIdentifier_quiet (remote : Text) : Quiet e (e.settleIdentifier remote) := by
  unfold settleIdentifier
  split
  · exact e.dropIdentifier_quiet
  · split
    · exact e.arm_quiet _ _
    · exact .unseen rfl

theorem beginCall_actions : e.beginCall.actions = e.actions := by
  unfold beginCall
  dsimp only
  rw [resetSession_actions]
  rfl

theorem beginCall_calls (e : Engine) (drawn : UInt8 × Draws) (remote : Text) (idle : e.state = .idle) :
    Micro b e ((e.address remote).withSession drawn).beginCall :=
  .call idle rfl rfl (blank_fresh rfl) Receiver.windowed_empty (beginCall_actions _)

theorem startCall_moves (remote : Text) (idle : e.state = .idle) : Moves b e (e.startCall remote) :=
  (e.settleIdentifier_quiet remote).moves.tail
    (beginCall_calls _ _ remote ((e.settleIdentifier_quiet remote).idle.mpr idle))

theorem placeCall_moves (remote : Text) (idle : e.state = .idle) : Moves b e (e.placeCall remote) := by
  have started := e.startCall_moves (b := b) remote idle
  unfold placeCall
  extract_lets e'
  split
  · exact started.trans e'.sendConnect_moves
  · exact started.trans (e'.arm_quiet _ _).moves

theorem callingAs_quiet {asCall : Option Text} {e' : Engine} (taken : e.callingAs asCall = .ok e') :
    Quiet e e' := by
  unfold callingAs at taken
  split at taken
  · cases taken
    exact .unseen rfl
  · split at taken
    · cases taken
      exact .unseen rfl
    · cases taken

theorem orSelf_moves {out : Except Refused Engine} (each : ∀ e', out = .ok e' → Moves b e e') :
    Moves b e (e.orSelf out) := by
  cases out with
  | ok e' => exact each e' rfl
  | error _ => exact .refl

theorem connect_moves (remote : Text) (asCall : Option Text) :
    Moves b e (e.orSelf (e.connect remote asCall)) := by
  apply orSelf_moves
  intro e' taken
  unfold connect at taken
  split at taken
  · cases taken
  · rename_i idle
    split at taken
    · cases taken
    · cases as : e.callingAs asCall with
      | error _ =>
        rw [as] at taken
        cases taken
      | ok e₁ =>
        rw [as] at taken
        cases taken
        have called := e.callingAs_quiet as
        exact called.moves.trans (e₁.placeCall_moves _ (called.idle.mpr (not_not.mp idle)))

theorem placeProbe_moves (remote : Text) : Moves b e (e.placeProbe remote) := by
  have started : Quiet e (e.startProbe remote) := by
    unfold startProbe
    extract_lets e'
    have armed : Quiet e e' := by
      unfold e'
      split
      · exact e.arm_quiet _ _
      · exact .unseen rfl
    exact armed.trans (.unseen (by rfl))
  unfold placeProbe
  extract_lets e'
  split
  · exact started.moves.trans e'.sendProbe_moves
  · exact started.moves.trans (e'.arm_quiet _ _).moves

theorem probe_moves (remote : Text) (asCall : Option Text) :
    Moves b e (e.orSelf (e.probe remote asCall)) := by
  apply orSelf_moves
  intro e' taken
  unfold probe at taken
  split at taken
  · cases taken
  · split at taken
    · cases taken
    · split at taken
      · cases taken
      · cases as : e.callingAs asCall with
        | error _ =>
          rw [as] at taken
          cases taken
        | ok e₁ =>
          rw [as] at taken
          cases taken
          exact (e.callingAs_quiet as).moves.trans (e₁.placeProbe_moves _)

theorem beMaster_kept (ack : ConnectBody) : Kept e (e.beMaster ack) := .unseen rfl

theorem openCalled_actions (header : DataHeader) (req : ConnectBody) :
    (e.openCalled header req).actions = e.actions := by
  unfold openCalled
  dsimp only
  rw [resetSession_actions]
  rfl

/-- The session an accepted call begins, as far as its first word to the driver. -/
theorem openCalled_called (header : DataHeader) (req : ConnectBody) {e' : Engine}
    (outside : e.state.inSession = false) (called : e.state = .connecting → b.caller e.remoteCall req.src)
    (quiet : Quiet (e.openCalled header req) e') :
    Micro b e (e'.event (.connected e'.remoteCall .slave)) := by
  have told : e'.Blank := quiet.blank (blank_fresh rfl)
  have windowed : e'.rx.Windowed := quiet.windowed Receiver.windowed_empty
  have remote : e'.remoteCall = req.src := quiet.remote
  have actions : e'.actions = e.actions := quiet.actions.trans (e.openCalled_actions header req)
  refine .called outside (fun calling => ?_) quiet.inSession quiet.queue ⟨told.records, told.txBase,
    told.txNext, told.rxBase, told.buf, told.pieces, told.measured⟩ windowed .slave ?_
  · rw [show (e'.event _).remoteCall = e'.remoteCall from rfl, remote]
    exact called calling
  · exact congrArg (· ++ [Action.event (.connected e'.remoteCall .slave)]) actions

theorem measureLateness_quiet (frame : Heard) : Quiet e (e.measureLateness frame) := by
  unfold measureLateness
  extract_lets late need
  split
  · exact .unseen rfl
  · split
    · split
      · exact .unseen rfl
      · exact .unseen rfl
    · exact .unseen rfl

theorem keepFamily_quiet (frame : Heard) : Quiet e (e.keepFamily frame) := .unseen rfl

section

variable [Libm]

theorem scheduleAcceptance_moves (req : ConnectBody) (frame : Heard) (start : ℚ) :
    Moves b e (e.scheduleAcceptance req frame start) := e.schedule_moves _

theorem calledAgain_moves (header : DataHeader) (req : ConnectBody) (frame : Heard) (start : ℚ) :
    Moves b e (e.calledAgain header req frame start).2 := by
  unfold calledAgain
  split
  · exact .refl
  · split
    · exact e.endSession_moves _ _
    · split
      · have heard : Quiet e ((e.heard frame).measureLateness frame) :=
          (e.heard_quiet frame).trans (measureLateness_quiet _ frame)
        exact heard.moves.trans (scheduleAcceptance_moves _ _ _ _)
      · exact .refl

theorem acceptCall_moves (header : DataHeader) (req : ConnectBody) (frame : Heard) (start : ℚ)
    (outside : e.state.inSession = false) (called : e.state = .connecting → b.caller e.remoteCall req.src) :
    Moves b e (e.acceptCall header req frame start) := by
  have heard : Quiet (e.openCalled header req)
      ((((e.openCalled header req).heard frame).measureLateness frame).keepFamily frame) :=
    ((heard_quiet _ frame).trans (measureLateness_quiet _ frame)).trans (keepFamily_quiet _ frame)
  exact .head (e.openCalled_called header req outside called heard)
    ((event_moves _ _ rfl).trans (scheduleAcceptance_moves _ _ _ _))

theorem takeCallReading_quiet (snr : Option ℚ) : Quiet e (e.takeCallReading snr) := by
  unfold takeCallReading
  split
  · exact .unseen rfl
  · exact .unseen rfl

theorem openMaster_moves (ack : ConnectBody) (frame : Heard) (calling : e.state = .connecting) :
    Moves b e (e.openMaster ack frame) := by
  have heard : Quiet (e.beMaster ack) ((e.beMaster ack).heard frame) := heard_quiet _ frame
  have known : Quiet (e.beMaster ack) ((((e.beMaster ack).heard frame).takeCallReading ack.snrDb).expectFamily
    frame.floor) := (heard.trans (takeCallReading_quiet _ _)).trans (.unseen (by rfl))
  have up : Micro b e (((((e.beMaster ack).heard frame).takeCallReading
      ack.snrDb).expectFamily frame.floor).event (.connected _ .master)) := .up
    (((e.beMaster_kept ack).trans known.toKept).trans (.unseen (by rfl))) calling (known.inSession.trans rfl) .master
    (congrArg (· ++ [_]) known.actions)
  exact .head up (event_moves _ _ rfl)

end

theorem waitAcceptance_quiet (frame : Heard) : Quiet e (e.waitAcceptance frame) := by
  unfold waitAcceptance
  split
  · exact e.stateEnd_quiet _ _
  · exact e.armWait_quiet

theorem onProbeAnswer_moves (pb : ProbeBody) (frame : Heard) : Moves b e (e.onProbeAnswer pb frame) := by
  have noted : Moves b e (e.noteProbeAnswer pb frame) :=
    .tell ⟨.unseen rfl, Iff.rfl, rfl⟩ (.probeAnswer pb.src pb.snrDb frame.snrDb pb.caps) rfl rfl
  unfold onProbeAnswer
  split
  · exact .refl
  · split
    · exact noted.trans (stateEnd_quiet _ _ _).moves
    · exact noted

section

variable [Libm]

theorem onAcceptance_moves (header : DataHeader) (ack : ConnectBody) (frame : Heard) (size : Nat) :
    Moves b e (e.onAcceptance header ack frame size) := by
  unfold onAcceptance
  split
  · exact .refl
  · rename_i ours
    split
    · exact .refl
    · split
      · exact e.event_moves _ rfl
      · split
        · exact e.event_moves _ rfl
        · exact (e.openMaster_moves ack frame (by tauto)).trans (waitAcceptance_quiet _ frame).moves

/-- This station, calling, takes a call instead. -/
def yieldsTo (req : ConnectBody) (frame : Heard) (size : Nat) : Prop :=
  e.state = .connecting ∧
    (req.dst ∈ e.callsigns ∧ e.sameBandwidth req.caps = true ∧ speaks req size = true) ∧
    ¬(e.callSlot req frame < e.holdUntil - nano ∨ e.calling.probing.isSome = true) ∧
    ¬(req.src = e.remoteCall ∧ Text.asBytes e.myCall > Text.asBytes e.remoteCall)

instance (req : ConnectBody) (frame : Heard) (size : Nat) : Decidable (e.yieldsTo req frame size) :=
  inferInstanceAs (Decidable (_ ∧ _))

theorem answerCall_moves (header : DataHeader) (req : ConnectBody) (frame : Heard) (start : ℚ)
    (outside : e.state.inSession = false)
    (called : e.state = .connecting → ¬(start < e.holdUntil - nano ∨ e.calling.probing.isSome = true) →
      ¬(req.src = e.remoteCall ∧ Text.asBytes e.myCall > Text.asBytes e.remoteCall) → b.caller e.remoteCall req.src) :
    Moves b e (e.answerCall header req frame start) := by
  unfold answerCall
  split
  · exact .refl
  · rename_i clear
    split
    · rename_i calling
      split
      · exact .refl
      · rename_i yields
        exact (e.disarm_quiet .connect).moves.trans
          (acceptCall_moves _ header req frame _ outside fun _ => called calling clear yields)
    · rename_i idle
      exact e.acceptCall_moves header req frame _ outside fun calling => absurd calling idle

theorem calledAgain_idle (header : DataHeader) (req : ConnectBody) (frame : Heard) (start : ℚ)
    (ended : (e.calledAgain header req frame start).1 = true) :
    (e.calledAgain header req frame start).2.state = .idle := by
  unfold calledAgain at ended ⊢
  split_ifs at ended ⊢
  exact e.endSessionWith_idle _ _ _

theorem onRequest_moves (header : DataHeader) (req : ConnectBody) (frame : Heard) (size : Nat)
    (called : e.yieldsTo req frame size → b.caller e.remoteCall req.src) :
    Moves b e (e.onRequest header req frame size) := by
  unfold onRequest
  split
  · exact .refl
  · rename_i named
    split
    · exact e.event_moves _ rfl
    · rename_i band
      split
      · exact e.event_moves _ rfl
      · rename_i version
        extract_lets start
        split
        · have ended := e.calledAgain_moves (b := b) header req frame start
          have idle := e.calledAgain_idle header req frame start
          generalize e.calledAgain header req frame start = out at ended idle ⊢
          obtain ⟨again, e'⟩ := out
          cases again with
          | false => exact ended
          | true =>
            have idle : e'.state = .idle := idle rfl
            exact ended.trans (e'.answerCall_moves header req frame start (by rw [idle]; rfl)
              fun calling => by rw [idle] at calling; cases calling)
        · rename_i outside
          have known : req.dst ∈ e.callsigns ∧ e.sameBandwidth req.caps = true ∧ speaks req size = true :=
            ⟨not_not.mp named, by simpa using band, by simpa using version⟩
          exact e.answerCall_moves header req frame start (by simpa using outside)
            fun calling clear yields => called ⟨calling, known, clear, yields⟩

theorem onConnect_moves (header : DataHeader) (body : Bytes) (frame : Heard)
    (called : ∀ req, header.kind = .connectReq → ConnectBody.decode body = .ok req →
      e.yieldsTo req frame body.length → b.caller e.remoteCall req.src) :
    Moves b e (e.onConnect header body frame) := by
  unfold onConnect
  split
  · exact .refl
  · rename_i cb read
    split
    · rename_i kind
      exact e.onRequest_moves header cb frame _ (called cb kind read)
    · exact e.onAcceptance_moves header cb frame _

theorem onProbed_moves (pb : ProbeBody) (frame : Heard) : Moves b e (e.onProbed pb frame) := by
  unfold onProbed
  extract_lets start
  split
  · exact .refl
  · split
    · exact .refl
    · split
      · exact .refl
      · have noted : Moves b e (e.noteProbed pb frame) :=
          .tell ⟨.unseen rfl, Iff.rfl, rfl⟩ (.probed pb.src frame.snrDb pb.caps) rfl rfl
        exact noted.trans (schedule_moves _ _)

theorem onProbe_moves (kind : DataKind) (body : Bytes) (frame : Heard) :
    Moves b e (e.onProbe kind body frame) := by
  unfold onProbe
  split
  · exact .refl
  · split
    · exact e.onProbed_moves _ _
    · exact e.onProbeAnswer_moves _ _

end

end Engine

end AetherHF.Link
