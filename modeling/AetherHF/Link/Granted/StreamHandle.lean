import AetherHF.Link.Granted.StreamMoves

/-! Every call of the engine's is a run of the steps of `Streams`. -/
namespace AetherHF.Link

variable {b : Brought}

namespace Engine

variable (e : Engine)

/-! ### The master -/

theorem noteLateness_quiet (frame : Heard) : Quiet e (e.noteLateness frame) := by
  unfold noteLateness
  split
  · exact .unseen rfl
  · split
    · exact .unseen rfl
    · exact .unseen rfl

theorem closeAcknowledged_moves (frame : Heard) : Moves b e (e.closeAcknowledged frame) := by
  unfold closeAcknowledged
  split
  · exact (e.stateEnd_quiet _ _).moves.trans (endSession_moves _ _ _)
  · exact .refl

theorem slaveLeft_quiet (frame : Heard) (up : e.state.inSession = true) : Quiet e (e.slaveLeft frame) := by
  refine (?_ : Quiet e { e with
    leaving := { e.leaving with peerLeft := true }, state := .disconnecting }).trans (stateEnd_quiet _ _ _)
  refine { idle := ⟨nofun, fun idle => ?_⟩, inSession := up.symm }
  rw [idle] at up
  cases up

theorem takeWishes_quiet (ctl : GrantFrame) (frame : Heard) : Quiet e (e.takeWishes ctl frame) := .unseen rfl

theorem noteOpening_quiet (ctl : GrantFrame) : Quiet e (e.noteOpening ctl) :=
  .filed (e.rx.noteOpening_filed ctl)

section

variable [Libm]

theorem takeAnswer_once (ctl : GrantFrame) (frame : Heard) (told : b.control ctl)
    (up : e.state.inSession = true) (kind : ctl.kind = .answer) : Once b e (e.takeAnswer ctl frame) := by
  have late := e.noteLateness_quiet frame
  unfold takeAnswer
  extract_lets e₁ e₂ e₃ stop
  have acked : Once b e e₁ :=
    .after (.before late.moves (takeAck_once _ ctl true told (late.inSession_of up) (.inr kind)))
      (takeWishes_quiet _ ctl frame).moves
  have opened : Quiet e₁ e₂ := (e₁.openRx_quiet frame ctl.count.toNat ctl.dataFloor).trans
    (noteOpening_quiet _ ctl)
  have owed : Quiet e₂ e₃ := by
    unfold e₃
    split
    · exact .unseen rfl
    · exact .refl _
  exact acked.after ((opened.trans owed).trans (e₃.stateEnd_quiet _ _)).moves

theorem masterControl_once (ctl : GrantFrame) (frame : Heard) (told : b.control ctl)
    (up : e.state.inSession = true) : Once b e (e.masterControl ctl frame) := by
  unfold masterControl
  split
  · exact .refl e
  · extract_lets e₁
    have read : Quiet e e₁ := (e.heard_quiet frame).trans (takeReading_quiet _ _)
    have up := read.inSession_of up
    refine .before read.moves ?_
    cases kind : ctl.kind with
    | discAck => exact (e₁.closeAcknowledged_moves frame).once
    | disc => exact (e₁.slaveLeft_quiet frame up).moves.once
    | header => exact .refl e₁
    | answer => exact e₁.takeAnswer_once ctl frame told up kind

end

theorem acceptLate_once (soft : SoftFrame) (decoded : Bool)
    (heard : ∀ payload, heardAs soft payload → b.data payload) (up : e.state.inSession = true) :
    Once b e (e.acceptLate soft decoded) := by
  unfold acceptLate
  split
  · split
    · rename_i payload read
      exact e.accept_once payload true (heard payload ⟨none, read⟩) up
    · exact .refl e
  · exact .refl e

theorem masterData_once [Libm] (soft : SoftFrame) (frame : Heard) (decoded : Bool)
    (heard : ∀ payload, heardAs soft payload → b.data payload) (up : e.state.inSession = true) :
    Once b e (e.masterData soft frame decoded) := by
  unfold masterData
  split
  · exact e.acceptLate_once soft decoded heard up
  · have taken := e.takeData_once heard up
    generalize e.takeData soft = out at taken ⊢
    obtain ⟨index, e₁⟩ := out
    refine taken.after ((e₁.noteData_quiet index).moves.trans ?_)
    dsimp only
    generalize e₁.noteData index = e₂
    split
    · exact .refl
    · have owed : Quiet e₂ (e₂.heard frame).oweAck := (e₂.heard_quiet frame).trans (.unseen (by rfl))
      refine owed.moves.trans ?_
      split
      · exact (stateEnd_quiet _ _ _).moves
      · exact Quiet.moves (.unseen (by rfl))

/-! ### Closing the slot -/

theorem slotHeard_quiet (slot : Slot) : Quiet e (e.slotHeard slot) := .unseen rfl

theorem forgetSent_quiet : Quiet e e.forgetSent := by
  refine { records := reworked_map (fun r => ?_) _ }
  split
  · exact ⟨rfl, rfl, rfl, .inl rfl⟩
  · exact .refl r

/-- Closing a slot is quiet, or ends the session. -/
inductive Closes : Engine → Prop
  | quiet {e' : Engine} (quiet : Quiet e e') : Closes e'
  | ends {e' : Engine} (quiet : Quiet e e') : Closes (e'.endSession .noResponse false)

theorem Closes.moves {e e' : Engine} (closes : e.Closes e') : Moves b e e' := by
  cases closes with
  | quiet quiet => exact quiet.moves
  | ends quiet => exact quiet.moves.trans (endSession_moves _ _ _)

theorem Closes.after {e e' e'' : Engine} (quiet : Quiet e e') (closes : e'.Closes e'') : e.Closes e'' := by
  cases closes with
  | quiet later => exact .quiet (quiet.trans later)
  | ends later => exact .ends (quiet.trans later)

theorem Closes.up {e e' : Engine} (closes : e.Closes e') (up : e.state.inSession = true)
    (busy : e'.state ≠ .idle) : e'.state.inSession = true := by
  cases closes with
  | quiet quiet => exact quiet.inSession_of up
  | ends _ => exact absurd (endSessionWith_idle _ _ _ _) busy

theorem slotSilent_closes (slot : Slot) : e.Closes (e.slotSilent slot) := by
  unfold slotSilent
  extract_lets e₁ e₂ e₃ e₄
  have first : Quiet e e₁ := (.unseen rfl : Quiet e e.countSilent).trans (measurementUnheard_quiet _)
  have second : Quiet e₁ e₂ := by
    unfold e₂
    split
    · exact e₁.forgetSent_quiet
    · exact .refl _
  have third : Quiet e₂ e₃ := by
    unfold e₃ raiseLevel
    split
    · exact .unseen rfl
    · exact .refl _
  have fourth : Quiet e₃ e₄ := by
    unfold e₄
    split
    · exact .unseen rfl
    · exact .refl _
  have quiet := ((first.trans second).trans third).trans fourth
  split
  · exact .ends quiet
  · exact .quiet quiet

theorem closeSlot_closes : e.Closes e.closeSlot := by
  unfold closeSlot
  split
  · exact .quiet (.refl e)
  · rename_i slot _
    extract_lets e₁ e₂
    have first : Quiet e e₁ := (.unseen rfl : Quiet e { e with slot := none }).trans (closeRx_quiet _)
    have second : Quiet e e₂ := by
      refine first.trans ?_
      unfold e₂
      split
      · exact .refl _
      · exact .unseen rfl
    split
    · exact .quiet (second.trans (e₂.slotHeard_quiet slot))
    · split
      · exact .quiet (second.trans (.unseen (by rfl)))
      · exact .after second (e₂.slotSilent_closes slot)

/-! ### What the master keys -/

theorem grantFamily_quiet (plan : HeaderPlan) (elide : Bool) : Quiet e (e.grantFamily plan elide) := by
  unfold grantFamily
  split
  · exact .refl e
  · exact .unseen rfl

/-- The frames of a transmission headed, and what they say. -/
theorem headed_moves (plan : HeaderPlan) (data : List TxFrame) (elide : Bool) (level : Nat)
    (up : e.state.inSession = true) (of : ∀ f ∈ data, f.container = .data ∧ DataOf e.tx e.session f) :
    Quiet e (e.headed plan data elide level).2 ∧
      ∀ f ∈ (e.headed plan data elide level).1, FrameOf (e.headed plan data elide level).2 f := by
  unfold headed
  split
  · exact ⟨.unseen (by rfl), fun f member => .data (of f member).1 up (of f member).2⟩
  · refine ⟨e.ackFields_quiet.trans (.unseen (by rfl)), ?_⟩
    intro f member
    rcases List.mem_cons.mp member with rfl | later
    · exact .acknowledging rfl rfl rfl rfl
    · exact .data (of f later).1 up (of f later).2

theorem keyHeader_moves (plan : HeaderPlan) (data : List TxFrame) (up : e.state.inSession = true)
    (of : ∀ f ∈ data, f.container = .data ∧ DataOf e.tx e.session f) :
    Moves b e (e.keyHeader plan data) := by
  unfold keyHeader
  extract_lets elide level e₁ slot
  have granted : Quiet e e₁ := e.grantFamily_quiet plan elide
  have same : e₁.tx = e.tx ∧ e₁.session = e.session := by
    unfold e₁ grantFamily
    split
    · exact ⟨rfl, rfl⟩
    · exact ⟨rfl, rfl⟩
  obtain ⟨headed, frames⟩ := e₁.headed_moves plan data elide level (granted.inSession_of up)
    fun f member => ⟨(of f member).1, by rw [same.1, same.2]; exact (of f member).2⟩
  generalize e₁.headed plan data elide level = out at headed frames ⊢
  obtain ⟨all, e₂⟩ := out
  exact (granted.trans headed).moves.trans (keyGranting_moves _ _ frames)

theorem sendHeader_moves [Libm] (up : e.state.inSession = true) : Moves b e e.sendHeader := by
  unfold sendHeader
  extract_lets plan
  have sends : Sends b e (e.headerData plan) := by
    unfold headerData
    split
    · exact .none e
    · exact e.dataFrames_sends _ up
  generalize e.headerData plan = out at sends ⊢
  obtain ⟨data, e₁⟩ := out
  exact sends.moves.trans (e₁.keyHeader_moves plan data (sends.up.trans up) sends.frames)

theorem sendDisc_moves : Moves b e e.sendDisc := by
  unfold sendDisc
  extract_lets wanted floor ctl floors slot
  have counted : Quiet e { e with
    leaving := { e.leaving with discTries := e.leaving.discTries + 1 }
    master := { e.master with possible := floors } } := .unseen rfl
  refine counted.moves.trans (keyGranting_moves _ _ ?_)
  intro f member
  cases List.mem_singleton.mp member
  exact .closing rfl rfl (.inl rfl)

theorem sayLeft_moves (why : LeaveWhy) : Moves b e (e.sayLeft why) := by
  unfold sayLeft
  extract_lets own theirs
  split
  · exact e.event_moves _ rfl
  · exact .refl

theorem sayLeft_state (why : LeaveWhy) : (e.sayLeft why).state = e.state := by
  unfold sayLeft
  extract_lets own theirs
  split
  · rfl
  · rfl

theorem canLeave_moves : Moves b e e.canLeave.2 := by
  unfold canLeave
  extract_lets ownDone patience since e₁
  split
  · exact .refl
  · have noted : Quiet e e₁ := .unseen rfl
    split
    · exact noted.moves.trans (sayLeft_moves _ _)
    · split
      · exact noted.moves.trans (sayLeft_moves _ _)
      · exact noted.moves

theorem canLeave_state : e.canLeave.2.state = e.state := by
  unfold canLeave
  extract_lets ownDone patience since e₁
  split
  · rfl
  · split
    · exact sayLeft_state _ _
    · split
      · exact sayLeft_state _ _
      · rfl

theorem sendDiscOrEnd_moves : Moves b e e.sendDiscOrEnd := by
  unfold sendDiscOrEnd
  split
  · exact endSessionWith_moves _ _ _ _
  · exact e.sendDisc_moves

theorem proceed_moves [Libm] : Moves b e e.proceed := by
  unfold proceed
  split
  · exact .refl
  · rename_i ours
    have up : e.state.inSession = true := by simpa using (not_or.mp ours).2
    extract_lets e₁
    have closes : e.Closes e₁ := e.closeSlot_closes
    refine closes.moves.trans ?_
    split
    · exact .refl
    · rename_i busy
      have up := closes.up up busy
      split
      · exact e₁.sendDiscOrEnd_moves
      · split
        · have leave := e₁.canLeave_moves (b := b)
          have state := e₁.canLeave_state
          generalize e₁.canLeave = out at leave state ⊢
          obtain ⟨may, e₂⟩ := out
          have up : e₂.state.inSession = true := by rw [show e₂.state = e₁.state from state, up]
          cases may with
          | true =>
            refine leave.trans (.trans ?_ (sendDisc_moves _))
            refine Quiet.moves { idle := ⟨nofun, fun idle => ?_⟩, inSession := up.symm }
            rw [idle] at up
            cases up
          | false => exact leave.trans (e₂.sendHeader_moves up)
        · exact e₁.sendHeader_moves up

/-! ### The slave -/

theorem dropAnswer_quiet : Quiet e e.dropAnswer := .unseen rfl

theorem nextTransmission_quiet : Quiet e e.nextTransmission := by
  have next : Quiet e e.restartRx.forgetGrant := .unseen rfl
  unfold nextTransmission
  dsimp only
  split
  · exact next.trans (dropAnswer_quiet _)
  · exact next

theorem placed_quiet (frame : Heard) (decoded : Bool) : Quiet e (e.placed frame decoded).2 := by
  unfold placed
  split
  · exact .refl e
  · split
    · exact .refl e
    · split
      · split
        · exact .refl e
        · exact e.nextTransmission_quiet
      · exact .refl e

section

variable [Libm]

theorem scheduleSlave_moves : Moves b e e.scheduleSlave := by
  unfold scheduleSlave
  split
  · exact .refl
  · split
    · exact .refl
    · split
      · exact .refl
      · extract_lets grant level start floor
        split
        · rename_i g _
          extract_lets window e₁
          have opened : Quiet e e₁ := (.unseen (by rfl) : Quiet e (e.setWindow _)).trans (dropAnswer_quiet _)
          split
          · exact opened.moves.trans e₁.tryWindow_moves
          · exact opened.moves
        · have closed : Quiet e (e.setWindow none) := .unseen rfl
          exact closed.moves.trans (schedule_moves _ _)

theorem takeHeader_once (ctl : GrantFrame) (frame : Heard) (told : b.control ctl)
    (up : e.state.inSession = true) (kind : ctl.kind = .header) : Once b e (e.takeHeader ctl frame) := by
  unfold takeHeader
  extract_lets e₁
  have opened : Quiet e e₁ := (e.openRx_quiet _ _ _).trans (noteOpening_quiet _ ctl)
  refine .before opened.moves ((e₁.takeAck_once ctl true told (opened.inSession_of up) (.inl kind)).after ?_)
  have granted : Quiet (e₁.takeAck ctl true) ((e₁.takeAck ctl true).takeGrant ctl frame) := .unseen rfl
  exact granted.moves.trans (scheduleSlave_moves _)

theorem slaveControl_once (ctl : GrantFrame) (frame : Heard) (told : b.control ctl)
    (up : e.state.inSession = true) : Once b e (e.slaveControl ctl frame) := by
  have placed := e.placed_quiet frame true
  unfold slaveControl
  generalize e.placed frame true = out at placed ⊢
  obtain ⟨ours, e₁⟩ := out
  have up := placed.inSession_of up
  refine .before placed.moves ?_
  cases ours with
  | false =>
    dsimp only
    split
    · rename_i kind
      exact e₁.takeAck_once ctl false told up (.inl kind)
    · exact .refl e₁
  | true =>
    have read : Quiet e₁ (((e₁.heard frame).measureLateness frame).takeReading ctl.snrDb) :=
      ((e₁.heard_quiet frame).trans (measureLateness_quiet _ frame)).trans (takeReading_quiet _ _)
    have up := read.inSession_of up
    refine .before read.moves ?_
    dsimp only
    generalize ((e₁.heard frame).measureLateness frame).takeReading ctl.snrDb = e₂ at up ⊢
    cases kind : ctl.kind with
    | disc => exact .unheard ((e₂.endSession_moves _ _).trans (answerDisc_moves _ _ _ _))
    | header => exact e₂.takeHeader_once ctl frame told up kind
    | answer => exact .refl e₂
    | discAck => exact .refl e₂

theorem slaveDecoded_moves (frame : Heard) (combined : Bool) : Moves b e (e.slaveDecoded frame combined) := by
  unfold slaveDecoded
  extract_lets e₁
  have heard : Quiet e e₁ := (e.heard_quiet frame).trans (measureLateness_quiet _ frame)
  split
  · exact heard.moves
  · have anchored (mEnd : ℚ) (floor : Bool) : Quiet e₁ (e₁.anchorAt mEnd floor) := .unseen rfl
    exact (heard.trans (anchored _ _)).moves.trans (scheduleSlave_moves _)

theorem slaveData_once (soft : SoftFrame) (frame : Heard) (decoded : Bool)
    (heard : ∀ payload, heardAs soft payload → b.data payload) (up : e.state.inSession = true) :
    Once b e (e.slaveData soft frame decoded) := by
  have placed := e.placed_quiet frame decoded
  unfold slaveData
  generalize e.placed frame decoded = out at placed ⊢
  obtain ⟨ours, e₁⟩ := out
  have up := placed.inSession_of up
  refine .before placed.moves ?_
  cases ours with
  | false => exact e₁.acceptLate_once soft decoded heard up
  | true =>
    have taken := e₁.takeData_once heard up
    dsimp only
    generalize e₁.takeData soft = out at taken ⊢
    obtain ⟨index, e₂⟩ := out
    refine taken.after ((e₂.noteData_quiet index).moves.trans ?_)
    dsimp only
    generalize e₂.noteData index = e₃
    split
    · exact (e₃.slaveDecoded_moves _ _).trans (decideIfFinal_moves _)
    · exact e₃.decideIfFinal_moves

/-! ### A station that has left -/

theorem answerLeft_moves (ctl : GrantFrame) (frame : Heard) : Moves b e (e.answerLeft ctl frame) := by
  unfold answerLeft
  split
  · exact .refl
  · split
    · exact Quiet.moves (.unseen (by rfl))
    · split
      · exact .refl
      · split
        · extract_lets e₁ e₂
          have left : Quiet e e₁ := .unseen rfl
          have waited : Quiet e₁ e₂ := by
            unfold e₂
            split
            · exact e₁.stateEnd_quiet _ _
            · exact .refl _
          exact ((left.trans waited).trans e₂.identifyAfterLeaving_quiet).moves
        · split
          · exact .refl
          · extract_lets e₁
            have armed : Quiet e e₁ := by
              unfold e₁
              split
              · exact e.arm_quiet _ _
              · exact .refl _
            refine armed.moves.trans ?_
            split
            · exact e₁.answerDisc_moves _ _ _
            · split
              · exact e₁.answerDisc_moves _ _ _
              · exact .refl
            · exact .refl
            · exact .refl

end

/-! ### What the driver calls -/

theorem repeatLeave_moves : Moves b e e.repeatLeave := by
  unfold repeatLeave
  split
  · exact e.identifyAfterLeaving_quiet.moves
  · rename_i left _
    split
    · exact e.identifyAfterLeaving_quiet.moves
    · split
      · exact (e.arm_quiet _ _).moves
      · split
        · exact ((.unseen rfl : Quiet e e.forgetLeft).trans (identifyAfterLeaving_quiet _)).moves
        · extract_lets e₁ e₂
          have counted : Quiet e e₁ := .unseen rfl
          have keyed : Moves b e e₂ := by
            refine counted.moves.trans (keyGranting_moves _ _ ?_)
            intro f member
            cases List.mem_singleton.mp member
            exact .closing rfl rfl (.inl rfl)
          split
          · exact keyed.trans (e₂.arm_quiet _ _).moves
          · exact keyed.trans e₂.identifyAfterLeaving_quiet.moves

theorem abort_moves : Moves b e e.abort := by
  unfold abort
  split
  · exact .refl
  · extract_lets wasMaster e₁
    have ended : Moves b e e₁ := (.unseen rfl : Quiet e { e with cause := .abort }).moves.trans (endSession_moves _ _ _)
    split
    · exact ended.trans ((.unseen rfl : Quiet e₁ { e₁ with closing := { e₁.closing with
        leaveRepeats := e₁.config.leaveRepeats } }).trans (arm_quiet _ _ _)).moves
    · split
      · exact ended.trans e₁.identifyAfterLeaving_quiet.moves
      · exact ended

theorem setCallsigns_moves (calls : List Text) : Moves b e (e.orSelf (e.setCallsigns calls)) := by
  apply orSelf_moves
  intro e' taken
  unfold setCallsigns at taken
  split at taken
  · cases taken
  · split at taken
    · cases taken
    · split at taken
      · cases taken
        exact Quiet.moves (.unseen (by rfl))
      · cases taken

theorem pinMode_moves (mode bodyBytes : Option Nat) : Moves b e (e.orSelf (e.pinMode mode bodyBytes)) := by
  apply orSelf_moves
  intro e' taken
  unfold pinMode at taken
  split at taken
  · cases taken
  · split at taken
    · cases taken
    · cases taken
      exact Quiet.moves (.unseen (by rfl))

theorem priceControllers_quiet : Quiet e e.priceControllers := .unseen rfl

theorem moveTo_quiet (timing : PhyTiming) (capabilities : UInt8) (maxMode : Option Nat) :
    Quiet e (e.moveTo timing capabilities maxMode) := .unseen rfl

theorem setAir_moves (timing : PhyTiming) (capabilities : UInt8) (maxMode : Option Nat) :
    Moves b e (e.orSelf (e.setAir timing capabilities maxMode)) := by
  apply orSelf_moves
  intro e' taken
  unfold setAir at taken
  split at taken
  · cases taken
  · cases taken
    exact (e.moveTo_quiet _ _ _).moves

theorem moveCall_moves (timing : PhyTiming) (capabilities : UInt8) (maxMode : Option Nat) :
    Moves b e (e.orSelf (e.moveCall timing capabilities maxMode)) := by
  apply orSelf_moves
  intro e' taken
  unfold moveCall at taken
  split at taken
  · cases taken
  · cases taken
    exact (e.moveTo_quiet _ _ _).moves

theorem passTo_quiet (now : ℚ) : Quiet e (e.passTo now) := .unseen rfl

theorem onTxDone_quiet (now : ℚ) (framesEnd : Option ℚ) : Quiet e (e.onTxDone now framesEnd) := by
  unfold onTxDone
  extract_lets e₁
  have passed : Quiet e e₁ := e.passTo_quiet now
  split
  · exact passed
  · extract_lets e₂
    have landed : Quiet e e₂ := passed.trans (.unseen (by rfl))
    split
    · exact landed.trans (Quiet.trans (.unseen (by rfl)) (openSlot_quiet _ _))
    · exact landed

theorem onTxCutUnread_quiet (now : ℚ) : Quiet e (e.onTxCutUnread now) := by
  unfold onTxCutUnread
  extract_lets e₁
  have passed : Quiet e e₁ := e.passTo_quiet now
  split
  · exact passed
  · rename_i flight rest _
    extract_lets e₂ e₃
    have landed : Quiet e₁ { e₁ with inFlight := rest } := .unseen rfl
    have cut : Quiet e e₂ := passed.trans (landed.trans ((oweAgain_quiet _ _).trans (askAgain_quiet _ _)))
    split
    · have unheld : Quiet e e₃ := cut.trans (.unseen (by rfl))
      split
      · exact unheld.trans (e₃.arm_quiet _ _)
      · exact unheld
    · exact cut

theorem onTxDropped_quiet (now : ℚ) : Quiet e (e.onTxDropped now) := by
  unfold onTxDropped
  extract_lets e₁ e₂
  have passed : Quiet e e₁ := e.passTo_quiet now
  have dropped : Quiet e₁ e₂ := by
    unfold e₂
    split
    · exact .refl _
    · rename_i flight rest _
      have landed : Quiet e₁ { e₁ with inFlight := rest } := .unseen rfl
      exact landed.trans ((oweAgain_quiet _ _).trans (askAgain_quiet _ _))
  exact passed.trans (dropped.trans (.unseen (by rfl)))

theorem onTxDelayed_quiet (seconds : ℚ) : Quiet e (e.onTxDelayed seconds) := by
  unfold onTxDelayed
  split
  · exact .refl e
  · exact .unseen rfl

theorem onPreamble_quiet (tStart now : ℚ) (frameS : Option ℚ) : Quiet e (e.onPreamble tStart now frameS) := by
  unfold onPreamble
  extract_lets e₁ length clear e₂
  have passed : Quiet e e₁ := e.passTo_quiet now
  have called : Quiet e₁ e₂ := by
    unfold e₂
    split
    · split
      · exact e₁.arm_quiet _ _
      · exact .refl _
    · exact .refl _
  split
  · exact passed
  · split
    · split
      · exact passed.trans called
      · exact passed.trans (called.trans (e₂.arm_quiet _ _))
    · exact passed.trans called

/-! ### Time -/

theorem expireLink_moves : Moves b e e.expireLink := by
  unfold expireLink
  extract_lets due
  split
  · exact (e.arm_quiet _ _).moves
  · exact e.endSession_moves _ _

theorem expireConnect_moves : Moves b e e.expireConnect := by
  unfold expireConnect
  split
  · exact (e.arm_quiet _ _).moves
  · exact e.retryConnect_moves

theorem expireProbe_moves : Moves b e e.expireProbe := by
  unfold expireProbe
  split
  · split
    · exact (e.arm_quiet _ _).moves
    · exact e.sendProbe_moves
  · split
    · rename_i remote _
      have ended : Quiet e { e with calling := { e.calling with probing := none } } := .unseen rfl
      exact ended.moves.trans (event_moves _ _ rfl)
    · exact .refl

section

variable [Libm]

theorem speakUp_moves (cause : Cause) : Moves b e (e.speakUp cause) := by
  unfold speakUp
  split
  · exact (.unseen rfl : Quiet e { e with cause }).moves.trans (tryWindow_moves _)
  · exact .refl

theorem disconnectWithin_moves (drainS : Option ℚ) : Moves b e (e.disconnectWithin drainS) := by
  unfold disconnectWithin
  split
  · exact .refl
  · exact (.unseen (by rfl) : Quiet e { e with leaving := _ }).moves.trans (speakUp_moves _ _)

theorem send_moves (data : Bytes) (given : b.bytes data) : Moves b e (e.send data) :=
  .head (.give data given) (speakUp_moves _ _)

theorem measure_moves (mode frames : Nat) : Moves b e (e.orSelf (e.measure mode frames)) := by
  apply orSelf_moves
  intro e' taken
  unfold measure at taken
  split at taken
  · cases taken
  · split at taken
    · cases taken
    · cases taken
      exact (.unseen (by rfl) : Quiet e { e with measuring := _ }).moves.trans (speakUp_moves _ _)

theorem expire_moves (timer : Timer) : Moves b e (e.expire timer) := by
  cases timer with
  | link => exact e.expireLink_moves
  | connect => exact e.expireConnect_moves
  | probe => exact e.expireProbe_moves
  | proceed => exact e.proceed_moves
  | answer => exact e.keyAnswer_moves
  | leave => exact e.repeatLeave_moves
  | ident => exact e.sendIdentifier_moves

theorem fire_moves (timer : Timer) : Moves b e (e.fire timer) := by
  unfold fire
  split
  · exact (.unseen rfl : Quiet e { e.disarm timer with cause := .timer timer }).moves.trans (expire_moves _ timer)
  · exact .refl

theorem fireAll_moves (timers : List Timer) :
    Moves b e (timers.foldl (fun (e : Engine) timer => e.fire timer) e) := by
  induction timers generalizing e with
  | nil => exact .refl
  | cons timer rest ih => exact (e.fire_moves timer).trans (ih _)

theorem tick_moves (now : ℚ) : Moves b e (e.tick now) :=
  (e.passTo_quiet now).moves.trans (fireAll_moves _ _)

/-! ### What is heard -/

/-- What a frame brings the engine that hears it. -/
def broughtBy (e : Engine) (soft : SoftFrame) : Brought where
  data payload := soft.container = .data ∧ heardAs soft payload
  control ctl := soft.container = .control ∧
    ∃ payload, (soft.decode none).1 = some payload ∧ GrantFrame.decode payload = .ok ctl
  caller was who := soft.container = .data ∧ ∃ payload header body req,
    (soft.decode none).1 = some payload ∧ decodeData payload = .ok (header, body) ∧
      header.kind = .connectReq ∧ ConnectBody.decode body = .ok req ∧
      e.yieldsTo req (Heard.of soft) body.length ∧ was = e.remoteCall ∧ who = req.src

theorem onControl_once (ctl : GrantFrame) (frame : Heard) (told : b.control ctl) :
    Once b e (e.onControl ctl frame) := by
  unfold onControl
  split
  · exact (e.answerLeft_moves ctl frame).once
  · rename_i up
    have up : e.state.inSession = true := by simpa using up
    split
    · exact .refl e
    · split
      · exact e.masterControl_once ctl frame told up
      · exact e.slaveControl_once ctl frame told up

theorem onData_once (soft : SoftFrame) (frame : Heard) (decoded : Bool)
    (heard : ∀ payload, heardAs soft payload → b.data payload) :
    Once b e (e.onData soft frame decoded) := by
  unfold onData
  split
  · exact .refl e
  · rename_i up
    have up : e.state.inSession = true := by simpa using up
    split
    · exact .refl e
    · split
      · exact e.countFailed_quiet.moves.once
      · split
        · exact e.masterData_once soft frame decoded heard up
        · exact e.slaveData_once soft frame decoded heard up
        · exact .refl e

theorem outside_moves (payload : Bytes) (frame : Heard)
    (called : ∀ header body req, decodeData payload = .ok (header, body) → header.kind = .connectReq →
      ConnectBody.decode body = .ok req → e.yieldsTo req frame body.length → b.caller e.remoteCall req.src) :
    Moves b e (e.outside payload frame).2 := by
  unfold outside
  split
  · exact .refl
  · rename_i header body read
    have connects := e.onConnect_moves header body frame (b := b)
      fun req kind decoded yields => called header body req read kind decoded yields
    cases kind : header.kind with
    | connectReq => exact connects
    | connectAck => exact connects
    | probe => exact e.onProbe_moves _ body frame
    | probeAck => exact e.onProbe_moves _ body frame
    | data => exact .refl
    | measure => exact .refl
    | beacon => exact .refl
    | datagram => exact .refl

theorem onFrame_once (soft : SoftFrame) (now : ℚ) :
    Once (broughtBy (e.listen now) soft) e (e.onFrame soft now) := by
  have listening : Quiet e (e.listen now) := .unseen rfl
  refine .before listening.moves ?_
  unfold onFrame
  extract_lets e₁ heard
  split
  · exact .refl e₁
  · rename_i payload container read
    split
    · rename_i ctl decoded
      exact e₁.onControl_once ctl heard ⟨container, payload, read, decoded⟩
    · exact .refl e₁
  · rename_i container _
    exact e₁.onData_once soft heard false fun payload as => ⟨container, as⟩
  · rename_i payload container read
    have out := e₁.outside_moves (b := (broughtBy e₁ soft).mute) payload heard
      fun header body req decoded kind request yields =>
        ⟨container, payload, header, body, req, read, decoded, kind, request, yields, rfl, rfl⟩
    refine .before out ?_
    generalize e₁.outside payload heard = result
    obtain ⟨ours, e₂⟩ := result
    cases ours with
    | false => exact .refl e₂
    | true => exact e₂.onData_once soft heard true fun payload as => ⟨container, as⟩

/-- What a call brings the engine. -/
def brings (e : Engine) : Input → Brought
  | .send data => { bytes := (· = data) }
  | .frame soft now => broughtBy (e.listen now) soft
  | _ => {}

theorem handle_once (input : Input) (undrained : input ≠ .drain) :
    Once (e.brings input) e (e.handle input) := by
  cases input with
  | connect remote asCall => exact (e.connect_moves remote asCall).once
  | probe remote asCall => exact (e.probe_moves remote asCall).once
  | disconnect drainS => exact (e.disconnectWithin_moves drainS).once
  | abort => exact e.abort_moves.once
  | send data => exact (e.send_moves (b := (e.brings (.send data)).mute) data rfl).once
  | measure mode frames => exact (e.measure_moves mode frames).once
  | pinMode mode bodyBytes => exact (e.pinMode_moves mode bodyBytes).once
  | setCallsigns calls => exact (e.setCallsigns_moves calls).once
  | setAir timing capabilities maxMode => exact (e.setAir_moves timing capabilities maxMode).once
  | moveCall timing capabilities maxMode => exact (e.moveCall_moves timing capabilities maxMode).once
  | txDone now framesEnd => exact (e.onTxDone_quiet now framesEnd).moves.once
  | txCutUnread now => exact (e.onTxCutUnread_quiet now).moves.once
  | txDropped now => exact (e.onTxDropped_quiet now).moves.once
  | txDelayed seconds => exact (e.onTxDelayed_quiet seconds).moves.once
  | tick now => exact (e.tick_moves now).once
  | preamble tStart now frameS => exact (e.onPreamble_quiet tStart now frameS).moves.once
  | frame soft now => exact e.onFrame_once soft now
  | drain => exact absurd rfl undrained
  | setAnswerGap => exact (Quiet.moves (.unseen (by rfl))).once
  | setMaxBurstS => exact (Quiet.moves (.unseen (by rfl))).once
  | setCeiling => exact (Quiet.moves (.unseen (by rfl))).once
  | setMaxMode => exact (Quiet.moves (.unseen (by rfl))).once
  | setTxLatencyS => exact (Quiet.moves (.unseen (by rfl))).once
  | setIdentifierS => exact (Quiet.moves (.unseen (by rfl))).once
  | setIdentifiers => exact (Quiet.moves (.unseen (by rfl))).once
  | setTurnaroundS => exact (Quiet.moves (.unseen (by rfl))).once
  | takeLadder => exact (Quiet.moves (.unseen (by rfl))).once
  | resetStats => exact (Quiet.moves (.unseen (by rfl))).once

theorem handle_moves (input : Input) (undrained : input ≠ .drain) :
    Moves (e.brings input) e (e.handle input) := (e.handle_once input undrained).moves

end

end Engine

end AetherHF.Link
