import AetherHF.Radio.Desk
import AetherHF.Radio.Steps

/-! Each of the station's functions as acts on its desk. -/
namespace AetherHF.Radio

open Relation (ReflTransGen)

variable {P : Type} {s : Station P}

namespace Station

/-! ### What is said -/

theorem tellEngine_desk (unrendered : Option LinkTx) (outcome : Outcome) (now : ℚ) (framesEnd : Option ℚ) :
    (s.tellEngine unrendered outcome now framesEnd).desk = s.desk.tell [.answered unrendered outcome] := rfl

theorem report_desk (reference : Option Text) (sent : Bool) (reason : Option String) :
    (s.report reference sent reason).desk = s.desk.report reference sent := by
  cases reference <;> rfl

theorem reportAll_desk (queue : List QueuedDatagram) (reason : String) :
    (s.reportAll queue reason).desk = s.desk.reportAll queue := by
  induction queue generalizing s with
  | nil => rfl
  | cons datagram rest ih =>
    have first := s.report_desk datagram.reference false (some reason)
    exact (ih (s := s.report datagram.reference false (some reason))).trans (congrArg (Desk.reportAll · rest) first)

theorem clearDatagrams_desk (reason : String) : (s.clearDatagrams reason).desk = s.desk.clear := reportAll_desk ..

theorem refuseDatagram_desk (reference : Option Text) (last : Bool) (why : String) :
    (s.refuseDatagram reference last why).desk = s.desk.refuseBurst reference last := by
  unfold refuseDatagram Desk.refuseBurst
  cases last with
  | true => exact report_desk ..
  | false =>
    have queue : s.desk.queue = s.datagrams.queue := rfl
    rw [queue]
    cases s.datagrams.queue <;> exact report_desk ..

theorem refuseAll_desk (dropped : List Outgoing) (why : String) : (s.refuseAll dropped why).desk = s.desk.refuseAll dropped := by
  induction dropped generalizing s with
  | nil => rfl
  | cons next rest ih =>
    cases next with
    | datagram frames reference last =>
      exact (ih (s := s.refuseDatagram reference last why)).trans
        (congrArg (Desk.refuseAll · rest) (refuseDatagram_desk reference last why))
    | _ => exact ih (s := s)

theorem datagramTransmitted_desk (cut : Bool) : (s.datagramTransmitted cut).desk = s.desk.land !cut := by
  unfold datagramTransmitted Desk.land
  have onAir : s.desk.onAir = s.datagrams.onAir := rfl
  rw [onAir]
  cases s.datagrams.onAir with
  | none => rfl
  | some reference => cases cut <;> exact report_desk ..

theorem dropKeying_desk (now : ℚ) : (s.dropKeying now).desk = s.desk.answer .dropped := by
  unfold dropKeying Desk.answer
  have keying : s.desk.keying = s.keying.isSome := rfl
  rw [keying]
  cases s.keying <;> rfl

theorem cutKeying_desk (now : ℚ) : ∃ outcome, (s.cutKeying now).desk = s.desk.answer outcome := by
  unfold cutKeying Desk.answer
  have keying : s.desk.keying = s.keying.isSome := rfl
  rw [keying]
  cases s.keying with
  | none => exact ⟨.done, rfl⟩
  | some window =>
    dsimp only
    unfold reportCut
    split
    · exact ⟨.cutUnread, rfl⟩
    · exact ⟨.done, rfl⟩

theorem answerFinished_desk (now tailS : ℚ) : (s.answerFinished now tailS).desk = s.desk.answer .done := by
  unfold answerFinished Desk.answer
  have keying : s.desk.keying = s.keying.isSome := rfl
  rw [keying]
  cases s.keying <;> rfl

theorem dropLinkPending_desk (now : ℚ) : (s.dropLinkPending now).desk = s.desk.dropLinks := by
  have told (links : List LinkTx) (s : Station P) :
      (links.foldl (fun (s : Station P) tx => s.tellEngine (some tx) .dropped now none) s).desk =
        s.desk.tell (links.map fun tx => .answered (some tx) .dropped) := by
    induction links generalizing s with
    | nil => exact congrArg (fun log => { s.desk with log }) (List.append_nil _).symm
    | cons tx rest ih =>
      rw [List.foldl_cons, ih]
      exact congrArg (fun log => { s.desk with log }) (List.append_assoc ..)
  exact told ..

/-! ### What is taken from the engine -/

theorem takeAction_frame (action : Link.Action) :
    (takeAction s action).transmitting = s.transmitting ∧ (takeAction s action).playback = s.playback := by
  cases action with
  | event event => cases event <;> exact ⟨rfl, rfl⟩
  | _ => exact ⟨rfl, rfl⟩

theorem pump_frame : s.pump.transmitting = s.transmitting ∧ s.pump.playback = s.playback := by
  have all (actions : List Link.Action) (s : Station P) :
      (actions.foldl takeAction s).transmitting = s.transmitting ∧ (actions.foldl takeAction s).playback = s.playback := by
    induction actions generalizing s with
    | nil => exact ⟨rfl, rfl⟩
    | cons action rest ih =>
      obtain ⟨transmitting, playback⟩ := takeAction_frame (s := s) action
      exact ⟨(ih _).1.trans transmitting, (ih _).2.trans playback⟩
  exact all ..

variable [Ptt P]

/-- Acts that leave the desk as it is but for what the engine hands over. -/
theorem hands (actions : List Link.Action) (failed : Bool) :
    Acts { s.desk with failed } { (actions.foldl takeAction s).desk with failed } := by
  induction actions generalizing s with
  | nil => exact .refl
  | cons action rest ih =>
    refine ReflTransGen.trans ?_ (ih (s := takeAction s action))
    cases action with
    | transmit t => exact .single (.hand _ (s.linkOf t))
    | deliver data => exact .refl
    | event event => cases event <;> exact .refl

theorem pump_failed (failed : Bool) : Acts { s.desk with failed } { s.pump.desk with failed } :=
  hands (s := { s with engine := s.engine.drain.2 }) _ failed

theorem pump_acts : Acts s.desk s.pump.desk := pump_failed false

/-! ### Off the queue -/

theorem pastPauses_acts (now : ℚ) (pending : List Outgoing) :
    Acts { s.desk with pending } { s.desk with pending := (pastPauses now pending).2 } := by
  induction pending with
  | nil => exact .refl
  | cons next rest ih =>
    cases next with
    | pause seconds untilS =>
      unfold pastPauses
      dsimp only
      split
      · exact .single (.await _ rfl _)
      · exact ReflTransGen.head (.resume _ rfl) ih
    | _ => exact .refl

omit [Ptt P] in
theorem tossCoin_desk (front : QueuedDatagram) (now : ℚ) : (s.tossCoin front now).2.desk = s.desk := by
  unfold tossCoin
  dsimp only
  split <;> rfl

omit [Ptt P] in
theorem feedBurst_desk {front : QueuedDatagram} {rest : List QueuedDatagram} (queue : s.datagrams.queue = front :: rest) :
    s.feedBurst.desk = s.desk.feed front rest := by
  unfold feedBurst Desk.feed
  rw [queue]
  dsimp only
  cases front.bursts <;> rfl

omit [Ptt P] in
theorem feed_resting {d : Desk P} (resting : d.Resting) (front : QueuedDatagram) (rest : List QueuedDatagram) :
    (d.feed front rest).Resting := by
  unfold Desk.feed
  obtain ⟨silent, quiet, well⟩ := resting
  split <;> exact ⟨silent, quiet, well⟩

theorem tryFeed_acts (w : Surroundings) (now : ℚ) (resting : s.desk.Resting) (empty : s.pending = []) :
    Acts s.desk (s.tryFeed w now).desk ∧ (s.tryFeed w now).desk.Resting := by
  unfold tryFeed
  split
  · exact ⟨.refl, resting⟩
  · split
    · exact ⟨.refl, resting⟩
    · rename_i front rest queue
      split
      · exact ⟨.refl, resting⟩
      · split
        · exact ⟨.refl, resting⟩
        · have tossed := s.tossCoin_desk front now
          split <;> rename_i s' is' <;> rw [is'] at tossed <;> dsimp only at tossed ⊢
          · exact ⟨tossed ▸ .refl, tossed ▸ resting⟩
          · have queue' : s'.datagrams.queue = front :: rest := (congrArg Desk.queue tossed).trans queue
            have pending' : s'.desk.pending = [] := (congrArg Desk.pending tossed).trans empty
            rw [← tossed] at resting ⊢
            rw [feedBurst_desk queue']
            exact ⟨.single (.feed _ resting pending' queue'), feed_resting resting front rest⟩

theorem feedDatagram_acts (w : Surroundings) (now : ℚ) (resting : s.desk.Resting) (empty : s.pending = []) :
    Acts s.desk (s.feedDatagram w now).desk ∧ (s.feedDatagram w now).desk.Resting :=
  tryFeed_acts (s := { s with datagrams := { s.datagrams with reassembler := s.datagrams.reassembler.expire now } })
    w now resting empty

theorem dropBeacons_acts : Acts s.desk s.dropBeaconsInSession.desk ∧ s.dropBeaconsInSession.transmitting = s.transmitting ∧
    s.dropBeaconsInSession.playback = s.playback := by
  unfold dropBeaconsInSession
  split
  · exact ⟨.refl, rfl, rfl⟩
  · refine ⟨.single (.prune _ (fun next => !next.beacon) fun next _ other => ?_), rfl, rfl⟩
    cases next with
    | frames frames => cases other
    | _ => rfl

theorem heldForBusy_acts (w : Surroundings) (now : ℚ) (resting : s.desk.Resting) :
    Acts s.desk (s.heldForBusy w now).2.desk ∧ (s.heldForBusy w now).2.desk.Resting := by
  obtain ⟨acts, transmitting, playback⟩ := s.dropBeacons_acts
  unfold heldForBusy
  dsimp only
  generalize s.dropBeaconsInSession = t at acts transmitting playback
  have resting : t.desk.Resting := ⟨playback.trans resting.silent, transmitting.trans resting.quiet, rfl⟩
  have held : (t.holdBack now).desk = t.desk := by
    unfold holdBack
    cases t.heldSince <;> rfl
  split
  · exact ⟨acts, resting⟩
  · split
    · exact ⟨acts, resting⟩
    · split
      · exact ⟨held ▸ acts, held ▸ resting⟩
      · exact ⟨acts, resting⟩

/-! ### Judged -/

omit [Ptt P] in
theorem judge_next {w : Surroundings} {next : Outgoing} {leave : Leave} (given : s.judge w next = .ok leave) :
    leave.next = next := by
  unfold judge at given
  split at given
  · cases given
  · split at given
    · cases given
    · split at given
      · exact (congrArg Leave.next (Except.ok.inj given)).symm
      · cases given

theorem haltSession_acts (now : ℚ) (resting : s.desk.Resting) : Acts s.desk (s.haltSession now).desk := by
  unfold haltSession
  split
  · exact .refl
  · have dropped := s.dropLinkPending_desk now
    exact .single (dropped ▸ .dropLinks _ (.inl resting))

theorem refuse_acts (why : String) (now : ℚ) {next : Outgoing} {rest : List Outgoing} (head : s.pending = next :: rest)
    (resting : s.desk.Resting) : Acts s.desk (s.refuse why now).desk := by
  unfold refuse
  rw [head]
  cases next with
  | link tx =>
    dsimp only
    refine ReflTransGen.trans (.single (.refuseLink _ resting head)) (ReflTransGen.trans ?_ pump_acts)
    exact haltSession_acts (s := (({ s with pending := rest, authorized := none } : Station P).tell
      (.refused (.link tx))).tellEngine (some tx) .dropped now none) now ⟨resting.silent, resting.quiet, rfl⟩
  | datagram frames reference last =>
    dsimp only
    rw [refuseDatagram_desk]
    exact .single (.refuseDatagram _ resting head)
  | _ => exact .single (.refuse _ resting head rfl)

/-! ### Rendered -/

omit [Ptt P] in
theorem noteSetup_desk (now : ℚ) (frames : List Link.TxFrame) : (s.noteSetup now frames).desk = s.desk := by
  unfold noteSetup
  split <;> rfl

omit [Ptt P] in
/-- Audio between a lead and a tail is not nothing. -/
theorem keyedAudio_ne {audio : List ℚ} (sounds : audio ≠ []) : s.keyedAudio audio ≠ [] := by
  unfold keyedAudio
  intro nothing
  exact sounds (List.append_eq_nil_iff.mp (List.append_eq_nil_iff.mp nothing).1).2

omit [Ptt P] in
theorem identifierAudioFor_ne {w : Surroundings} {call : Text} {audio : List ℚ}
    (sent : s.identifierAudioFor w call = some audio) : audio ≠ [] := by
  unfold identifierAudioFor at sent
  split at sent
  · cases sent
  · dsimp only at sent
    split at sent
    · rename_i allowed
      obtain rfl := Option.some.inj sent
      intro nothing
      rw [nothing] at allowed
      simp at allowed
    · cases sent

omit [Ptt P] in
theorem renderLink_desk (w : Surroundings) (now : ℚ) (tx : LinkTx) {rendered : List ℚ} (sounds : rendered ≠ [])
    (first length : Nat) :
    ∃ audio, audio ≠ [] ∧ (s.renderLink w now tx rendered first length).desk =
      ({ s.desk with playback := audio, keying := true, playingTest := false } : Desk P).tell [.rendered (.link tx) audio] := by
  have same := s.noteSetup_desk now tx.frames
  unfold renderLink
  dsimp only
  generalize s.noteSetup now tx.frames = t at same ⊢
  rw [← same]
  have whole (trailing : List ℚ) : rendered ++ trailing ≠ [] := fun nothing => sounds (List.append_eq_nil_iff.mp nothing).1
  split
  · exact ⟨_, keyedAudio_ne (whole _), rfl⟩
  · exact ⟨_, keyedAudio_ne (whole _), rfl⟩

omit [Ptt P] in
theorem renderFrames_desk (next : Outgoing) (rendered : List ℚ) (test : Bool) :
    (s.renderFrames next rendered test).desk =
      ({ s.desk with playback := s.keyedAudio rendered, keying := false, playingTest := test } : Desk P).tell
        [.rendered next (s.keyedAudio rendered)] := rfl

omit [Ptt P] in
theorem renderLinkIdentifier_desk (w : Surroundings) (now : ℚ) (tx : LinkTx) :
    s.renderLinkIdentifier w now tx = ((s.tell (.unrendered (.link tx))).tellEngine (some tx) .done now none).pump ∨
    ∃ audio, audio ≠ [] ∧ (s.renderLinkIdentifier w now tx).desk =
      ({ s.desk with playback := audio, keying := true } : Desk P).tell [.rendered (.link tx) audio] := by
  unfold renderLinkIdentifier
  dsimp only
  split
  · exact .inl rfl
  · rename_i audio sent
    refine .inr ⟨_, keyedAudio_ne ?_, rfl⟩
    have some_ : audio ≠ [] := by
      split at sent
      · cases sent
      · exact identifierAudioFor_ne sent
    intro nothing
    rcases List.take_eq_nil_iff.mp nothing with none_ | none_
    · omega
    · exact some_ none_

/-- A burst that is no transmission of the engine's. -/
theorem burst_acts (w : Surroundings) {d : Desk P} (resting : d.Resting) (leave : Leave) {next : Outgoing} (is : leave.next = next)
    {rest : List Outgoing} (head : d.pending = leave.next :: rest) (other : next.isLink = false) (frames : List Link.TxFrame)
    (test : Bool) (datagramTest : next.isDatagram = true → test = false)
    (taken : s.desk = (d.take next rest).tell [.judged leave]) :
    Acts d (match w.modulate frames with
      | none => s.tell (.unrendered next)
      | some (rendered, _, _) => s.renderFrames next rendered test).desk := by
  subst is
  split
  · have told : (s.tell (.unrendered leave.next)).desk = s.desk.tell [.unrendered leave.next] := rfl
    rw [told, taken]
    exact .single (.unrendered d resting leave head other)
  · rename_i rendered first length modulated
    rw [renderFrames_desk, taken]
    exact .single (.render d resting leave head _ false test (fun _ => keyedAudio_ne (w.sounds _ _ _ _ modulated)) nofun
      (fun link => by rw [other] at link; cases link) (fun link => by rw [other] at link; cases link) datagramTest)

/-- What the gate lets go is rendered, or comes to nothing. -/
theorem renderHead_acts (w : Surroundings) (now : ℚ) {d : Desk P} (resting : d.Resting) (leave : Leave) {next : Outgoing}
    (is : leave.next = next) {rest : List Outgoing} (head : d.pending = leave.next :: rest)
    (popped : s.desk = ({ d with pending := rest, authorized := true } : Desk P).tell [.judged leave]) :
    Acts d (s.renderHead w now next).desk := by
  have test : s.desk.playingTest = d.playingTest := by
    rw [popped]
    rfl
  cases next with
  | link tx =>
    have unrendered (outcome : Outcome) := Act.unrenderedLink d resting leave is (is ▸ head) outcome
    have link : leave.next.isLink = true := by rw [is]; rfl
    have other : leave.next.isDatagram = true → ∀ {p : Prop}, p := fun datagram => by rw [is] at datagram; cases datagram
    have rendered (audio : List ℚ) (sounds : audio ≠ []) (test : Bool) (same : test = true → d.playingTest = true) :=
      Act.render d resting leave head audio true test (fun _ => sounds) (fun _ => .inl link) (fun _ => rfl)
        (fun _ => same) fun datagram => other datagram
    rw [is] at rendered
    unfold renderHead
    dsimp only
    split
    · rcases s.renderLinkIdentifier_desk w now tx with nothing | ⟨audio, sounds, desk⟩
      · rw [nothing]
        refine ReflTransGen.head (unrendered .done) ?_
        have told : ((s.tell (.unrendered (.link tx))).tellEngine (some tx) .done now none).desk =
            (s.desk.tell [.unrendered (.link tx)]).tell [.answered (some tx) .done] := rfl
        rw [popped] at told
        exact told ▸ pump_acts
      · rw [desk, popped]
        exact .single (rendered audio sounds d.playingTest id)
    · split
      · have told : ((s.tell (.unrendered (.link tx))).tellEngine (some tx) .dropped now none).desk =
            (s.desk.tell [.unrendered (.link tx)]).tell [.answered (some tx) .dropped] := rfl
        rw [told, popped]
        exact .single (unrendered .dropped)
      · rename_i audio first length modulated
        obtain ⟨audio, sounds, desk⟩ := s.renderLink_desk w now tx (w.sounds _ _ _ _ modulated) first length
        rw [desk, popped]
        exact .single (rendered audio sounds false nofun)
  | frames frames => exact burst_acts w resting leave is head rfl frames false (fun _ => rfl) popped
  | drive frames => exact burst_acts w resting leave is head rfl frames true nofun popped
  | datagram frames reference last =>
    refine burst_acts (s := s.noteOnAir reference last) w resting leave is head rfl frames false (fun _ => rfl) ?_
    have noted : (s.noteOnAir reference last).desk =
        { s.desk with onAir := if last then some reference else s.desk.onAir } := by cases last <;> rfl
    rw [noted, popped]
    cases last <;> rfl
  | pause seconds untilS =>
    have never := leave.describes
    rw [is] at never
    cases never
  | identifier =>
    unfold renderHead renderIdentifier
    dsimp only
    have other : leave.next.isLink = true → ∀ {p : Prop}, p := fun link => by rw [is] at link; cases link
    split
    · have told : (s.tell (.unrendered .identifier)).desk = s.desk.tell [.unrendered .identifier] := rfl
      have act := Act.unrendered d resting leave head (by rw [is]; rfl)
      rw [is] at act
      rw [told, popped]
      exact .single act
    · rename_i audio sent
      have act := Act.render d resting leave head (s.keyedAudio audio) s.desk.keying d.playingTest
        (fun _ => keyedAudio_ne (identifierAudioFor_ne sent)) (fun keys => .inr (by rw [popped] at keys; exact keys))
        (fun link => other link) (fun link => other link) (fun datagram => by rw [is] at datagram; cases datagram)
      rw [is] at act
      have filled : ((s.fill .identifier (s.keyedAudio audio)).identified).desk =
          ({ s.desk with playback := s.keyedAudio audio, keying := s.desk.keying } : Desk P).tell
            [.rendered .identifier (s.keyedAudio audio)] := rfl
      rw [filled, popped]
      rw [popped] at act
      exact .single act
  | audio samples silent test =>
    have own : leave.next.own = true := by rw [is]; rfl
    have other : leave.next.isLink = true → ∀ {p : Prop}, p := fun link => by rw [is] at link; cases link
    have act := Act.render d resting leave head (s.keyedAudio samples) s.desk.keying test
      (fun notOwn => by rw [own] at notOwn; cases notOwn) (fun keys => .inr (by rw [popped] at keys; exact keys))
      (fun link => other link) (fun link => other link) (fun datagram => by rw [is] at datagram; cases datagram)
    rw [is] at act
    have filled : (s.renderHead w now (.audio samples silent test)).desk =
        ({ s.desk with playback := s.keyedAudio samples, keying := s.desk.keying, playingTest := test } : Desk P).tell
          [.rendered (.audio samples silent test) (s.keyedAudio samples)] := rfl
    rw [filled, popped]
    rw [popped] at act
    exact .single act

/-- The gate gives its leave for the head of the queue, or drops it. -/
theorem gate_cases (w : Surroundings) (now : ℚ) (resting : s.desk.Resting) :
    (∃ t, s.gate w now = (false, t) ∧ Acts s.desk t.desk) ∨
    ∃ leave rest, s.pending = leave.next :: rest ∧
      s.gate w now = (true, ({ s with authorized := some leave } : Station P).tell (.judged leave)) := by
  obtain ⟨pending, head⟩ : ∃ pending, s.pending = pending := ⟨_, rfl⟩
  unfold gate
  cases pending with
  | nil =>
    have first : s.pending.head? = none := by rw [head]; rfl
    rw [first]
    exact .inl ⟨s, rfl, .refl⟩
  | cons next rest =>
    have first : s.pending.head? = some next := by rw [head]; rfl
    rw [first]
    dsimp only
    cases judged : s.judge w next with
    | error why => exact .inl ⟨_, rfl, refuse_acts why now head resting⟩
    | ok leave => exact .inr ⟨leave, rest, (judge_next judged).symm ▸ head, rfl⟩

theorem startPending_acts (w : Surroundings) (now : ℚ) (resting : s.desk.Resting) : Acts s.desk (s.startPending w now).desk := by
  have passed := s.pastPauses_acts now s.pending
  unfold startPending
  rcases past : pastPauses now s.pending with ⟨over_, pending⟩
  rw [past] at passed
  cases over_ with
  | false => exact passed
  | true =>
    dsimp only at passed ⊢
    refine ReflTransGen.trans passed ?_
    have first : Acts ({ s with pending } : Station P).desk
        (if pending.isEmpty then ({ s with pending } : Station P).feedDatagram w now else { s with pending }).desk ∧
        (if pending.isEmpty then ({ s with pending } : Station P).feedDatagram w now else { s with pending }).desk.Resting := by
      split
      · rename_i empty
        exact feedDatagram_acts (s := { s with pending }) w now ⟨resting.silent, resting.quiet, rfl⟩ (List.isEmpty_iff.mp empty)
      · exact ⟨.refl, resting.silent, resting.quiet, rfl⟩
    generalize (if pending.isEmpty then ({ s with pending } : Station P).feedDatagram w now else { s with pending }) = t at first ⊢
    obtain ⟨acts, resting⟩ := first
    split
    · exact acts
    · have held := t.heldForBusy_acts w now resting
      refine ReflTransGen.trans acts ?_
      split <;> rename_i s' is' <;> rw [is'] at held <;> dsimp only at held
      · exact held.1
      · obtain ⟨acts, resting⟩ := held
        refine ReflTransGen.trans acts ?_
        rcases s'.gate_cases w now resting with ⟨t, gated, acts⟩ | ⟨leave, rest, head, gated⟩
        · rw [gated]
          exact acts
        · rw [gated]
          dsimp only
          unfold renderNext
          have pending : (({ s' with authorized := some leave } : Station P).tell (.judged leave)).pending = leave.next :: rest :=
            head
          rw [pending]
          exact renderHead_acts w now resting leave rfl head rfl

/-! ### Ended -/

/-- What is left where a call may have failed. -/
def after {α : Type} (r : Except PttError α × Station P) : Desk P := { r.2.desk with failed := !r.1.isOk }

omit [Ptt P] in
theorem after_ok {α : Type} (a : α) (s : Station P) : after (.ok a, s) = s.desk := rfl

omit [Ptt P] in
theorem after_error {α : Type} (e : PttError) (s : Station P) :
    after ((.error e, s) : Except PttError α × Station P) = { s.desk with failed := true } := rfl

theorem release_fst : s.release.1 = s.ptt.unkey.1 := rfl

theorem release_desk : s.release.2.desk = s.desk.release := rfl

theorem after_release : after s.release = s.desk.letGo := rfl

theorem abandonTx_acts (failed : Bool) : Acts { s.desk with failed } s.abandonTx.2.desk := by
  have first : ∃ outcome, (((if !s.transmitting && s.keying.isSome then s.discardWaitingLink else s.cutKeying s.now).dropLinkPending
      s.now).fallSilent).desk = (s.desk.answer outcome).dropLinks.fallSilent := by
    split
    · refine ⟨.dropped, ?_⟩
      have dropped : s.discardWaitingLink.desk = s.desk.fallSilent.answer .dropped := dropKeying_desk ..
      have links := s.discardWaitingLink.dropLinkPending_desk s.now
      have silent : ((s.desk.fallSilent.answer .dropped).dropLinks).fallSilent = (s.desk.answer .dropped).dropLinks.fallSilent := by
        unfold Desk.answer
        have keying : s.desk.fallSilent.keying = s.desk.keying := rfl
        rw [keying]
        split <;> rfl
      exact (congrArg Desk.fallSilent (links.trans (congrArg Desk.dropLinks dropped))).trans silent
    · obtain ⟨outcome, cut⟩ := s.cutKeying_desk s.now
      have links := (s.cutKeying s.now).dropLinkPending_desk s.now
      exact ⟨outcome, congrArg Desk.fallSilent (links.trans (congrArg Desk.dropLinks cut))⟩
  obtain ⟨outcome, first⟩ := first
  refine ReflTransGen.head (.abandon _ outcome) ?_
  unfold abandonTx
  dsimp only
  generalize (((if !s.transmitting && s.keying.isSome then s.discardWaitingLink else s.cutKeying s.now).dropLinkPending
    s.now).fallSilent) = t at first ⊢
  have landed := (t.datagramTransmitted_desk true).trans (congrArg (Desk.land · false) first)
  generalize t.datagramTransmitted true = t at landed ⊢
  have refused := refuseAll_desk (s := { t with pending := [] }) t.pending "the transmitter failed"
  generalize ({ t with pending := [] } : Station P).refuseAll t.pending "the transmitter failed" = u at refused ⊢
  have emptied : ({ t with pending := [] } : Station P).desk = { t.desk with pending := [] } := rfl
  have pending : t.pending = t.desk.pending := rfl
  rw [emptied, pending, landed] at refused
  have whole : u.desk.finished.release = s.desk.abandon outcome := congrArg (fun d => (Desk.finished d).release) refused
  have ended : (if s.transmitting then ({ u.flushed false with transmitting := false, playingTest := false } : Station P).deafTail s.now
      else { u.flushed false with transmitting := false, playingTest := false }).desk = u.desk.finished := by
    split <;> rfl
  generalize (if s.transmitting then ({ u.flushed false with transmitting := false, playingTest := false } : Station P).deafTail s.now
      else { u.flushed false with transmitting := false, playingTest := false }) = v at ended ⊢
  have released := v.release_desk
  rw [ended, whole] at released
  exact released ▸ pump_acts (s := v.release.2)

theorem orAbandon_acts {α : Type} {d : Desk P} {r : Except PttError α × Station P} (acts : Acts d (after r)) :
    Acts d (orAbandon r).desk := by
  rcases r with ⟨result, t⟩
  cases result with
  | ok a => exact acts
  | error e => exact acts.trans (abandonTx_acts true)

theorem finishTransmission_acts (now : ℚ) (on : s.transmitting = true) (silent : s.playback = []) :
    Acts s.desk (after (s.finishTransmission now)) := by
  unfold finishTransmission
  dsimp only
  have begun : ({ s with clock := { s.clock with cutShort := false }, transmitting := false, playingTest := false } : Station P).desk =
      s.desk.finished := rfl
  generalize ({ s with clock := { s.clock with cutShort := false }, transmitting := false, playingTest := false } : Station P) = t
    at begun ⊢
  have released := t.release_desk
  rw [begun] at released
  rcases is : t.release with ⟨result, u⟩
  rw [is] at released
  cases result with
  | error e =>
    have act := Act.finishStuck s.desk on silent
    rw [← released] at act
    exact .single act
  | ok done =>
    have landed := u.datagramTransmitted_desk s.clock.cutShort
    have answered := (u.datagramTransmitted s.clock.cutShort).answerFinished_desk now u.tailS
    have act := Act.finish s.desk on silent !s.clock.cutShort
    rw [← released] at act
    refine ReflTransGen.head act ?_
    dsimp only at landed answered ⊢
    rw [← landed, ← answered]
    exact pump_acts (s := ((u.datagramTransmitted s.clock.cutShort).answerFinished now u.tailS).deafTail now)

/-! ### Keyed and played -/

theorem dropLate_acts (now : ℚ) (quiet : s.transmitting = false) : Acts s.desk (s.dropLate now).desk := by
  unfold dropLate
  split
  · rename_i keys
    have dropped := s.fallSilent.dropKeying_desk now
    have act := Act.discard s.desk quiet keys
    refine ReflTransGen.head act ?_
    have same : s.fallSilent.desk = s.desk.fallSilent := rfl
    rw [← same, ← dropped]
    exact pump_acts
  · exact .refl

theorem withinWindow_acts (now : ℚ) (quiet : s.transmitting = false) :
    (s.withinWindow now).1 = true ∧ (s.withinWindow now).2 = s ∨
    (s.withinWindow now).1 = false ∧ Acts s.desk (s.withinWindow now).2.desk := by
  unfold withinWindow
  split
  · exact .inl ⟨rfl, rfl⟩
  · split
    · exact .inl ⟨rfl, rfl⟩
    · dsimp only
      split
      · exact .inr ⟨rfl, .refl⟩
      · split
        · exact .inr ⟨rfl, dropLate_acts now quiet⟩
        · exact .inl ⟨rfl, rfl⟩

theorem play_acts (count : Nat) (on : s.transmitting = true) : Acts s.desk (s.play count).desk :=
  .single (.play s.desk on rfl count)

theorem late_iff (radiatesAt : ℚ) (latest : Option ℚ) :
    latest.any (fun l => decide (l + micro < radiatesAt)) = true ↔ late radiatesAt latest := by
  unfold late
  cases latest <;> simp

theorem keyed_acts (w : Surroundings) (now : ℚ) (count : Nat) {d : Desk P} (waiting : d.Waiting)
    (obeyed : (d.ptt.key now).1 = .ok ()) (is : s.desk = d.keyAt now) : Acts d (after (s.keyed w now count)) := by
  have told (r : ℚ) (l : Option ℚ) : (s.tell (.keyed r l)).desk = (d.keyAt now).tell [.keyed r l] :=
    congrArg (Desk.tell · [.keyed r l]) is
  have quiet : s.transmitting = false := (congrArg Desk.transmitting is).trans waiting.quiet
  unfold keyed
  dsimp only
  generalize now + s.captureLag.lagS + w.keyWaitedS = startsAt
  split
  · rename_i late_
    have late_ := (late_iff _ _).mp late_
    have keys : s.keying.isSome = true := by
      obtain ⟨l, window, -⟩ := late_
      obtain ⟨_, some_, _⟩ := Option.bind_eq_some_iff.mp window
      exact Option.isSome_of_eq_some some_
    have told := told (startsAt + s.radiationLatencyS) (s.keying.bind KeyWindow.notAfter)
    have released := (s.tell (.keyed (startsAt + s.radiationLatencyS) (s.keying.bind KeyWindow.notAfter))).release_desk
    rw [told] at released
    have keeps : ((s.tell (.keyed (startsAt + s.radiationLatencyS) (s.keying.bind KeyWindow.notAfter))).release).2.keying =
      s.keying := rfl
    rcases done_ : (s.tell (.keyed (startsAt + s.radiationLatencyS) (s.keying.bind KeyWindow.notAfter))).release with ⟨result, t⟩
    rw [done_] at released keeps
    cases result with
    | error e =>
      have act := Act.keyStuck d waiting now _ _ obeyed late_
      rw [← released] at act
      exact .single act
    | ok _ =>
      have act := Act.keyLate d waiting ((congrArg Desk.keying is).symm.trans keys) now _ _ obeyed late_
      rw [← released] at act
      refine ReflTransGen.head act ?_
      have keyed : t.keying.isSome = true := (congrArg Option.isSome keeps).trans keys
      have dropped := t.fallSilent.dropKeying_desk now
      have silent : t.fallSilent.desk = t.desk.fallSilent := rfl
      dsimp only at dropped ⊢
      rw [← silent, ← dropped, after_ok, dropLate, if_pos keyed]
      exact pump_acts
  · rename_i inTime
    have act := Act.keyUp d waiting now (startsAt + s.radiationLatencyS) (s.keying.bind KeyWindow.notAfter) obeyed
      (mt (late_iff _ _).mpr inTime)
    refine ReflTransGen.head act ?_
    have up : ((s.tell (.keyed (startsAt + s.radiationLatencyS) (s.keying.bind KeyWindow.notAfter))).keyUp w startsAt).desk =
        ({ d.keyAt now with transmitting := true } : Desk P).tell
          [.keyed (startsAt + s.radiationLatencyS) (s.keying.bind KeyWindow.notAfter)] := by
      have keying (t : Station P) : (t.keyUp w startsAt).desk = { t.desk with transmitting := true } := by
        unfold keyUp desk
        dsimp only
        rw [Option.isSome_map]
      rw [keying, told]
      rfl
    rw [← up, after_ok]
    exact play_acts count rfl

theorem askKey_acts (w : Surroundings) (now : ℚ) (count : Nat) {d : Desk P} (waiting : d.Waiting)
    (is : s.desk = { d with authorized := false }) : Acts d (after (s.askKey w now count)) := by
  have ptt : s.ptt = d.ptt := congrArg Desk.ptt is
  unfold askKey
  rcases asked : s.ptt.key now with ⟨result, ptt'⟩
  rw [ptt] at asked
  have same : (d.ptt.key now).2 = ptt' := congrArg Prod.snd asked
  have begun : ({ s with ptt := ptt' } : Station P).desk = d.keyAt now := by
    unfold Desk.keyAt
    rw [same]
    exact congrArg (fun d => { d with ptt := ptt' }) is
  cases result with
  | error e =>
    have act := Act.keyRefused d waiting now
    rw [← begun] at act
    exact .single act
  | ok done =>
    exact keyed_acts (s := ({ s with ptt := ptt' } : Station P).learnKey w.keyWaitedS) w now count waiting
      (congrArg Prod.fst asked) begun

theorem keyNext_acts (w : Surroundings) (now : ℚ) (count : Nat) (quiet : s.transmitting = false) (sounds : s.playback ≠ []) :
    Acts s.desk (after (s.keyNext w now count)) := by
  unfold keyNext
  split
  · rename_i none_
    exact .single (.unjudged s.desk sounds quiet (by simpa [desk] using none_) rfl)
  · rename_i leave
    exact askKey_acts w now count ⟨sounds, quiet, Bool.not_eq_false _ |>.mp (by simpa [desk] using leave), rfl⟩ rfl

theorem playbackInto_acts (w : Surroundings) (count : Nat) : Acts s.desk (after (s.playbackInto w count)) := by
  unfold playbackInto
  dsimp only
  split
  · rename_i over_
    obtain ⟨silent, on⟩ := (Bool.and_eq_true _ _).mp over_
    split
    · exact .refl
    · have finished := finishTransmission_acts s.now on (List.isEmpty_iff.mp silent)
      rcases is : s.finishTransmission s.now with ⟨result, t⟩
      rw [is] at finished
      cases result <;> exact finished
  · rename_i going
    have started : Acts s.desk (if s.playback.isEmpty then s.startPending w s.now else s).desk := by
      split
      · rename_i silent
        have quiet : s.transmitting = false := by
          rw [silent, Bool.true_and] at going
          exact Bool.not_eq_true _ |>.mp going
        exact startPending_acts w s.now ⟨List.isEmpty_iff.mp silent, quiet, rfl⟩
      · exact .refl
    generalize (if s.playback.isEmpty then s.startPending w s.now else s) = t at started ⊢
    split
    · exact started
    · rename_i sounds
      refine started.trans ?_
      split
      · rename_i on
        exact play_acts count on
      · rename_i off
        have quiet : t.transmitting = false := Bool.not_eq_true _ |>.mp off
        have sounds : t.playback ≠ [] := fun nothing => sounds (List.isEmpty_iff.mpr nothing)
        rcases t.withinWindow_acts s.now quiet with ⟨open_, same⟩ | ⟨shut, acts⟩
        · rcases is : t.withinWindow s.now with ⟨result, u⟩
          rw [is] at open_ same
          obtain rfl : result = true := open_
          obtain rfl : u = t := same
          exact keyNext_acts w s.now count quiet sounds
        · rcases is : t.withinWindow s.now with ⟨result, u⟩
          rw [is] at shut acts
          obtain rfl : result = false := shut
          exact acts

end Station

end AetherHF.Radio
