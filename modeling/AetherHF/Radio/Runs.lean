import AetherHF.Radio.Acts

/-! What is heard, what clients ask, and giving up, as acts; and so every run of a station. -/
namespace AetherHF.Radio

open Relation (ReflTransGen)

variable {P : Type} {s : Station P}

namespace Station

section
variable [Libm]

/-! ### Hearing -/

theorem arrive_desk (now : ℚ) (arrival : Arrival) : (s.arrive now arrival).desk = s.desk := by
  cases arrival with
  | datagram payload snrDb rung =>
    unfold arrive heardDatagramPiece
    dsimp only
    split
    · rfl
    · rename_i fragment read
      dsimp only
      cases (s.datagrams.reassembler.add fragment now).1.bind Link.Datagram.parseBody <;> rfl
  | _ => rfl

theorem arriveAll_desk (arrivals : List Arrival) (now : ℚ) :
    (arrivals.foldl (fun (s : Station P) arrival => s.arrive now arrival) s).desk = s.desk := by
  induction arrivals generalizing s with
  | nil => rfl
  | cons arrival rest ih => exact ih.trans (arrive_desk now arrival)

variable [Ptt P]

theorem absorb_acts (arrivals : List Arrival) (now : ℚ) : Acts s.desk (s.absorb arrivals now).desk ∧
    (s.absorb arrivals now).transmitting = s.transmitting ∧ (s.absorb arrivals now).playback = s.playback := by
  have same := s.arriveAll_desk arrivals now
  unfold absorb
  generalize arrivals.foldl (fun (s : Station P) arrival => s.arrive now arrival) s = t at same ⊢
  exact ⟨same ▸ pump_acts, t.pump_frame.1.trans (congrArg Desk.transmitting same),
    t.pump_frame.2.trans (congrArg Desk.playback same)⟩

theorem hear_acts (block : Block) (now : ℚ) : Acts s.desk (after (s.hear block now)) := by
  unfold hear
  dsimp only
  split
  · exact (absorb_acts block.before now).1
  · rename_i ends
    simp only [Bool.or_eq_true, Bool.not_eq_true', not_or, Bool.not_eq_false, decide_eq_true_eq, List.isEmpty_iff] at ends
    obtain ⟨⟨on, -⟩, silent⟩ := ends
    generalize now - (s.capturedAfterTransmission block.samples block.baseband : ℚ) / s.config.fsBaseband = ended
    obtain ⟨acts, transmitting, playback⟩ := s.absorb_acts block.before ended
    generalize s.absorb block.before ended = t at acts transmitting playback ⊢
    have finished := finishTransmission_acts (s := t) ended (transmitting.trans on) (playback.trans silent)
    rcases is : t.finishTransmission ended with ⟨result, u⟩
    rw [is] at finished
    refine acts.trans ?_
    cases result with
    | error e => exact finished
    | ok done => exact finished.trans (absorb_acts block.after now).1

end

variable [Ptt P]

theorem poll_same {w w' : PttWatchdog P} {now : ℚ} {state : WatchdogState} (polled : w.poll now = (.ok state, w'))
    (held : state ≠ .tripped) : w' = w := by
  unfold PttWatchdog.poll at polled
  split at polled
  · exact (congrArg Prod.snd polled).symm
  · split at polled
    · exact (congrArg Prod.snd polled).symm
    · dsimp only at polled
      have state_ : (Ptt.unkey w.inner).1.map (fun _ => WatchdogState.tripped) = .ok state := congrArg Prod.fst polled
      cases released : (Ptt.unkey w.inner).1 <;> rw [released] at state_
      · cases state_
      · exact absurd (Except.ok.inj state_).symm held

theorem trip_after (now : ℚ) : ∃ outcome, after (s.trip now) =
    ({ ((s.desk.tell [.tripped s.desk.playingTest (s.desk.onAir.isSome || s.desk.pending.any Outgoing.isDatagram)]).fallSilent.answer
        outcome).dropLinks with pending := [], transmitting := false } : Desk P).letGo := by
  have silent (s : Station P) : ∃ outcome, ((s.fallSilent.cutKeying now).dropLinkPending now).desk =
      (s.desk.fallSilent.answer outcome).dropLinks := by
    obtain ⟨outcome, cut⟩ := s.fallSilent.cutKeying_desk now
    exact ⟨outcome, ((s.fallSilent.cutKeying now).dropLinkPending_desk now).trans (congrArg Desk.dropLinks cut)⟩
  obtain ⟨outcome, dropped⟩ := silent (s.tell (.tripped s.playingTest (s.datagrams.onAir.isSome || s.pending.any Outgoing.isDatagram)))
  exact ⟨outcome, congrArg (fun d : Desk P => Desk.letGo { d with pending := [], transmitting := false }) dropped⟩

theorem pollKey_acts (now : ℚ) : Acts s.desk (after (s.pollKey now)) := by
  unfold pollKey
  rcases polled : s.ptt.poll now with ⟨result, ptt⟩
  have same : (s.desk.ptt.poll now).2 = ptt := congrArg Prod.snd polled
  have plain (state : WatchdogState) (is : result = .ok state) (held : state ≠ .tripped) :
      Acts s.desk (after ((.ok (), { s with ptt }) : Except PttError Unit × Station P)) := by
    subst is
    obtain rfl : ptt = s.ptt := poll_same polled held
    exact .refl
  cases result with
  | error e =>
    have act := Act.pollStuck s.desk now
    rw [same] at act
    exact .single act
  | ok state =>
    cases state with
    | idle => exact plain .idle rfl nofun
    | keyed => exact plain .keyed rfl nofun
    | tripped =>
      obtain ⟨outcome, gone⟩ := trip_after (s := ({ s with ptt } : Station P).tell (.released true)) now
      have act := Act.trip s.desk now outcome
      unfold Desk.trip at act
      rw [same] at act
      exact .single (gone ▸ act)

theorem advanceIdentifier_acts (w : Surroundings) (now : ℚ) : Acts s.desk (s.advanceIdentifier w now).desk := by
  unfold advanceIdentifier
  split
  · exact .refl
  · split
    · exact .refl
    · split
      · exact .refl
      · exact .single (.put s.desk .identifier rfl)

theorem capture_acts [Libm] (w : Surroundings) (block : Block) : Acts s.desk (after (s.capture w block)) := by
  unfold capture
  dsimp only
  generalize is : ({ s with audioSeen := s.audioSeen + block.samples } : Station P) = t
  have begun : t.desk = s.desk := is ▸ rfl
  have heard := t.hear_acts block t.now
  rw [begun] at heard
  rcases is : t.hear block t.now with ⟨result, u⟩
  rw [is] at heard
  cases result with
  | error e => exact heard
  | ok done =>
    dsimp only
    refine heard.trans ?_
    generalize is : ({ u with
      reservation := u.reservation.channel t.now w.busy, engine := u.engine.tick t.now } : Station P) = v
    have ticked : v.desk = u.desk := is ▸ rfl
    have polled := v.pollKey_acts t.now
    rw [ticked] at polled
    rcases is : v.pollKey t.now with ⟨result, x⟩
    rw [is] at polled
    cases result with
    | error e => exact polled
    | ok done => exact polled.trans (pump_acts.trans (advanceIdentifier_acts w t.now))

/-! ### Giving up -/

theorem cardDroppedLate_acts : Acts s.desk (after s.cardDroppedLate) := by
  unfold cardDroppedLate
  split
  · exact .refl
  · rename_i on
    dsimp only
    have on : s.transmitting = true := by simpa using on
    have dropped := (s.tell (.cardDropped s.datagrams.onAir.isSome)).dropKeying_desk s.now
    generalize (s.tell (.cardDropped s.datagrams.onAir.isSome)).dropKeying s.now = t at dropped
    generalize is : (({ t with
      playback := []
      clock := { t.clock with cutShort := false, onset := none, guard_ := none }
      transmitting := false
      playingTest := false } : Station P).deafTail s.now) = u
    have given : u.desk = { t.desk with playback := [], transmitting := false, playingTest := false } := is ▸ rfl
    have whole : u.desk.letGo = s.desk.cardDrop := by
      rw [given, dropped]
      rfl
    have act := Act.cardDrop s.desk on
    rw [← whole, ← after_release] at act
    refine ReflTransGen.head act ?_
    exact pump_failed (s := u.release.2) _

theorem abort_acts : Acts s.desk s.abort.desk := by
  unfold abort
  dsimp only
  have first : Acts s.desk (if s.transmitting && !s.playingTest then (s.fallSilent.flushed true).cutKeying s.now
      else if s.keying.isSome && !s.transmitting && !s.playback.isEmpty then s.discardWaitingLink else s).desk.dropLinks := by
    split
    · rename_i going
      simp only [Bool.and_eq_true, Bool.not_eq_true'] at going
      obtain ⟨outcome, cut⟩ := (s.fallSilent.flushed true).cutKeying_desk s.now
      rw [cut]
      exact .single (.cut s.desk going.1 going.2 outcome)
    · rename_i free
      split
      · rename_i waits
        simp only [Bool.and_eq_true, Bool.not_eq_true'] at waits
        have dropped : s.discardWaitingLink.desk = s.desk.fallSilent.answer .dropped := dropKeying_desk ..
        rw [dropped]
        refine ReflTransGen.head (.discard s.desk waits.1.2 waits.1.1) (.single (.dropLinks _ (.inl ?_)))
        unfold Desk.answer
        split <;> exact ⟨rfl, waits.1.2, rfl⟩
      · rename_i rests
        refine .single (.dropLinks _ ?_)
        rcases on : s.transmitting with _ | _
        · rcases keys : s.keying.isSome with _ | _
          · exact .inr (.inl keys)
          · rw [keys, on] at rests
            have silent : s.playback = [] := by simpa using rests
            exact .inl ⟨silent, on, rfl⟩
        · rw [on] at free
          have test : s.playingTest = true := by simpa using free
          exact .inr (.inr ⟨on, test⟩)
  generalize (if s.transmitting && !s.playingTest then (s.fallSilent.flushed true).cutKeying s.now
    else if s.keying.isSome && !s.transmitting && !s.playback.isEmpty then s.discardWaitingLink else s) = t at first ⊢
  rw [← t.dropLinkPending_desk t.now] at first
  generalize t.dropLinkPending t.now = u at first ⊢
  refine (first.trans ?_).trans pump_acts
  refine .single (.prune u.desk _ ?_)
  intro next _ other
  cases next with
  | frames frames => cases other
  | _ => rfl

/-! ### What clients ask -/

theorem put_acts (next : Outgoing) (own : next.own = true) : Acts s.desk (s.put next).desk := .single (.put s.desk next own)

theorem beacon_acts (frame : Link.TxFrame) : Acts s.desk (s.beacon frame).desk := by
  unfold beacon
  split
  · exact .refl
  · exact put_acts _ rfl

theorem keyTest_acts (seconds : ℚ) : Acts s.desk (s.keyTest seconds).desk := by
  unfold keyTest
  split
  · exact .refl
  · exact put_acts _ rfl

theorem tune_acts (w : Surroundings) (seconds : ℚ) (samples : List ℚ) : Acts s.desk (s.tune w seconds samples).desk := by
  unfold tune
  split
  · exact .refl
  · exact put_acts _ rfl

theorem driveBursts_own (burst : List Link.TxFrame) (count : Nat) : ∀ next ∈ driveBursts burst count, next.own = true := by
  induction count using driveBursts.induct with
  | case1 => exact fun next member => nomatch member
  | case2 =>
    intro next member
    obtain rfl := List.mem_singleton.mp member
    rfl
  | case3 n ih =>
    intro next member
    rcases List.mem_cons.mp member with rfl | member
    · rfl
    · rcases List.mem_cons.mp member with rfl | member
      · rfl
      · exact ih next member

theorem setDrive_acts (w : Surroundings) (bursts perBurst : Nat) (frame : Link.TxFrame) :
    Acts s.desk (s.setDrive w bursts perBurst frame).desk := by
  have all (queued : List Outgoing) (own : ∀ next ∈ queued, next.own = true) (s : Station P) :
      Acts s.desk (queued.foldl (fun (s : Station P) next => s.put next) s).desk := by
    induction queued generalizing s with
    | nil => exact .refl
    | cons next rest ih =>
      exact (put_acts next (own next List.mem_cons_self)).trans
        (ih (fun other member => own other (List.mem_cons_of_mem _ member)) (s.put next))
  unfold setDrive
  split
  · exact .refl
  · exact all _ (driveBursts_own _ _) s

theorem tuneStop_acts : Acts s.desk s.tuneStop.desk := by
  unfold tuneStop
  dsimp only
  refine ReflTransGen.head (.prune s.desk (fun next => !operatorTest next) ?_) ?_
  · intro next _ other
    cases next with
    | audio samples silent tone => cases other
    | drive frames => cases other
    | pause seconds untilS => cases other
    | _ => rfl
  · split
    · rename_i test
      exact .single (.stopTest _ test)
    · exact .refl

omit [Ptt P] in
theorem chunks_ne {α : Type} {size : Nat} (positive : 0 < size) {xs : List α} (some_ : xs ≠ []) : chunks size xs ≠ [] := by
  have length : 0 < xs.length := List.length_pos_iff.mpr some_
  unfold chunks
  intro nothing
  have count := List.range_eq_nil.mp (List.map_eq_nil_iff.mp nothing)
  have := (Nat.div_eq_zero_iff.mp count).resolve_left positive.ne'
  omega

omit [Ptt P] in
theorem burstsOf_ne {carried : Bytes} {number : UInt8} {rung count : Nat} {bursts : List (List Link.TxFrame)}
    (cut : s.burstsOf carried number rung = .ok (bursts, count)) : bursts ≠ [] := by
  unfold burstsOf at cut
  split at cut
  · cases cut
  · rename_i pieces fragmented
    obtain rfl := (Prod.mk.inj (Except.ok.inj cut)).1
    refine chunks_ne (by omega) fun nothing => ?_
    obtain rfl := List.map_eq_nil_iff.mp nothing
    obtain ⟨pieces, -, -, some_, -, -, each⟩ := Link.Datagram.fragments_ok fragmented
    cases pieces with
    | nil => exact some_ rfl
    | cons piece rest => cases each

theorem sendDatagram_acts (request : DatagramRequest) : Acts s.desk (s.sendDatagram request).2.desk := by
  unfold sendDatagram
  dsimp only
  split
  · exact .refl
  · split
    · exact .refl
    · split
      · exact .refl
      · split
        · exact .refl
        · split
          · exact .refl
          · split
            · exact .refl
            · rename_i bursts count cut
              have act := Act.accept s.desk (⟨request.reference, bursts, request.waitForClear,
                max (1 / 20) (min request.persistence 1), max (1 / 50) (min request.slotS 2)⟩ : QueuedDatagram) (burstsOf_ne cut)
              refine ReflTransGen.head act ?_
              cases request.reference with
              | none =>
                unfold Desk.accept Desk.tell
                dsimp only [Option.map, Option.toList]
                rw [List.append_nil]
                exact .refl
              | some reference => exact .refl

/-! ### Steps and runs -/

omit [Ptt P] in
theorem readClock_desk (played : Nat) (latency : Option ℚ) : (s.readClock played latency).desk = s.desk := by
  unfold readClock
  dsimp only
  cases latency with
  | none => rfl
  | some seconds =>
    dsimp only
    split <;> rfl

theorem renders_acts (w : Surroundings) (took : Nat) : Acts s.desk (s.renders w took).desk := by
  have started : Acts s.desk (s.renderPending w).2.desk := by
    unfold renderPending
    split
    · exact .refl
    · rename_i rests
      simp only [Bool.or_eq_true, Bool.not_eq_true', not_or, Bool.not_eq_true, Bool.not_eq_false, List.isEmpty_iff] at rests
      exact startPending_acts w s.now ⟨rests.2, rests.1, rfl⟩
  unfold renders
  rcases is : s.renderPending w with ⟨link, t⟩
  rw [is] at started
  dsimp only
  split <;> exact started

variable [Libm]

theorem step_acts (step : Step) : Acts s.desk (s.step step).desk := by
  cases step with
  | call input asked =>
    unfold Station.step
    dsimp only
    split
    · exact .refl
    · exact pump_acts (s := { s with engine := s.engine.handle input })
  | abort => exact abort_acts
  | beacon frame => exact beacon_acts frame
  | keyTest seconds => exact keyTest_acts seconds
  | tune w seconds samples => exact tune_acts w seconds samples
  | setDrive w bursts perBurst frame => exact setDrive_acts w bursts perBurst frame
  | tuneStop => exact tuneStop_acts
  | sendDatagram request => exact sendDatagram_acts request
  | clearDatagrams reason =>
    have cleared := s.clearDatagrams_desk reason
    exact .single (cleared ▸ .clear s.desk)
  | takeReports => exact .refl
  | configure config policy occupancy => exact .refl
  | readCard played latency droppedLate =>
    have read := s.readClock_desk played latency
    unfold Station.step
    dsimp only
    generalize s.readClock played latency = t at read ⊢
    rw [← read]
    split
    · exact orAbandon_acts cardDroppedLate_acts
    · exact .refl
  | skip samples => exact .refl
  | capture w block => exact orAbandon_acts (capture_acts w block)
  | stall => exact abandonTx_acts false
  | takeFlush => exact .refl
  | renderPending w took => exact renders_acts w took
  | playback w count => exact orAbandon_acts (playbackInto_acts w count)
  | drainsAt at_ => exact .refl

/-- Every run of a station is acts on its desk. -/
theorem run_acts (steps : List Step) : Acts s.desk (s.run steps).desk := by
  induction steps generalizing s with
  | nil => exact .refl
  | cons step rest ih => exact (step_acts step).trans ih

end Station

end AetherHF.Radio
