import AetherHF.Radio.Aired

/-! The key is down for what is on the air, for nothing else, and not to its limit. -/
namespace AetherHF.Radio

variable {P : Type}

section
variable [Ptt P] {d d' : Desk P}

/-- The key is down for what is on the air, and for nothing else. -/
def Desk.KeyDown (d : Desk P) : Prop := d.failed = false → d.transmitting = d.ptt.isKeyed

theorem PttWatchdog.isKeyed_key {w : PttWatchdog P} {now : ℚ} (obeyed : (w.key now).1 = .ok ()) : (w.key now).2.isKeyed = true := by
  unfold PttWatchdog.key at obeyed ⊢
  split at obeyed
  · cases obeyed
  · rename_i armed
    rw [if_neg armed]
    split at obeyed
    · rename_i keyed
      rw [if_pos keyed]
      exact keyed
    · rename_i released
      rw [if_neg released]
      split at obeyed
      · cases obeyed
      · rfl

omit [Ptt P] in
theorem Desk.Aside.keyDown (aside : d.Aside d') (down : d.KeyDown) : d'.KeyDown := by
  intro well
  rw [aside.transmitting, aside.ptt]
  exact down (aside.failed ▸ well)

/-- Each act leaves the key to what is on the air. -/
theorem Act.keyDown (act : Act d d') (down : d.KeyDown) : d'.KeyDown := by
  have same (frame : d'.transmitting = d.transmitting) (failed : d'.failed = d.failed) (ptt : d'.ptt = d.ptt) : d'.KeyDown := by
    intro well
    rw [frame, ptt]
    exact down (failed ▸ well)
  cases act with
  | hand | put | prune | await | resume | refuse | refuseLink | render | unrendered | unrenderedLink | play | unjudged | stopTest =>
    exact same rfl rfl rfl
  | refuseDatagram resting head => exact (Desk.reports_refuseBurst _ _ _).aside.keyDown down
  | dropLinks free => exact d.aside_dropLinks.keyDown down
  | keyUp waiting now radiatesAt latest obeyed inTime => exact fun _ => (PttWatchdog.isKeyed_key obeyed).symm
  | keyLate waiting keys now radiatesAt latest obeyed late_ => exact (Desk.aside_answer _ _).keyDown fun _ => waiting.quiet
  | keyStuck | keyRefused | pollStuck => exact nofun
  | finish on silent sent => exact (Desk.aside_answer _ _).keyDown ((Desk.reports_land _ sent).aside.keyDown fun _ => rfl)
  | finishStuck on silent => exact nofun
  | cut on test outcome =>
    exact (Desk.aside_dropLinks _).keyDown ((Desk.aside_answer _ outcome).keyDown down)
  | discard quiet keys => exact (Desk.aside_answer _ .dropped).keyDown down
  | trip now outcome =>
    obtain ⟨middle, is, -, quiet, -⟩ := d.trip_said now outcome
    rw [is]
    exact fun _ => quiet
  | cardDrop on =>
    obtain ⟨middle, is, -, quiet, -⟩ := d.cardDrop_said
    rw [is]
    exact fun _ => quiet
  | abandon outcome =>
    obtain ⟨middle, is, -, quiet, -⟩ := Desk.abandon_said { d with failed := false } outcome
    rw [is]
    exact fun _ => quiet
  | accept datagram bursts => exact (d.aside_accept datagram).keyDown down
  | feed resting empty queued => exact (d.aside_feed _ _).keyDown down
  | clear => exact d.aside_clear.keyDown down

theorem PttWatchdog.key_limit {w : PttWatchdog P} (now : ℚ) : (w.key now).2.maxKeyS = w.maxKeyS := by
  unfold PttWatchdog.key
  split
  · rfl
  · split
    · rfl
    · split <;> rfl

theorem PttWatchdog.poll_limit {w : PttWatchdog P} (now : ℚ) : (w.poll now).2.maxKeyS = w.maxKeyS := by
  unfold PttWatchdog.poll
  split
  · rfl
  · split <;> rfl

/-- What an act does to the watchdog: nothing, or it is asked to key, polled, or told to release. -/
theorem Act.watchdog (act : Act d d') : d'.ptt = d.ptt ∨ (∃ now, d'.ptt = (d.ptt.key now).2) ∨
    (∃ now, d'.ptt = (d.ptt.poll now).2) ∨ ∃ w : PttWatchdog P, d'.ptt = w.unkey.2 ∧ w.maxKeyS = d.ptt.maxKeyS := by
  cases act with
  | hand | put | prune | await | resume | refuse | refuseLink | dropLinks | render | unrendered | unrenderedLink | play | unjudged |
      stopTest =>
    exact .inl rfl
  | refuseDatagram resting head => exact .inl (Desk.reports_refuseBurst _ _ _).aside.ptt
  | keyUp waiting now radiatesAt latest obeyed inTime => exact .inr (.inl ⟨now, rfl⟩)
  | keyLate waiting keys now radiatesAt latest obeyed late_ =>
    exact .inr (.inr (.inr ⟨(d.ptt.key now).2, (Desk.aside_answer _ _).ptt, PttWatchdog.key_limit now⟩))
  | keyStuck waiting now radiatesAt latest obeyed late_ =>
    exact .inr (.inr (.inr ⟨(d.ptt.key now).2, rfl, PttWatchdog.key_limit now⟩))
  | keyRefused waiting now => exact .inr (.inl ⟨now, rfl⟩)
  | finish on silent sent =>
    exact .inr (.inr (.inr ⟨d.ptt, ((Desk.reports_land d.finished.release sent).aside.trans (Desk.aside_answer _ _)).ptt, rfl⟩))
  | finishStuck on silent => exact .inr (.inr (.inr ⟨d.ptt, rfl, rfl⟩))
  | cut on test outcome => exact .inl ((Desk.aside_answer d.fallSilent outcome).trans (Desk.aside_dropLinks _)).ptt
  | discard quiet keys => exact .inl (Desk.aside_answer d.fallSilent .dropped).ptt
  | pollStuck now => exact .inr (.inr (.inl ⟨now, rfl⟩))
  | trip now outcome =>
    obtain ⟨middle, is, -, -, -, ptt⟩ := d.trip_said now outcome
    exact .inr (.inr (.inr ⟨middle.ptt, congrArg Desk.ptt is, ptt ▸ PttWatchdog.poll_limit now⟩))
  | cardDrop on =>
    obtain ⟨middle, is, -, -, -, ptt⟩ := d.cardDrop_said
    exact .inr (.inr (.inr ⟨middle.ptt, congrArg Desk.ptt is, congrArg _ ptt⟩))
  | abandon outcome =>
    obtain ⟨middle, is, -, -, -, ptt⟩ := Desk.abandon_said { d with failed := false } outcome
    exact .inr (.inr (.inr ⟨middle.ptt, congrArg Desk.ptt is, congrArg _ ptt⟩))
  | accept datagram bursts => exact .inl (d.aside_accept datagram).ptt
  | feed resting empty queued => exact .inl (d.aside_feed _ _).ptt
  | clear => exact .inl d.aside_clear.ptt

/-- Watched, each act keeps the account of what the radio was told. -/
theorem Act.faithful {d d' : Desk (Watched P)} (act : Act d d') (faithful : d.ptt.Faithful) : d'.ptt.Faithful := by
  rcases act.watchdog with same | ⟨now, is⟩ | ⟨now, is⟩ | ⟨w, is, -⟩
  · exact same ▸ faithful
  · exact is ▸ faithful.key now
  · exact is ▸ faithful.poll now
  · exact is ▸ PttWatchdog.Faithful.unkey

/-- Each act leaves the limit as it is. -/
theorem Act.limit (act : Act d d') : d'.ptt.maxKeyS = d.ptt.maxKeyS := by
  rcases act.watchdog with same | ⟨now, is⟩ | ⟨now, is⟩ | ⟨w, is, limit⟩
  · rw [same]
  · rw [is, PttWatchdog.key_limit]
  · rw [is, PttWatchdog.poll_limit]
  · rw [is]
    exact limit

/-! ### The watchdog -/

/-- By the watchdog's clock at `now`, the key is up or has been down for less than its limit. -/
def PttWatchdog.Within (w : PttWatchdog P) (now : ℚ) : Prop := ∀ since ∈ w.keyedSince, now - since < w.maxKeyS

omit [Ptt P] in
theorem PttWatchdog.Within.up {w : PttWatchdog P} {now : ℚ} (up : w.keyedSince = none) : w.Within now := by
  intro since down
  rw [up] at down
  cases down

namespace Station

variable {s : Station P}

omit [Ptt P] in
theorem pump_ptt : s.pump.ptt = s.ptt := by
  have all (actions : List Link.Action) (s : Station P) : (actions.foldl takeAction s).ptt = s.ptt := by
    induction actions generalizing s with
    | nil => rfl
    | cons action rest ih =>
      refine (ih _).trans ?_
      cases action with
      | event event => cases event <;> rfl
      | _ => rfl
  exact all _ { s with engine := s.engine.drain.2 }

theorem abandonTx_up : s.abandonTx.2.ptt.keyedSince = none := congrArg PttWatchdog.keyedSince pump_ptt

theorem orAbandon_within {α : Type} {now : ℚ} {r : Except PttError α × Station P} (held : r.2.ptt.Within now) :
    (orAbandon r).ptt.Within now := by
  rcases r with ⟨result, t⟩
  cases result with
  | ok a => exact held
  | error e => exact .up abandonTx_up

end Station

end

/-! ### Runs -/

section
variable [Ptt P] [Libm] (config : StationConfig) (engine : Link.Engine) (ptt : P) (policy : Regulatory.Policy)
  (occupancy : Option Regulatory.AirOccupancy) (seed : UInt64)

/-- Whatever a station is told and hears, it transmits while its watchdog holds the key down and at
no other time; the last thing the radio was told is then to key, and it did. -/
theorem Station.key_down_on_air (steps : List Step) :
    let s := (Station.new config engine (⟨ptt, []⟩ : Watched P) policy occupancy seed).run steps
    s.transmitting = s.ptt.isKeyed ∧ (s.transmitting = true → s.ptt.inner.told.getLast? = some (true, true)) := by
  intro s
  have acts := Station.run_acts (s := Station.new config engine (⟨ptt, []⟩ : Watched P) policy occupancy seed) steps
  have down := Acts.keep (fun _ _ => Act.keyDown) acts (fun _ => rfl) rfl
  exact ⟨down, fun on => Acts.keep (fun _ _ => Act.faithful) acts (fun keyed => by cases keyed) (down.symm.trans on)⟩

end

end AetherHF.Radio
