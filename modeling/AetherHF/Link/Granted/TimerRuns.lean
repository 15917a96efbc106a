import AetherHF.Link.Granted.StreamHandle
import AetherHF.Link.Granted.TimerSlots

/-! Over every run, no state of a station is without the timer that moves it on: a session's
closes it, a master's keys again, a call's tries again, a probe's gives it up. -/
namespace AetherHF.Link.Engine

variable (e : Engine)

/-! ### Calls -/

namespace Face

/-- As `Waits`, some timers apart. -/
structure WaitsBut (but : Timer → Prop) (f f' : Face) : Prop where
  timers : ∀ timer, ¬ but timer → f'.needs timer →
    f.needs timer ∧ (f.deadlines.armed timer = true → f'.deadlines.armed timer = true)
  callable : f.Callable → f'.Callable

variable {but : Timer → Prop} {f f' f'' : Face}

/-- The timers set apart are armed in the end. -/
theorem WaitsBut.trans (first : f.WaitsBut but f') (second : f'.Waits f'')
    (armed : ∀ timer, but timer → f''.needs timer → f''.deadlines.armed timer = true) : f.Waits f'' where
  timers timer need := by
    by_cases apart : but timer
    · exact .inl (armed timer apart need)
    · rcases second.timers timer need with there | ⟨need', stays'⟩
      · exact .inl there
      · obtain ⟨need, stays⟩ := first.timers timer apart need'
        exact .inr ⟨need, fun armed => stays' (stays armed)⟩
  callable callable := second.callable (first.callable callable)

/-- What is set apart first and not needed after is not missed. -/
theorem WaitsBut.chain {but' : Timer → Prop} (first : f.WaitsBut but f') (second : f'.WaitsBut but' f'')
    (unneeded : ∀ timer, but timer → ¬ f''.needs timer) : f.WaitsBut but' f'' where
  timers timer apart need := by
    obtain ⟨need', stays'⟩ := second.timers timer apart need
    obtain ⟨before, stays⟩ := first.timers timer (fun is => unneeded timer is need) need'
    exact ⟨before, fun armed => stays' (stays armed)⟩
  callable callable := second.callable (first.callable callable)

/-- A timer armed and needed in the end is armed in the end. -/
theorem Waits.stays (waits : f.Waits f') {timer : Timer} (armed : f.deadlines.armed timer = true)
    (need : f'.needs timer) : f'.deadlines.armed timer = true := by
  rcases waits.timers timer need with there | ⟨-, stays⟩
  · exact there
  · exact stays armed

theorem Waits.named {call : Text} (packed : f.Callable → packs call = true) : f.Waits { f with myCall := call } where
  timers timer need := .inr ⟨by cases timer <;> exact need, id⟩
  callable callable := { callable with mine := packed callable }

/-- A call begun: its own timer apart, a probe's is all it needs. -/
theorem WaitsBut.calling {remote : Text} {d : Deadlines} (packed : packs remote = true)
    (probe : f.deadlines.armed .probe = true → d.armed .probe = true) :
    f.WaitsBut (· = .connect) { f with remoteCall := remote, state := .connecting, role := .none, deadlines := d } where
  timers timer apart need := by
    cases timer with
    | link => cases need
    | proceed => cases need.1
    | connect => exact absurd rfl apart
    | probe => exact ⟨need, probe⟩
    | answer => cases need
    | leave => cases need
    | ident => cases need
  callable callable := { callable with theirs := fun _ => packed }

/-- A probe asked for. -/
theorem WaitsBut.probing {remote : Text} {d : Deadlines} (packed : packs remote = true)
    (stays : ∀ timer, f.deadlines.armed timer = true → d.armed timer = true) :
    f.WaitsBut (· = .probe) { f with probing := some remote, deadlines := d } where
  timers timer apart need := by
    refine ⟨?_, stays timer⟩
    cases timer with
    | probe => exact absurd rfl apart
    | link => exact need
    | proceed => exact need
    | connect => exact need
    | answer => exact need
    | leave => exact need
    | ident => exact need
  callable callable := { callable with
    probed := by
      rintro call ⟨⟩
      exact packed }

/-- A session up: as its slave, the link's timer apart. -/
theorem WaitsBut.called {mine theirs : Text} {d : Deadlines} (packed : f.Callable → packs mine = true)
    (probe : f.deadlines.armed .probe = true → d.armed .probe = true) :
    f.WaitsBut (· = .link)
      { f with myCall := mine, remoteCall := theirs, state := .connected, role := .slave, deadlines := d } where
  timers timer apart need := by
    cases timer with
    | link => exact absurd rfl apart
    | proceed => cases need.2
    | connect => cases need
    | probe => exact ⟨need, probe⟩
    | answer => cases need
    | leave => cases need
    | ident => cases need
  callable callable := { callable with
    mine := packed callable
    theirs := nofun }

/-- As its master, its own timer apart too. -/
theorem WaitsBut.accepted {d : Deadlines} (probe : f.deadlines.armed .probe = true → d.armed .probe = true) :
    f.WaitsBut (fun timer => timer = .link ∨ timer = .proceed)
      { f with state := .connected, role := .master, deadlines := d } where
  timers timer apart need := by
    cases timer with
    | link => exact absurd (.inl rfl) apart
    | proceed => exact absurd (.inr rfl) apart
    | connect => cases need
    | probe => exact ⟨need, probe⟩
    | answer => cases need
    | leave => cases need
    | ident => cases need
  callable callable := { callable with theirs := nofun }

theorem WaitsBut.disarm (f : Face) (timer : Timer) :
    f.WaitsBut (· = timer) { f with deadlines := f.deadlines.remove timer } where
  timers other apart need :=
    ⟨by cases other <;> exact need, fun armed => (Deadlines.armed_remove apart).trans armed⟩
  callable callable := { callable with }

end Face

section

variable [Libm]

/-- The slot of a call's last try has not been given up. -/
def CallOut (e : Engine) : Prop := ∃ slot, e.slot = some slot ∧ slot.kind ≠ .probe

end

/-! ### Runs -/

/-- What a call asks of the run: an acceptance finds its call's slot, an air carries a call. -/
def Fits [Libm] (e : Engine) : Input → Prop
  | .frame soft now => e.state = .connecting → (e.onFrame soft now).role = .master → e.CallOut
  | .setAir timing _ _ | .moveCall timing _ _ => timing.Carries
  | _ => True

end AetherHF.Link.Engine
