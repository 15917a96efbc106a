import AetherHF.Link.Callsigns
import AetherHF.Link.Granted.Faces
import AetherHF.Link.Granted.StreamMoves

/-! A timer a station needs stays armed, whatever the engine does with it. -/
namespace AetherHF.Link

/-! ### Deadlines -/

namespace Deadlines

variable {d : Deadlines} {timer other : Timer}

theorem armed_iff : armed d timer = true ↔ ∃ at_, (timer, at_) ∈ d := by
  rw [armed, get?, Option.isSome_map, List.find?_isSome]
  constructor
  · rintro ⟨⟨_, at_⟩, member, is⟩
    exact ⟨at_, of_decide_eq_true is ▸ member⟩
  · rintro ⟨at_, member⟩
    exact ⟨_, member, decide_eq_true rfl⟩

theorem armed_remove (apart : timer ≠ other) : armed (remove d other) timer = armed d timer := by
  rw [Bool.eq_iff_iff, armed_iff, armed_iff]
  refine exists_congr fun at_ => ?_
  rw [remove, List.mem_filter, decide_eq_true_iff]
  exact and_iff_left apart

theorem armed_set_self (at_ : ℚ) : armed (set d timer at_) timer = true := by
  rw [armed_iff, set]
  split
  · rename_i there
    obtain ⟨p, member, is⟩ := List.any_eq_true.mp there
    exact ⟨at_, List.mem_map.mpr ⟨p, member, if_pos (of_decide_eq_true is)⟩⟩
  · exact ⟨at_, List.mem_append_right _ (List.mem_singleton.mpr rfl)⟩

theorem armed_set (at_ : ℚ) (is : armed d timer = true) : armed (set d other at_) timer = true := by
  by_cases same : timer = other
  · subst same
    exact armed_set_self at_
  · obtain ⟨due, member⟩ := armed_iff.mp is
    rw [armed_iff, set]
    split
    · exact ⟨due, List.mem_map.mpr ⟨_, member, if_neg same⟩⟩
    · exact ⟨due, List.mem_append_left _ member⟩

end Deadlines

/-- The ladder has a rung off the floor that carries a call. -/
def PhyTiming.Carries (t : PhyTiming) : Prop := (t.robustIn false).isSome = true

namespace Engine

namespace Face

/-- What a timer is needed for. -/
def needs (f : Face) : Timer → Prop
  | .link => f.state.inSession = true
  | .proceed => f.state.inSession = true ∧ f.role = .master
  | .connect => f.state = .connecting
  | .probe => f.probing.isSome = true
  | .answer | .leave | .ident => False

/-- Every timer needed is armed. -/
def Timed (f : Face) : Prop := ∀ timer, f.needs timer → f.deadlines.armed timer = true

/-- A call or a probe of the station's can be put in a frame. -/
structure Callable (f : Face) : Prop where
  named : f.callsigns ≠ []
  calls : ∀ call ∈ f.callsigns, packs call = true
  mine : packs f.myCall = true
  theirs : f.state = .connecting → packs f.remoteCall = true
  probed : ∀ call ∈ f.probing, packs call = true
  carries : f.timing.Carries

/-- A timer needed is armed, or was needed before and is armed where it was then. -/
structure Waits (f f' : Face) : Prop where
  timers : ∀ timer, f'.needs timer → f'.deadlines.armed timer = true ∨
    f.needs timer ∧ (f.deadlines.armed timer = true → f'.deadlines.armed timer = true)
  callable : f.Callable → f'.Callable

variable {f f' f'' : Face}

theorem Waits.refl (f : Face) : f.Waits f := ⟨fun _ need => .inr ⟨need, id⟩, id⟩

theorem Waits.still (same : f' = f) : f.Waits f' := same ▸ .refl f

theorem Waits.trans (first : f.Waits f') (second : f'.Waits f'') : f.Waits f'' where
  timers timer need := by
    rcases second.timers timer need with armed | ⟨need', stays'⟩
    · exact .inl armed
    · rcases first.timers timer need' with armed | ⟨need, stays⟩
      · exact .inl (stays' armed)
      · exact .inr ⟨need, fun armed => stays' (stays armed)⟩
  callable callable := second.callable (first.callable callable)

theorem Waits.timed (keeps : f.Waits f') (timed : f.Timed) : f'.Timed := by
  intro timer need
  rcases keeps.timers timer need with armed | ⟨before, stays⟩
  · exact armed
  · exact stays (timed timer before)

/-- The deadlines alone change, and none that is needed goes. -/
theorem Waits.deadlines {d : Deadlines}
    (stays : ∀ timer, f.needs timer → f.deadlines.armed timer = true → d.armed timer = true) :
    f.Waits { f with deadlines := d } where
  timers timer need := .inr ⟨need, stays timer need⟩
  callable callable := { callable with }

theorem Waits.arm (f : Face) (timer : Timer) (at_ : ℚ) :
    f.Waits { f with deadlines := f.deadlines.set timer at_ } :=
  .deadlines fun _ _ => Deadlines.armed_set at_

theorem Waits.disarm (f : Face) {timer : Timer} (spare : ¬ f.needs timer) :
    f.Waits { f with deadlines := f.deadlines.remove timer } :=
  .deadlines fun other need armed => by
    have apart : other ≠ timer := by
      rintro rfl
      exact spare need
    rw [Deadlines.armed_remove apart, armed]

/-- Out of its session, a station needs its probe's timer at most. -/
theorem Waits.idle {d : Deadlines} (stays : f.deadlines.armed .probe = true → d.armed .probe = true) :
    f.Waits { f with state := .idle, role := .none, deadlines := d } where
  timers timer need := by
    cases timer with
    | link => cases need
    | proceed => cases need.1
    | connect => cases need
    | probe => exact .inr ⟨need, stays⟩
    | answer => cases need
    | leave => cases need
    | ident => cases need
  callable callable := { callable with theirs := nofun }

end Face

/-- What an engine's timers go by is kept. -/
def Waits (e e' : Engine) : Prop := e.face.Waits e'.face

variable {e e' e'' : Engine}

theorem Waits.refl (e : Engine) : Waits e e := Face.Waits.refl e.face

theorem Waits.still (same : e'.face = e.face) : Waits e e' := Face.Waits.still same

theorem Waits.trans (first : Waits e e') (second : Waits e' e'') : Waits e e'' := Face.Waits.trans first second

variable (e)

/-! ### Keying -/

theorem armWait_waits : Waits e e.armWait := by
  rw [armWait]
  split
  · exact .refl e
  · dsimp only
    split_ifs
    · exact .arm e.face ..
    · exact .arm e.face ..
    · exact .still rfl
    · exact .arm e.face ..
    · exact .still rfl

/-- The master of a session waits for a slot of the session's. -/
theorem armWait_proceed {slot : Slot} (there : e.slot = some slot) (own : slot.kind ≠ .probe)
    (up : e.state.inSession = true) (master : e.role = .master) : e.armWait.deadlines.armed .proceed = true := by
  have begun : ¬ (slot.kind = .connect ∧ e.state = .connecting) := by
    rintro ⟨-, out⟩
    rw [out] at up
    cases up
  rw [armWait, there]
  dsimp only
  rw [if_neg begun, if_neg own, if_pos ⟨master, up⟩]
  exact Deadlines.armed_set_self _

/-- A transmission keyed waits for the slot it grants. -/
theorem keyGranting_armWait (slot : Slot) (frames : List TxFrame) :
    ∃ e' slot', e.keyGranting slot frames = armWait e' ∧ e'.face = e.face ∧ e'.calling = e.calling ∧
      e'.slot = some slot' ∧ slot'.kind = slot.kind := by
  unfold keyGranting openSlot
  exact ⟨_, _, rfl, rfl, rfl, rfl, rfl⟩

theorem keyGranting_waits (slot : Slot) (frames : List TxFrame) : Waits e (e.keyGranting slot frames) := by
  obtain ⟨e', _, is, same, -⟩ := e.keyGranting_armWait slot frames
  rw [is]
  exact (Waits.still same).trans e'.armWait_waits

end Engine

end AetherHF.Link
