import AetherHF.Link.Granted.Timers

/-! The timers a session's two stations need, through what each does in its slots. -/
namespace AetherHF.Link.Engine

variable (e : Engine)

/-- A session that closes needs what it needed. -/
theorem Face.Waits.closing {f : Face} (up : f.state.inSession = true) : f.Waits { f with state := .disconnecting } where
  timers timer need := by
    cases timer with
    | link => exact .inr ⟨up, id⟩
    | proceed => exact .inr ⟨⟨up, need.2⟩, id⟩
    | connect => cases need
    | probe => exact .inr ⟨need, id⟩
    | answer => cases need
    | leave => cases need
    | ident => cases need
  callable callable := { callable with theirs := nofun }

/-! ### The master -/

theorem keyGranting_proceed {slot : Slot} (own : slot.kind ≠ .probe) (frames : List TxFrame)
    (up : e.state.inSession = true) (master : e.role = .master) :
    (e.keyGranting slot frames).deadlines.armed .proceed = true := by
  obtain ⟨e', slot', is, same, -, there, kind⟩ := e.keyGranting_armWait slot frames
  have up' : e'.state.inSession = true := (congrArg (fun f => f.state.inSession) same).trans up
  have master' : e'.role = .master := (congrArg Face.role same).trans master
  rw [is]
  exact e'.armWait_proceed there (kind ▸ own) up' master'

/-- A master keys again, and waits for the slot that grants, unless its session is over. -/
def Again (e e' : Engine) : Prop :=
  Waits e e' ∧ (e'.face.needs .proceed → e'.deadlines.armed .proceed = true)

variable {e} in
theorem Again.ended {e' : Engine} (waits : Waits e e') (idle : e'.state = .idle) : Again e e' := by
  refine ⟨waits, ?_⟩
  rintro ⟨up, -⟩
  rw [show e'.face.state = .idle from idle] at up
  cases up

variable {e} in
theorem Again.keyed {e' : Engine} {slot : Slot} {frames : List TxFrame} (same : e'.face = e.face) (own : slot.kind ≠ .probe)
    (up : e.state.inSession = true) (master : e.role = .master) : Again e (e'.keyGranting slot frames) := by
  refine ⟨(Waits.still same).trans (e'.keyGranting_waits slot frames), fun _ => ?_⟩
  refine e'.keyGranting_proceed own frames ?_ ?_
  · exact (congrArg (fun f => f.state.inSession) same).trans up
  · exact (congrArg Face.role same).trans master

variable {e} in
theorem Again.after {e' e'' : Engine} (waits : Waits e e') (again : Again e' e'') : Again e e'' :=
  ⟨waits.trans again.1, again.2⟩

section

variable [Libm]

end

end AetherHF.Link.Engine
