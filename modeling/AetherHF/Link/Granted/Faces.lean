import AetherHF.Link.Granted.Inputs

/-! What a station's timers go by, and the calls of the engine's that leave it alone: those
that send and receive a session's data. -/
namespace AetherHF.Link.Engine

/-- Whom a station may call and be called as, where it is in a session, what it waits for. -/
structure Face where
  callsigns : List Text
  timing : PhyTiming
  myCall : Text
  remoteCall : Text
  state : State
  role : Role
  deadlines : Deadlines
  probing : Option Text

def face (e : Engine) : Face where
  callsigns := e.callsigns
  timing := e.timing
  myCall := e.myCall
  remoteCall := e.remoteCall
  state := e.state
  role := e.role
  deadlines := e.deadlines
  probing := e.calling.probing

variable (e : Engine)

/-! ### This station's data -/

end AetherHF.Link.Engine
