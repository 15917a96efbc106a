import AetherHF.Link.Frames

/-! What the link layer needs from a physical layer, and nothing more. The fields
of `PhyTiming` that the engine never reads (the receiver's latencies and preamble
delays) are left out. -/
namespace AetherHF.Link

inductive Container where
  | data | control
  deriving DecidableEq, Repr

/-- Soft information carried between transmissions of the same block; the engine
never looks inside. -/
abbrev HarqBuffer := List ℚ

structure TxFrame where
  container : Container
  payload : Bytes
  /-- Mode index, for data frames. -/
  mode : Nat
  rv : Nat
  /-- A control frame to go out on the floor. -/
  floor : Bool
  /-- How many more frames of its burst follow, at most three. -/
  follows : Nat
  deriving DecidableEq

/-- A frame the physical layer detected, whether or not its payload decoded. -/
structure SoftFrame where
  container : Container
  mode : Nat
  floor : Bool
  rv : Nat
  snrDb : ℚ
  trusted : Bool
  follows : Option Nat
  echo : Option ℚ
  tStart : ℚ
  tEnd : ℚ
  /-- The payload, if the check passed, and the buffer to keep; alone, or combined
  with an earlier transmission's buffer. -/
  decode : Option HarqBuffer → Option Bytes × HarqBuffer

/-- The durations the engine's timers are built from. -/
structure PhyTiming where
  dataFrameS : ℚ
  controlFrameS : ℚ
  txLatencyS : ℚ
  /-- Payload bytes per data frame, by mode. -/
  dataCapacity : List Nat
  modeThresholdDb : List ℚ
  floorDataFrameS : Option ℚ
  floorControlFrameS : Option ℚ
  /-- How many of the leading modes are the floor's. -/
  floorModes : Nat
  /-- By family: ordinary, floor. -/
  controlThresholdDb : Option (ℚ × ℚ)
  echoLimit : List (Option ℚ)
  deriving DecidableEq

/-- A frame that decodes alone, of a rung without a floor. -/
def SoftFrame.clear (container : Container) (payload : Bytes) (tStart tEnd : ℚ) : SoftFrame where
  container
  mode := 0
  floor := false
  rv := 0
  snrDb := 10
  trusted := true
  follows := some 0
  echo := none
  tStart
  tEnd
  decode := fun _ => (some payload, [])

namespace PhyTiming

/-- An air of one rung and no floor, for runs on fixed inputs. -/
def oneRung : PhyTiming where
  dataFrameS := 1
  controlFrameS := 1 / 2
  txLatencyS := 1 / 10
  dataCapacity := [40]
  modeThresholdDb := [0]
  floorDataFrameS := none
  floorControlFrameS := none
  floorModes := 0
  controlThresholdDb := none
  echoLimit := []

/-- The source panics outside the table; here such a mode carries nothing. -/
def capacity (t : PhyTiming) (mode : Nat) : Nat := t.dataCapacity.getD mode 0

def isFloor (t : PhyTiming) (mode : Nat) : Bool := mode < t.floorModes

def dataFrameSFor (t : PhyTiming) (mode : Nat) : ℚ :=
  match t.floorDataFrameS with
  | some floor => if t.isFloor mode then floor else t.dataFrameS
  | none => t.dataFrameS

def controlFrameSFor (t : PhyTiming) (floor : Bool) : ℚ :=
  match t.floorControlFrameS with
  | some long => if floor then long else t.controlFrameS
  | none => t.controlFrameS

def frameS (t : PhyTiming) (frame : TxFrame) : ℚ :=
  match frame.container with
  | .data => t.dataFrameSFor frame.mode
  | .control => t.controlFrameSFor frame.floor

end PhyTiming

end AetherHF.Link
