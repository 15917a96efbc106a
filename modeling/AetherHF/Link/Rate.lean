import Mathlib.Data.List.Dedup
import Mathlib.Data.List.Sort
import AetherHF.Link.Frames

/-! The rate controller: each station chooses the rung its own data goes at. Per
rung, the data its frames delivered per second of the air they took, decayed,
against a prior from the smoothed SNR the other station reports. -/
namespace AetherHF.Link

/-- Minimum usable SNR per rung of the 2 300 Hz ladder on AWGN. -/
def awgnThresholdDb : List ℚ :=
  [-19, -17.3, -16, -14.2, -13.1, -11.2, -5.1, -3.2, -1.8, -0.4, 1.4, 2.9, 4.7, 6.9, 6, 8.9,
    9.9, 13.9, 15.6, 16.9]

/-- The 2 300 Hz control frames' 10 % points, by family: ordinary, floor. -/
def defaultControlThresholdDb : ℚ × ℚ := (-5.1, -19.5)

/-- Modes on the throughput/threshold Pareto front of a table, ascending. -/
def usableModesByRate (thresholds : List ℚ) (payload : List Nat) (frameS : List ℚ) : List Nat :=
  let worth (m : Nat) : ℚ := ((payload.getD m 0 - dataHeaderBytes : Nat) : ℚ) / frameS.getD m 0
  (List.range thresholds.length).filter fun m =>
    !(List.range thresholds.length).any fun other =>
      other ≠ m && worth m ≤ worth other && thresholds.getD other 0 ≤ thresholds.getD m 0

/-- One data frame of a transmission, as it was judged. -/
structure FrameOutcome where
  mode : Nat
  airS : ℚ
  /-- The data bytes a frame at this rung carries. -/
  capacity : Nat
  detected : Bool
  /-- Delivered by this copy, alone or combined with earlier ones. -/
  decoded : Bool
  combined : Bool
  deriving DecidableEq

/-- A value for each family. -/
structure ByFamily where
  floor : ℚ
  ordinary : ℚ
  deriving DecidableEq

def ByFamily.get (pair : ByFamily) (isFloor : Bool) : ℚ := if isFloor then pair.floor else pair.ordinary

def ByFamily.set (pair : ByFamily) (isFloor : Bool) (value : ℚ) : ByFamily :=
  if isFloor then { pair with floor := value } else { pair with ordinary := value }

/-- A rung's measured delivery, decayed. -/
structure Account where
  bytes : ℚ := 0
  airS : ℚ := 0
  frames : ℚ := 0
  deriving DecidableEq

def Account.scale (account : Account) (factor : ℚ) : Account :=
  ⟨account.bytes * factor, account.airS * factor, account.frames * factor⟩

structure RateController where
  thresholds : List ℚ
  modes : List Nat
  capacity : List Nat
  frameS : List ℚ
  floorModes : Nat
  /-- The families' offsets. -/
  family : ByFamily := ⟨0, 0⟩
  familyGainDb : ℚ := 1 / 2
  echoLimit : List (Option ℚ)
  echo : Option ℚ := none
  smoothedSnrDb : Option ℚ := none
  index : Nat := 0
  accounts : List (Option Account)
  sinceProbe : List (Option ℚ)
  probeWait : List (Option Nat)
  probing : Option Nat := none
  probeTries : Nat := 0
  tryFrames : Nat := 0
  cleanAt : Option Nat := none
  halfLife : ℚ := 12
  priorFrames : ℚ := 2
  probeEvery : Nat := 6
  probeWaitMax : Nat := 48
  slopeDb : ℚ := 1 / 2
  priorMarginDb : ℚ := 3
  echoWeight : ℚ := 2 / 5
  echoMinSnrDb : ℚ := -6
  controlS : Option ByFamily := none
  gapS : ℚ := 0
  burstFrames : List Nat := []
  families : Option (Bool × Bool) := none
  ofdmFailed : Bool := false
  deriving DecidableEq

/-- The first of the candidates of the greatest value. -/
def bestOf (candidates : List Nat) (value : Nat → ℚ) : Option Nat :=
  (candidates.foldl (fun best i => match best with
    | some (_, b) => if value i > b then some (i, value i) else best
    | none => some (i, value i)) (none : Option (Nat × ℚ))).map Prod.fst

/-- The prior's chance that a frame decodes at `snrDb`. -/
def decodeProbability [Libm] (snrDb thresholdDb slopeDb : ℚ) : ℚ :=
  let x := (snrDb - thresholdDb) / slopeDb
  if x < -40 then 0 else 1 / (1 + Libm.exp (-x) / 9)

/-- Sums that land on a try's wait count as there. -/
def waitToleranceS : ℚ := 1 / 10 ^ 9

namespace RateController

def forTable (thresholds : List ℚ) (payload capacity : List Nat) (frameS : List ℚ)
    (floorModes : Nat) (echoLimit : List (Option ℚ)) : RateController where
  thresholds
  modes := usableModesByRate thresholds payload frameS
  capacity
  frameS
  floorModes
  echoLimit
  accounts := List.replicate thresholds.length none
  sinceProbe := List.replicate thresholds.length none
  probeWait := List.replicate thresholds.length none

variable (c : RateController)

/-- The rung at a place of the ladder; the source panics outside it. -/
def modeAt (i : Nat) : Nat := c.modes.getD i 0

def isFloor (mode : Nat) : Bool := mode < c.floorModes

def echoOut (i : Nat) : Bool :=
  match (c.echoLimit.getD (c.modeAt i) none), c.echo with
  | some limit, some echo => echo > limit
  | _, _ => false

def usable (i : Nat) : Bool := i < c.modes.length && !c.echoOut i

/-- Whether `mode`'s family is refused on this path; the floor's never is. -/
def refuses (mode : Nat) : Bool :=
  if mode < c.floorModes then false
  else if c.ofdmFailed && c.modeAt c.index < c.floorModes then true
  else
    let ofdm := (List.range c.modes.length).filter fun i => c.modeAt i ≥ c.floorModes
    !ofdm.isEmpty && ofdm.all c.echoOut

def judgeFamily (frames : List FrameOutcome) : RateController :=
  let ofdm := frames.filter fun (f : FrameOutcome) => f.mode ≥ c.floorModes
  if ofdm.isEmpty then c else { c with ofdmFailed := !ofdm.any (·.decoded) }

def priceExchanges (controlFloorS controlOrdinaryS gapS : ℚ) (burstFrames : List Nat) :
    RateController :=
  { c with controlS := some ⟨controlFloorS, controlOrdinaryS⟩, gapS, burstFrames }

def setFamilies (ownFloor otherFloor : Bool) : RateController :=
  { c with families := some (ownFloor, otherFloor) }

def priced (mode : Nat) (perAir : ℚ) : ℚ :=
  let n := c.burstFrames.getD mode 0
  match c.controlS with
  | none => perAir
  | some control =>
    if n = 0 then perAir
    else
      let (own, other) := c.families.getD (c.isFloor mode, c.isFloor mode)
      let overhead := control.get own + control.get other + c.gapS
      let air := (n : ℚ) * c.frameS.getD mode 1
      perAir * air / (air + overhead)

/-- Data bytes a second of a rung's frames carries, nothing lost. -/
def lossless (mode : Nat) : ℚ := (c.capacity.getD mode 0 : ℚ) / c.frameS.getD mode 1

def account (mode : Nat) : Account := (c.accounts.getD mode none).getD {}

section
variable [Libm]

/-- The prior's chance a frame at `mode` decodes, its family's offset under the reading. -/
def priorP (mode : Nat) (snrDb : ℚ) : ℚ :=
  decodeProbability (snrDb - c.family.get (c.isFloor mode) - c.priorMarginDb)
    (c.thresholds.getD mode 0) c.slopeDb

def estimateAt (mode : Nat) (snrDb : Option ℚ) : ℚ :=
  let cap : ℚ := c.capacity.getD mode 0
  let air := c.frameS.getD mode 1
  let prior := match snrDb with
    | some snr => cap * c.priorP mode snr
    | none => 0
  let acc := c.account mode
  (acc.bytes + c.priorFrames * prior) / (acc.airS + c.priorFrames * air)

/-- Data bytes a second of air at `mode` delivers, measured and prior together. -/
def estimate (mode : Nat) : ℚ := c.estimateAt mode c.smoothedSnrDb

/-- What the rungs are ranked by. -/
def value (mode : Nat) : ℚ := c.priced mode (c.estimate mode)

end

/-- The rung to use: the one being tried, else the choice. -/
def recommend : Nat := c.probing.getD (c.modeAt c.index)

/-- The choice, whatever is being tried. -/
def choice : Nat := c.modeAt c.index

def cancelTry : RateController := { c with probing := none, probeTries := 0, tryFrames := 0 }

/-- A transmission went unanswered: the choice steps down, and a try ends. -/
def silent (steps : Nat) : RateController :=
  let c := c.cancelTry
  let target := c.index - steps
  { c with index := ((List.range (target + 1)).reverse.find? c.usable).getD 0 }

def snrDb : Option ℚ := c.smoothedSnrDb

def thresholdDb (mode : Nat) : Option ℚ := c.thresholds[mode]?

def observeSnr (snrDb : Option ℚ) : RateController :=
  match snrDb with
  | none => c
  | some value => { c with smoothedSnrDb := some (match c.smoothedSnrDb with
      | some prev => 7 / 10 * prev + 3 / 10 * value
      | none => value) }

def since (mode : Nat) : ℚ := (c.sinceProbe.getD mode none).getD 0

def wait (mode : Nat) : Nat := (c.probeWait.getD mode none).getD c.probeEvery

/-- The air to let go by before trying `mode`: its wait, in full transmissions at it. -/
def waitS (mode : Nat) : ℚ :=
  (c.wait mode : ℚ) * ((c.burstFrames.getD mode 1 : ℚ) * c.frameS.getD mode 1)

/-- A try is decided once its own frames outweigh the prior, or after twice the
transmissions that takes. -/
def tryOver : Bool :=
  let enough := ⌊c.priorFrames⌋.toNat + 1
  c.tryFrames ≥ enough || c.probeTries ≥ 2 * enough

section
variable [Libm]

/-- What frames at `mode`, above the current rung, said: whether it now beats it. -/
def judgeTry (mode : Nat) : RateController × Bool :=
  if c.value mode > c.value (c.modeAt c.index) then
    ({ c with probeWait := c.probeWait.set mode (some c.probeEvery) }, true)
  else
    ({ c with probeWait := c.probeWait.set mode (some (min c.probeWaitMax (2 * c.wait mode)))
              sinceProbe := c.sinceProbe.set mode (some 0) }, false)

def endProbe (measured : Bool) : RateController :=
  match c.probing with
  | none => c
  | some mode =>
    let c := c.cancelTry
    if !measured then c
    else
      let (c, carried) := c.judgeTry mode
      if !carried then c
      else
        let c := { c with index := (c.modes.idxOf? mode).getD c.index }
        if c.usable (c.index + 1) then
          let above := c.modeAt (c.index + 1)
          { c with sinceProbe := c.sinceProbe.set above (some (c.waitS above)) }
        else c

/-- Whether the rung above, `mode`, is tried without its wait. -/
def cleanClimb (mode : Nat) : Bool :=
  let here := c.modeAt c.index
  c.cleanAt = some here && c.isFloor mode = c.isFloor here && c.wait mode = c.probeEvery &&
    c.value mode > c.value here

/-- Down to any rung; up only to a rung whose own frames outweigh its prior. -/
def decide : RateController :=
  let candidates := (List.range c.modes.length).filter fun i =>
    c.usable i && !(i > c.index && (c.account (c.modeAt i)).frames ≤ c.priorFrames)
  match bestOf candidates fun i => c.value (c.modeAt i) with
  | none => { c with index := 0 }.cancelTry
  | some index =>
    let c := { c with index }
    let up := c.index + 1
    match c.probing with
    | some probe => if c.usable up && c.modeAt up = probe then c else c.cancelTry
    | none =>
      if !c.usable up then c
      else
        let mode := c.modeAt up
        if c.priced mode (c.lossless mode) ≤ c.value (c.modeAt c.index) then c
        else if c.since mode ≥ c.waitS mode - waitToleranceS || c.cleanClimb mode then
          { c with probing := some mode, sinceProbe := c.sinceProbe.set mode (some 0) }
        else c

/-- The family's offset moves by its surprise at the frame. -/
def surprise (snr : ℚ) (f : FrameOutcome) : RateController :=
  if f.combined || f.mode ≥ c.thresholds.length then c
  else
    let floor := c.isFloor f.mode
    let offset := c.family.get floor +
      c.familyGainDb * (c.priorP f.mode snr - if f.decoded then 1 else 0)
    { c with family := c.family.set floor (max (-5) (min 20 offset)) }

/-- Every other rung's account ages with the frame's air; its own takes it. -/
def charge (f : FrameOutcome) : RateController :=
  let decay := Libm.powf (1 / 2) (1 / c.halfLife)
  let aged := c.accounts.mapIdx fun mode old =>
    if mode = f.mode then old
    else old.map (·.scale (Libm.powf (1 / 2) (f.airS / (c.halfLife * c.frameS.getD mode 0))))
  let own := (c.account f.mode).scale decay
  let taken : Account := {
    bytes := if f.decoded then own.bytes + f.capacity else own.bytes
    airS := own.airS + f.airS
    frames := own.frames + 1 }
  { c with accounts := aged.set f.mode (some taken) }

/-- Every usable rung's wait goes on by the transmission's air. -/
def passAir (air : ℚ) : RateController :=
  (List.range c.modes.length).foldl (fun (c : RateController) i =>
    { c with sinceProbe := c.sinceProbe.set (c.modeAt i) (some (c.since (c.modeAt i) + air)) }) c

/-- The frames of the try under way, and its end. -/
def countTry (frames : List FrameOutcome) : RateController :=
  match c.probing with
  | none => c
  | some probe =>
    let c := { c with
      probeTries := c.probeTries + 1
      tryFrames := c.tryFrames + (frames.filter fun (f : FrameOutcome) => f.mode = probe).length }
    if c.tryOver then c.endProbe (0 < c.tryFrames) else c

/-- A transmission's data frames. -/
def observeFrames (frames : List FrameOutcome) (snrDb : Option ℚ) : RateController :=
  let c := c.observeSnr snrDb
  if frames.isEmpty then c
  else
    let c := match c.smoothedSnrDb with
      | some snr => if c.familyGainDb ≠ 0
          then frames.foldl (fun (c : RateController) f => c.surprise snr f) c else c
      | none => c
    let c := frames.foldl (fun (c : RateController) f => c.charge f) c
    let c := c.judgeFamily frames
    let sent := ((frames.map fun (f : FrameOutcome) => f.mode).insertionSort (· ≤ ·)).dedup
    let c := c.passAir (frames.map fun (f : FrameOutcome) => f.airS).sum
    let here := c.modeAt c.index
    let atHere := frames.filter fun (f : FrameOutcome) => f.mode = here
    let clean := !atHere.isEmpty && atHere.all fun f => f.decoded && !f.combined
    let c := { c with cleanAt := if clean then some here else none }
    -- frames at a rung above, sent for another reason: news of it, as a try would be
    let c := sent.foldl (fun (c : RateController) mode =>
      if some mode ≠ c.probing ∧ mode > here then (c.judgeTry mode).1 else c) c
    (c.countTry frames).decide

/-- A frame's echo reading: a try it rules out ends, and a choice it rules out
goes to the best estimate below that it allows. -/
def observeEcho (share : Option ℚ) (snrDb : ℚ) : RateController :=
  match share with
  | none => c
  | some share =>
    if snrDb < c.echoMinSnrDb then c
    else
      let w := c.echoWeight
      let c := { c with echo := some (match c.echo with
        | some prev => (1 - w) * prev + w * share
        | none => share) }
      let c := match c.probing.bind c.modes.idxOf? with
        | some at_ => if c.echoOut at_ then c.cancelTry else c
        | none => c
      if c.echoOut c.index then
        let candidates := (List.range c.index).filter c.usable
        { c with index := (bestOf candidates fun i => c.value (c.modeAt i)).getD 0 }
      else c

/-- The rung a session starts at from one reading. -/
def firstMode (snrDb : ℚ) : Nat :=
  let candidates := (List.range c.modes.length).filter fun i => !c.echoOut i
  c.modeAt ((bestOf candidates fun i =>
    c.priced (c.modeAt i) (c.estimateAt (c.modeAt i) (some snrDb))).getD 0)

/-- Start from the connect frame's reading, before anything has been observed. -/
def seed (snrDb : ℚ) : RateController :=
  if c.smoothedSnrDb.isSome then c
  else
    let c := { c with smoothedSnrDb := some snrDb }
    { c with index := (c.modes.idxOf? (c.firstMode snrDb)).getD 0 }

end

end RateController

end AetherHF.Link
