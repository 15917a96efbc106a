import Mathlib.Data.List.Sort
import Mathlib.Data.Rat.Floor

/-! Keying the radio: an interface that may refuse, the watchdog over it, and the waits its
command and a render take. -/
namespace AetherHF.Radio

inductive PttError where
  | watchdogTripped
  | backend (detail : String)
  deriving DecidableEq, Repr

/-- A keying interface. -/
class Ptt (P : Type) where
  key : P → Except PttError Unit × P
  unkey : P → Except PttError Unit × P

inductive WatchdogState where
  | idle
  | keyed
  | tripped
  deriving DecidableEq, Repr

/-- An interface with a maximum key time. A trip latches until the release. -/
structure PttWatchdog (P : Type) where
  inner : P
  maxKeyS : ℚ
  keyedSince : Option ℚ := none
  tripped : Bool := false
  trips : Nat := 0

namespace PttWatchdog

variable {P : Type} [Ptt P] (w : PttWatchdog P)

def isKeyed : Bool := w.keyedSince.isSome

/-- Keying while keyed does not restart the clock. -/
def key (now : ℚ) : Except PttError Unit × PttWatchdog P :=
  if w.tripped then (.error .watchdogTripped, w)
  else if w.keyedSince.isSome then (.ok (), w)
  else match Ptt.key w.inner with
    | (.error e, inner) => (.error e, { w with inner })
    | (.ok (), inner) => (.ok (), { w with inner, keyedSince := some now })

/-- The state is cleared either way. -/
def unkey : Except PttError Unit × PttWatchdog P :=
  let (result, inner) := Ptt.unkey w.inner
  (result, { w with inner, keyedSince := none, tripped := false })

def poll (now : ℚ) : Except PttError WatchdogState × PttWatchdog P :=
  match w.keyedSince with
  | none => (.ok .idle, w)
  | some since =>
    if now - since < w.maxKeyS then (.ok .keyed, w)
    else
      let (result, inner) := Ptt.unkey w.inner
      (result.map fun _ => .tripped, { w with inner, keyedSince := none, tripped := true, trips := w.trips + 1 })

end PttWatchdog

/-! ### An interface watched -/

/-- An interface with what it was told, and whether it obeyed. -/
structure Watched (P : Type) where
  inner : P
  /-- Keyed or released, and whether it was. -/
  told : List (Bool × Bool) := []

instance {P : Type} [Ptt P] : Ptt (Watched P) where
  key p := let (result, inner) := Ptt.key p.inner; (result, ⟨inner, p.told ++ [(true, result.isOk)]⟩)
  unkey p := let (result, inner) := Ptt.unkey p.inner; (result, ⟨inner, p.told ++ [(false, result.isOk)]⟩)

namespace PttWatchdog

variable {P : Type} [Ptt P] {w : PttWatchdog (Watched P)}

/-- While the watchdog says the radio is keyed, keying it is the last thing that was done. -/
def Faithful (w : PttWatchdog (Watched P)) : Prop := w.keyedSince.isSome = true → w.inner.told.getLast? = some (true, true)

theorem Faithful.key (faithful : w.Faithful) (now : ℚ) : (w.key now).2.Faithful := by
  unfold PttWatchdog.key
  split
  · exact faithful
  · split
    · exact faithful
    · rename_i released
      have apart : (Ptt.key w.inner).2.told = w.inner.told ++ [(true, (Ptt.key w.inner).1.isOk)] := rfl
      split
      · intro keyed
        exact absurd keyed released
      · rename_i inner obeyed
        intro _
        rw [obeyed] at apart
        show inner.told.getLast? = _
        rw [show inner.told = w.inner.told ++ [(true, true)] from apart, List.getLast?_append]
        rfl

theorem Faithful.unkey : w.unkey.2.Faithful := fun keyed => by cases keyed

theorem Faithful.poll (faithful : w.Faithful) (now : ℚ) : (w.poll now).2.Faithful := by
  unfold PttWatchdog.poll
  split
  · exact faithful
  · split
    · exact faithful
    · exact fun keyed => by cases keyed

end PttWatchdog

/-! ### The waits between deciding and radiating -/

/-- How many recent waits an estimate is taken over. -/
def keptWaits : Nat := 9

/-- Rounded half away from nought, what is below it nought. -/
def rounded (x : ℚ) : Nat := ⌊x + 1 / 2⌋.toNat

/-- The recent run of one kind of wait, in seconds. -/
structure Recent where
  waits : List ℚ := []
  deriving DecidableEq, Repr

namespace Recent

/-- One more wait, to the millisecond. -/
def push (r : Recent) (seconds : ℚ) : Recent :=
  if seconds < 0 then r
  else
    let waits := r.waits ++ [(rounded (seconds * 1000) : ℚ) / 1000]
    ⟨if waits.length > keptWaits then waits.tail else waits⟩

def sorted (r : Recent) : List ℚ := r.waits.insertionSort (· ≤ ·)

/-- The middle of them, the upper of an even run's two. -/
def typical (r : Recent) : ℚ := r.sorted.getD (r.waits.length / 2) 0

def least (r : Recent) : ℚ := r.sorted.headD 0

end Recent

structure KeyingLatency where
  /-- The radio's keying command. -/
  key : Recent := {}
  /-- Rendering a transmission of the engine's. -/
  render : Recent := {}
  deriving DecidableEq, Repr

def KeyingLatency.typicalS (latency : KeyingLatency) : ℚ := latency.key.typical + latency.render.typical

end AetherHF.Radio
