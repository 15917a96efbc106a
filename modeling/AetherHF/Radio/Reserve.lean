import Mathlib.Algebra.Order.Field.Rat
import Mathlib.Tactic.Linarith

/-! Another session on the channel: how long a station that heard it holds its own calls. -/
namespace AetherHF.Radio

/-- The longest quiet inside a session. -/
def reserveGapS : ℚ := 4

/-- How long a DISC heard holds. -/
def reserveDiscS : ℚ := 15 / 2

/-- Silence after which an activity is over. -/
def reserveMaxS : ℚ := 45

/-- The longest a closing holds after its `DISC_ACK`. -/
def reserveClosingS : ℚ := 40

/-- What a decoded frame of another session says of it. -/
inductive HeardOther where
  | session
  /-- A DISC. -/
  | leaving
  /-- A `DISC_ACK`. -/
  | over
  deriving DecidableEq, Repr

structure Reservation where
  /-- When the last frame of the activity was heard. -/
  last : Option ℚ := none
  /-- The longest gap between two of its frames. -/
  cycleS : ℚ := 0
  until_ : ℚ := 0
  /-- When a `DISC_ACK` was heard, and when the channel was last busy since. -/
  closing : Option (ℚ × ℚ) := none
  deriving DecidableEq, Repr

namespace Reservation

variable (r : Reservation)

def cycleAt (now : ℚ) : ℚ :=
  match r.last with
  | some last => if now - last ≤ reserveMaxS then max r.cycleS (now - last) else 0
  | none => 0

/-- A frame of another session. -/
def heard (now : ℚ) : HeardOther → Reservation
  | .session => ⟨some now, r.cycleAt now, now + max reserveGapS (r.cycleAt now), none⟩
  | .leaving => ⟨some now, r.cycleAt now, now + reserveDiscS, none⟩
  | .over => ⟨none, 0, now + reserveGapS, some (now, now)⟩

/-- What the busy detector says, in a closing. -/
def channel (now : ℚ) (busy : Bool) : Reservation :=
  match r.closing with
  | none => r
  | some (at_, lastBusy) =>
    let lastBusy := if busy then now else lastBusy
    let until_ := min (lastBusy + reserveGapS) (at_ + reserveClosingS)
    { r with until_, closing := if now < until_ then some (at_, lastBusy) else none }

def holds (now : ℚ) : Bool := now < r.until_

end Reservation

/-! ### What was heard -/

/-- One thing heard of the channel. -/
inductive Sound where
  | frame (now : ℚ) (what : HeardOther)
  | level (now : ℚ) (busy : Bool)
  deriving DecidableEq, Repr

namespace Sound

def now : Sound → ℚ
  | frame now _ => now
  | level now _ => now

def take (r : Reservation) : Sound → Reservation
  | frame now what => r.heard now what
  | level now busy => r.channel now busy

end Sound

def Reservation.after (sounds : List Sound) : Reservation := sounds.foldl Sound.take {}

end AetherHF.Radio
