import Mathlib.Algebra.Order.Field.Basic
import Mathlib.Data.List.Chain
import Mathlib.Tactic.Linarith
import Mathlib.Tactic.Ring

/-! How far the audio a station has processed trails the air: the playback clock less the
station's own, over its least, which may creep up for the two clocks' drift. Between readings
the drift is slow either way and a backlog only adds. -/
namespace AetherHF.Daemon

variable {K : Type} [Field K] [LinearOrder K]

/-- How fast one clock may gain on the other: seconds a second. -/
def clockCreep : K := 1 / (1000 : ℕ)

structure CaptureLag (K : Type) where
  /-- The distance while the station keeps up. -/
  baseline : Option K
  /-- The station's clock at the last reading. -/
  at_ : K
  lagS : K

namespace CaptureLag

def default_ : CaptureLag K := ⟨none, 0, 0⟩

/-- A reading of the playback clock, in seconds, against the station's. -/
def read (lag : CaptureLag K) (playedS now : K) : CaptureLag K :=
  let distance := playedS - now
  let baseline := match lag.baseline with
    | some least =>
      if least ≤ distance then least + min (distance - least) (clockCreep * max (now - lag.at_) 0) else distance
    | none => distance
  { baseline := some baseline, at_ := now, lagS := max (distance - baseline) 0 }

/-- The baseline drops to the distance read. -/
def sets (lag : CaptureLag K) (distance : K) : Bool :=
  match lag.baseline with
  | some least => distance < least
  | none => true

end CaptureLag

/-- A reading: the station's clock, how far the clocks have drifted apart, and what has been
captured and not yet processed. -/
structure Reading (K : Type) where
  now : K
  drift : K
  backlog : K

def Reading.played (r : Reading K) : K := r.now + (r.drift + r.backlog)

/-- What a station reads: nothing held at first, the clock never back, and a slow drift. -/
structure Plausible (readings : List (Reading K)) : Prop where
  backlog : ∀ r ∈ readings, 0 ≤ r.backlog
  first : ∀ r ∈ readings.head?, r.backlog = 0
  slow : readings.IsChain fun r r' => r.now ≤ r'.now ∧ |r'.drift - r.drift| ≤ clockCreep * (r'.now - r.now)

/-- The readings taken, and the one the baseline was last set at. -/
def readAll (readings : List (Reading K)) : CaptureLag K × Option (Reading K) :=
  readings.foldl (fun s r => (s.1.read r.played r.now, if s.1.sets (r.played - r.now) then some r else s.2))
    (.default_, none)

theorem readAll_concat (readings : List (Reading K)) (r : Reading K) : readAll (readings ++ [r]) =
    ((readAll readings).1.read r.played r.now,
      if (readAll readings).1.sets (r.played - r.now) then some r else (readAll readings).2) := by
  rw [readAll, List.foldl_append]
  rfl

variable [IsStrictOrderedRing K]

theorem clockCreep_pos : 0 < (clockCreep : K) := by
  unfold clockCreep
  positivity

/-- What holds of the lag at the last of the readings. -/
structure Tracks (readings : List (Reading K)) (r : Reading K) (lag : CaptureLag K) (set_ : Option (Reading K)) (least : K) :
    Prop where
  baseline : lag.baseline = some least
  read_ : lag.at_ = r.now
  lag : lag.lagS = r.drift + r.backlog - least
  drift : r.drift ≤ least
  distance : least ≤ r.drift + r.backlog
  since : ∃ s, set_ = some s ∧ s ∈ readings ∧ s.drift ≤ least
  idle : ∀ e ∈ readings, e.backlog = 0 → least ≤ e.drift + clockCreep * (r.now - e.now)
  near : ∀ e ∈ readings, e.now ≤ r.now ∧ |r.drift - e.drift| ≤ clockCreep * (r.now - e.now)

theorem Tracks.next {readings : List (Reading K)} {r r' : Reading K} {lag : CaptureLag K} {set_ : Option (Reading K)} {least : K}
    (h : Tracks readings r lag set_ least) (later : r.now ≤ r'.now) (slow : |r'.drift - r.drift| ≤ clockCreep * (r'.now - r.now))
    (backlog : 0 ≤ r'.backlog) : ∃ least', Tracks (readings ++ [r']) r' (lag.read r'.played r'.now)
      (if lag.sets (r'.played - r'.now) then some r' else set_) least' := by
  have creep := clockCreep_pos (K := K)
  have distance : r'.played - r'.now = r'.drift + r'.backlog := by rw [Reading.played]; ring
  have passed : max (r'.now - lag.at_) 0 = r'.now - r.now := by rw [h.read_, max_eq_left (by linarith)]
  obtain ⟨falls, rises⟩ := abs_le.mp slow
  have near : ∀ e ∈ readings ++ [r'], e.now ≤ r'.now ∧ |r'.drift - e.drift| ≤ clockCreep * (r'.now - e.now) := by
    intro e member
    rcases List.mem_append.mp member with earlier | here
    · obtain ⟨before, near⟩ := h.near e earlier
      obtain ⟨low, high⟩ := abs_le.mp near
      exact ⟨before.trans later, abs_le.mpr ⟨by linarith, by linarith⟩⟩
    · obtain rfl := List.mem_singleton.mp here
      simp
  have idle {least' : K} (atMost : least' ≤ r'.drift + r'.backlog) (crept : least' ≤ least + clockCreep * (r'.now - r.now)) :
      ∀ e ∈ readings ++ [r'], e.backlog = 0 → least' ≤ e.drift + clockCreep * (r'.now - e.now) := by
    intro e member none_
    rcases List.mem_append.mp member with earlier | here
    · have := h.idle e earlier none_
      linarith
    · obtain rfl := List.mem_singleton.mp here
      linarith
  by_cases drops : r'.drift + r'.backlog < least
  · -- the baseline is set at this reading
    have moved : least + 0 ≤ least + clockCreep * (r'.now - r.now) := by
      have := mul_nonneg creep.le (sub_nonneg.mpr later)
      linarith
    refine ⟨r'.drift + r'.backlog, ⟨?_, rfl, ?_, by linarith, le_rfl, ⟨r', ?_, by simp, by linarith⟩, idle le_rfl (by linarith), near⟩⟩
    · simp only [CaptureLag.read, h.baseline, distance, if_neg drops.not_ge]
    · simp only [CaptureLag.read, h.baseline, distance, if_neg drops.not_ge, sub_self, max_self]
    · simp only [CaptureLag.sets, h.baseline, distance, decide_eq_true drops, if_true]
  · -- it creeps up, no further than the distance
    have stays : least ≤ r'.drift + r'.backlog := not_lt.mp drops
    have upTo := min_le_left (r'.drift + r'.backlog - least) (clockCreep * (r'.now - r.now))
    have crept := min_le_right (r'.drift + r'.backlog - least) (clockCreep * (r'.now - r.now))
    have rises_ : r'.drift - least ≤ min (r'.drift + r'.backlog - least) (clockCreep * (r'.now - r.now)) :=
      le_min (by linarith) (by have := h.drift; linarith)
    have up : 0 ≤ min (r'.drift + r'.backlog - least) (clockCreep * (r'.now - r.now)) :=
      le_min (by linarith) (mul_nonneg creep.le (by linarith))
    obtain ⟨s, is, member, below⟩ := h.since
    refine ⟨least + min (r'.drift + r'.backlog - least) (clockCreep * (r'.now - r.now)),
      ⟨?_, rfl, ?_, by linarith, by linarith, ⟨s, ?_, List.mem_append_left _ member, by linarith⟩,
        idle (by linarith) (by linarith), near⟩⟩
    · simp only [CaptureLag.read, h.baseline, distance, if_pos stays, passed]
    · simp only [CaptureLag.read, h.baseline, distance, if_pos stays, passed]
      exact max_eq_left (by linarith)
    · simp only [CaptureLag.sets, h.baseline, distance, decide_eq_false drops, Bool.false_eq_true, if_false, is]

theorem tracks (readings : List (Reading K)) (r : Reading K) (believable : Plausible (readings ++ [r])) :
    ∃ least, Tracks (readings ++ [r]) r (readAll (readings ++ [r])).1 (readAll (readings ++ [r])).2 least := by
  induction readings using List.reverseRecOn generalizing r with
  | nil =>
    have first : r.backlog = 0 := believable.first r rfl
    have distance : r.played - r.now = r.drift := by rw [Reading.played, first]; ring
    refine ⟨r.drift, ⟨?_, rfl, ?_, le_rfl, by rw [first, add_zero], ⟨r, ?_, by simp, le_rfl⟩, ?_, ?_⟩⟩
    · simp only [readAll, List.nil_append, List.foldl_cons, List.foldl_nil, CaptureLag.read, CaptureLag.default_, distance]
    · simp only [readAll, List.nil_append, List.foldl_cons, List.foldl_nil, CaptureLag.read, CaptureLag.default_, distance,
        first, add_zero, sub_self, max_self]
    · rfl
    · simp
    · simp
  | append_singleton before r₀ ih =>
    obtain ⟨chain, -, last⟩ := List.isChain_append.mp believable.slow
    have earlier : Plausible (before ++ [r₀]) :=
      ⟨fun e member => believable.backlog e (List.mem_append_left _ member), fun e head => believable.first e (by
        cases before <;> simpa using head), chain⟩
    obtain ⟨least, h⟩ := ih r₀ earlier
    obtain ⟨later, slow⟩ := last r₀ (by simp) r (by simp)
    rw [readAll_concat]
    exact h.next later slow (believable.backlog r (by simp))

/-- After every reading the lag is not negative and the baseline no more than the distance; it is no
more than the backlog, whatever the drift has done since the baseline was set; and it is short of
the backlog by no more than the clocks move both ways since there was none. -/
theorem backlog_told (readings : List (Reading K)) (r : Reading K) (believable : Plausible (readings ++ [r])) :
    let lag := (readAll (readings ++ [r])).1;
    0 ≤ lag.lagS ∧
    (∃ least, lag.baseline = some least ∧ least ≤ r.played - r.now) ∧
    lag.lagS ≤ r.backlog ∧
    (∃ s, (readAll (readings ++ [r])).2 = some s ∧ s ∈ readings ++ [r] ∧ lag.lagS ≤ r.backlog + (r.drift - s.drift) ∧
      r.drift - s.drift ≤ clockCreep * (r.now - s.now)) ∧
    ∀ e ∈ readings ++ [r], e.backlog = 0 → r.backlog - 2 * clockCreep * (r.now - e.now) ≤ lag.lagS ∧
      (lag.lagS = 0 → r.backlog ≤ 2 * clockCreep * (r.now - e.now)) := by
  obtain ⟨least, h⟩ := tracks readings r believable
  have distance : r.played - r.now = r.drift + r.backlog := by rw [Reading.played]; ring
  have drift := h.drift
  have atMost := h.distance
  obtain ⟨s, is, member, below⟩ := h.since
  have short (e : Reading K) (inside : e ∈ readings ++ [r]) (none_ : e.backlog = 0) :
      r.backlog - 2 * clockCreep * (r.now - e.now) ≤ r.drift + r.backlog - least := by
    have crept := h.idle e inside none_
    have fell := (abs_le.mp (h.near e inside).2).1
    linarith
  dsimp only
  rw [h.lag]
  refine ⟨by linarith, ⟨least, h.baseline, by rw [distance]; exact atMost⟩, by linarith,
    ⟨s, is, member, by linarith, (abs_le.mp (h.near s member).2).2⟩, fun e inside none_ => ⟨short e inside none_, fun zero_ => ?_⟩⟩
  have := short e inside none_
  linarith

/-- A station that keeps up, and then falls two seconds behind. -/
theorem backlog_told_stall :
    (readAll ([⟨0, 5, 0⟩] ++ [⟨10, 5, 2⟩] : List (Reading ℚ))).1.lagS ≤ 2 := by
  refine (backlog_told [⟨0, 5, 0⟩] ⟨10, 5, 2⟩ ⟨?_, ?_, ?_⟩).2.2.1
  · simp
  · simp
  · simp [clockCreep]

end AetherHF.Daemon
