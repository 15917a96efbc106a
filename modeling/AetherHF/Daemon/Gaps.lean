import Mathlib.Algebra.Order.Field.Basic
import Mathlib.Tactic.NormNum
import Mathlib.Tactic.Positivity
import AetherHF.Base.Keyed
import AetherHF.Base.Stream
import AetherHF.Base.Text

/-! The answer gap each station has shown it needs, learned from the air: it asks again, so the
answer to it was lost. Times may be any numbers, and arithmetic rounds. -/
namespace AetherHF.Daemon

/-- A callsign without what an operator adds to it: the longest part between slashes, of what
stands before the first dash. -/
def baseCallsign (callsign : Text) : Text :=
  (((Text.trim callsign).takeWhile (· ≠ '-')).splitOn '/').foldl
    (fun best part => if (Text.asBytes best).length ≤ (Text.asBytes part).length then part else best) []

example : baseCallsign "VE3/KK4ODA-1-T".toList = "KK4ODA".toList := by decide

/-- What a station's gap is kept under. -/
def gapKey (callsign : Text) : Text := Text.toAsciiUppercase (baseCallsign callsign)

variable {K : Type} [Field K] [LinearOrder K]

/-- How much one sign of a lost first answer raises a station's gap. -/
def stepS : K := 1 / 4

/-- The most a station's gap is raised to. -/
def mostS : K := (2 : ℕ)

def probeAgainS : K := 60

def callAgainS : K := 60

/-- How arithmetic rounds: no sum past another, the step and the ceiling as they are, and a thousandth not to none. -/
structure Rounding (K : Type) [Field K] [LinearOrder K] where
  round : K → K
  monotone : Monotone round
  step : round stepS = stepS
  most : round mostS = mostS
  least : 0 < round (1 / 1000)

/-- How much a session that went on lowers the gap. -/
def easeS (r : Rounding K) : K := r.round (1 / 40)

/-- Under this a gap is none. -/
def leastS (r : Rounding K) : K := r.round (1 / 1000)

/-- What this station answered last, waiting to see whether it was heard. -/
structure Answered (K : Type) where
  callsign : Text
  atS : K
  /-- This answer's loss has been counted already. -/
  counted : Bool
  /-- An answer before this one, in the same exchange, was lost. -/
  afterLoss : Bool
  deriving DecidableEq

structure Learned (K : Type) where
  callsign : Text
  gapS : K
  why : String
  deriving DecidableEq

structure LearnedGaps (K : Type) where
  gaps : Keyed Text K
  /-- The last call this station accepted. -/
  accepted : Option (Answered K)
  /-- The last probe this station answered. -/
  probed : Option (Answered K)
  lastAsker : Option Text
  changes : List (Learned K)
  deriving DecidableEq

namespace LearnedGaps

def default_ : LearnedGaps K := ⟨[], none, none, none, []⟩

variable (r : Rounding K) (s : LearnedGaps K)

/-- The gap learned for a station. -/
def gapS (callsign : Text) : Option K := s.gaps.get? (gapKey callsign)

def askedBy (callsign : Text) : LearnedGaps K := { s with lastAsker := some callsign }

def changed (learned : Learned K) : LearnedGaps K := { s with changes := s.changes ++ [learned] }

def takeChanges : LearnedGaps K × List (Learned K) := ({ s with changes := [] }, s.changes)

def remember (callsign : Text) (gapS : K) : LearnedGaps K :=
  if 0 < gapS then { s with gaps := s.gaps.insert (gapKey callsign) (min gapS mostS) } else s

/-- This station accepted a call. -/
def accept (callsign : Text) (atS : K) : LearnedGaps K :=
  let callsign := gapKey callsign
  let afterLoss := match s.accepted with
    | some a => a.callsign = callsign && (a.counted || a.afterLoss)
    | none => false
  { s with accepted := some ⟨callsign, atS, false, afterLoss⟩ }

def probeAnswered (callsign : Text) (atS : K) : LearnedGaps K :=
  { s with probed := some ⟨gapKey callsign, atS, false, false⟩ }

def raise (call : Text) (why : String) : LearnedGaps K × Option (Learned K) :=
  let gap := min (r.round ((s.gaps.get? call).getD 0 + stepS)) mostS
  ({ s with gaps := s.gaps.insert call gap }, some ⟨call, gap, why⟩)

/-- An answer that was lost, counted: the same station asks again soon after it. -/
def lost (answered : Option (Answered K)) (call : Text) (atS again : K) : Option (Answered K) :=
  match answered with
  | some a =>
    if a.callsign = call ∧ a.counted = false ∧ r.round (atS - a.atS) ≤ again ∧ a.atS < atS
    then some { a with counted := true } else none
  | none => none

/-- A call to this station: when it follows an acceptance of the same station's, that was lost. -/
def called (callsign : Text) (atS : K) : LearnedGaps K × Option (Learned K) :=
  match lost r s.accepted (gapKey callsign) atS callAgainS with
  | some a => raise r { s with accepted := some a } (gapKey callsign) "it called again after its call was accepted"
  | none => (s, none)

def probe (callsign : Text) (atS : K) : LearnedGaps K × Option (Learned K) :=
  match lost r s.probed (gapKey callsign) atS probeAgainS with
  | some a => raise r { s with probed := some a } (gapKey callsign) "it probed again after its probe was answered"
  | none => (s, none)

/-- The session went on after the acceptance. -/
def sessionWentOn (callsign : Text) : LearnedGaps K × Option (Learned K) :=
  let call := gapKey callsign
  match s.accepted with
  | none => (s, none)
  | some a =>
    if a.callsign ≠ call then (s, none)
    else
      let s := { s with accepted := none }
      if a.counted || a.afterLoss then (s, none)
      else
        match s.gaps.get? call with
        | none => (s, none)
        | some gap =>
          let gapS := if r.round (gap - easeS r) < leastS r then 0 else r.round (gap - easeS r)
          ({ s with gaps := if gapS ≤ 0 then s.gaps.erase call else s.gaps.insert call gapS },
            some ⟨call, gapS, "its call was accepted the first time"⟩)

end LearnedGaps

inductive GapCall (K : Type) where
  | remember (callsign : Text) (gapS : K)
  | accepted (callsign : Text) (atS : K)
  | probeAnswered (callsign : Text) (atS : K)
  | called (callsign : Text) (atS : K)
  | probed (callsign : Text) (atS : K)
  | sessionWentOn (callsign : Text)

namespace GapCall

def key : GapCall K → Text
  | remember callsign _ | accepted callsign _ | probeAnswered callsign _ | called callsign _ | probed callsign _
  | sessionWentOn callsign => gapKey callsign

def isAccepted : GapCall K → Bool
  | accepted .. => true
  | _ => false

def isProbeAnswered : GapCall K → Bool
  | probeAnswered .. => true
  | _ => false

def isCalled : GapCall K → Bool
  | called .. => true
  | _ => false

def isProbed : GapCall K → Bool
  | probed .. => true
  | _ => false

def isSessionWentOn : GapCall K → Bool
  | sessionWentOn .. => true
  | _ => false

end GapCall

/-- What a call returns, if it returns anything. -/
def LearnedGaps.call (r : Rounding K) (s : LearnedGaps K) : GapCall K → LearnedGaps K × Option (Learned K)
  | .remember callsign gapS => (s.remember callsign gapS, none)
  | .accepted callsign atS => (s.accept callsign atS, none)
  | .probeAnswered callsign atS => (s.probeAnswered callsign atS, none)
  | .called callsign atS => s.called r callsign atS
  | .probed callsign atS => s.probe r callsign atS
  | .sessionWentOn callsign => s.sessionWentOn r callsign

def LearnedGaps.step (r : Rounding K) (s : LearnedGaps K) (c : GapCall K) :
    LearnedGaps K × List (GapCall K × Option (Learned K)) :=
  ((s.call r c).1, [(c, (s.call r c).2)])

/-! ### What one call does -/

variable {r : Rounding K} {s : LearnedGaps K}

namespace LearnedGaps

/-- A loss counted is of an answer to the station asking again. -/
theorem lost_some {answered : Option (Answered K)} {call : Text} {atS again : K} {a : Answered K}
    (found : lost r answered call atS again = some a) :
    ∃ b, answered = some b ∧ b.callsign = call ∧ b.counted = false ∧ a = { b with counted := true } := by
  unfold lost at found
  cases answered with
  | none => cases found
  | some b =>
    dsimp only at found
    split at found
    · rename_i fresh
      exact ⟨b, rfl, fresh.1, fresh.2.1, (Option.some.inj found).symm⟩
    · cases found

/-- A gap raised, and that one only. -/
structure Raised (r : Rounding K) (s : LearnedGaps K) (call : Text) (done : LearnedGaps K × Option (Learned K)) : Prop where
  stored : done.1.gaps.get? call = some (min (r.round ((s.gaps.get? call).getD 0 + stepS)) mostS)
  others : ∀ k, k ≠ call → done.1.gaps.get? k = s.gaps.get? k
  told : ∃ why, done.2 = some ⟨call, min (r.round ((s.gaps.get? call).getD 0 + stepS)) mostS, why⟩

theorem raised (s s' : LearnedGaps K) (same : s'.gaps = s.gaps) (call : Text) (why : String) :
    Raised r s call (s'.raise r call why) where
  stored := by rw [raise, Keyed.get?_insert, if_pos rfl, same]
  others k other := by rw [raise, Keyed.get?_insert, if_neg other, same]
  told := ⟨why, by rw [raise, same]⟩

/-- A call heard: nothing, or the acceptance before it counted lost and the gap raised. -/
theorem called_cases (callsign : Text) (atS : K) :
    s.called r callsign atS = (s, none) ∨
    ∃ b, s.accepted = some b ∧ b.callsign = gapKey callsign ∧ b.counted = false ∧
      Raised r s (gapKey callsign) (s.called r callsign atS) ∧
      (s.called r callsign atS).1.accepted = some { b with counted := true } ∧
      (s.called r callsign atS).1.probed = s.probed := by
  unfold called
  split
  · rename_i a found
    obtain ⟨b, is, here, fresh, rfl⟩ := lost_some found
    exact .inr ⟨b, is, here, fresh, raised s { s with accepted := some { b with counted := true } } rfl _ _, rfl, rfl⟩
  · exact .inl rfl

theorem probe_cases (callsign : Text) (atS : K) :
    s.probe r callsign atS = (s, none) ∨
    ∃ b, s.probed = some b ∧ b.counted = false ∧ Raised r s (gapKey callsign) (s.probe r callsign atS) ∧
      (s.probe r callsign atS).1.probed = some { b with counted := true } ∧
      (s.probe r callsign atS).1.accepted = s.accepted := by
  unfold probe
  split
  · rename_i a found
    obtain ⟨b, is, -, fresh, rfl⟩ := lost_some found
    exact .inr ⟨b, is, fresh, raised s { s with probed := some { b with counted := true } } rfl _ _, rfl, rfl⟩
  · exact .inl rfl

/-- A gap lowered, and that one only: to what is told, or to none. -/
structure Lowered (r : Rounding K) (s : LearnedGaps K) (call : Text) (done : LearnedGaps K × Option (Learned K)) : Prop where
  lowered : ∃ gap why, s.gaps.get? call = some gap ∧
    ((r.round (gap - easeS r) < leastS r ∧ done.1.gaps.get? call = none ∧ done.2 = some ⟨call, 0, why⟩) ∨
      (leastS r ≤ r.round (gap - easeS r) ∧ done.1.gaps.get? call = some (r.round (gap - easeS r)) ∧
        done.2 = some ⟨call, r.round (gap - easeS r), why⟩))
  others : ∀ k, k ≠ call → done.1.gaps.get? k = s.gaps.get? k

theorem easeS_nonneg [IsStrictOrderedRing K] : 0 ≤ easeS r := by
  have thousandth : (1 / 1000 : K) ≤ 1 / 40 := one_div_le_one_div_of_le (by norm_num) (by norm_num)
  exact r.least.le.trans (r.monotone thousandth)

/-- A session heard of: an acceptance of another station's call stands; one of this station's is
taken, and the gap lowered if neither it nor one before it was lost. -/
theorem sessionWentOn_cases [IsStrictOrderedRing K] (callsign : Text) :
    let done := s.sessionWentOn r callsign;
    done.1.probed = s.probed ∧
    ((done = (s, none) ∧ ∀ a, s.accepted = some a → a.callsign ≠ gapKey callsign) ∨
      (done.1.accepted = none ∧ ∃ a, s.accepted = some a ∧ a.callsign = gapKey callsign ∧
        (done.1.gaps = s.gaps ∧ done.2 = none ∨
          a.counted = false ∧ a.afterLoss = false ∧ Lowered r s (gapKey callsign) done))) := by
  unfold sessionWentOn
  dsimp only
  cases heard : s.accepted with
  | none => exact ⟨rfl, .inl ⟨rfl, nofun⟩⟩
  | some a =>
    dsimp only
    by_cases here : a.callsign = gapKey callsign
    · rw [if_neg (not_not.mpr here)]
      cases lost_ : a.counted || a.afterLoss with
      | true => exact ⟨rfl, .inr ⟨rfl, a, rfl, here, .inl ⟨rfl, rfl⟩⟩⟩
      | false =>
        obtain ⟨counted, afterLoss⟩ := Bool.or_eq_false_iff.mp lost_
        rw [if_neg (by simp)]
        cases stored : s.gaps.get? (gapKey callsign) with
        | none => exact ⟨rfl, .inr ⟨rfl, a, rfl, here, .inl ⟨rfl, rfl⟩⟩⟩
        | some gap =>
          refine ⟨rfl, .inr ⟨rfl, a, rfl, here, .inr ⟨counted, afterLoss,
            ⟨gap, "its call was accepted the first time", stored, ?_⟩, fun k other => ?_⟩⟩⟩
          · dsimp only
            by_cases small : r.round (gap - easeS r) < leastS r
            · rw [if_pos small, if_pos le_rfl, Keyed.get?_erase, if_pos rfl]
              exact .inl ⟨small, rfl, rfl⟩
            · have least := not_lt.mp small
              rw [if_neg small, if_neg (not_le.mpr (r.least.trans_le least)), Keyed.get?_insert, if_pos rfl]
              exact .inr ⟨least, rfl, rfl⟩
          · dsimp only
            generalize (if r.round (gap - easeS r) < leastS r then 0 else r.round (gap - easeS r)) = gapS
            split
            · rw [Keyed.get?_erase, if_neg other]
            · rw [Keyed.get?_insert, if_neg other]
    · rw [if_pos here]
      refine ⟨rfl, .inl ⟨rfl, fun b is => ?_⟩⟩
      obtain rfl := Option.some.inj is
      exact here

/-- A call about one station changes no other's gap. -/
theorem call_others [IsStrictOrderedRing K] (s : LearnedGaps K) (c : GapCall K) {k : Text} (other : k ≠ c.key) :
    (s.call r c).1.gaps.get? k = s.gaps.get? k := by
  cases c with
  | remember callsign gapS =>
    have other : k ≠ gapKey callsign := other
    simp only [call, remember]
    split
    · rw [Keyed.get?_insert, if_neg other]
    · rfl
  | accepted callsign atS => rfl
  | probeAnswered callsign atS => rfl
  | called callsign atS =>
    rcases s.called_cases (r := r) callsign atS with none_ | ⟨b, -, -, -, raised, -⟩
    · simp only [call, none_]
    · exact raised.others k other
  | probed callsign atS =>
    rcases s.probe_cases (r := r) callsign atS with none_ | ⟨b, -, -, raised, -⟩
    · simp only [call, none_]
    · exact raised.others k other
  | sessionWentOn callsign =>
    obtain ⟨-, ⟨none_, -⟩ | ⟨-, a, -, -, ⟨same, -⟩ | ⟨-, -, lowered⟩⟩⟩ := s.sessionWentOn_cases (r := r) callsign
    · simp only [call, none_]
    · simp only [call, same]
    · exact lowered.others k other

/-- What a call tells of is its station's gap as it then stands, none where it was removed; and a
call that tells of nothing changes nothing. -/
theorem call_told [IsStrictOrderedRing K] (s : LearnedGaps K) (c : GapCall K) :
    (∀ l, (s.call r c).2 = some l → l.callsign = c.key ∧ l.gapS = ((s.call r c).1.gaps.get? c.key).getD 0) ∧
    ((s.call r c).2 = none → (∀ callsign gapS, c ≠ .remember callsign gapS) → (s.call r c).1.gaps = s.gaps) := by
  cases c with
  | remember callsign gapS => exact ⟨fun _ is => (by cases is), fun _ not_ => absurd rfl (not_ callsign gapS)⟩
  | accepted callsign atS => exact ⟨fun _ is => (by cases is), fun _ _ => rfl⟩
  | probeAnswered callsign atS => exact ⟨fun _ is => (by cases is), fun _ _ => rfl⟩
  | called callsign atS =>
    rcases s.called_cases (r := r) callsign atS with none_ | ⟨b, -, -, -, ⟨stored, -, why, told⟩, -⟩
    · simp only [call, none_]
      exact ⟨fun _ is => (by cases is), fun _ _ => trivial⟩
    · refine ⟨fun l is => ?_, fun none_ _ => ?_⟩
      · obtain rfl := Option.some.inj (told.symm.trans is)
        exact ⟨rfl, by simp only [call, GapCall.key, stored, Option.getD_some]⟩
      · cases told.symm.trans none_
  | probed callsign atS =>
    rcases s.probe_cases (r := r) callsign atS with none_ | ⟨b, -, -, ⟨stored, -, why, told⟩, -⟩
    · simp only [call, none_]
      exact ⟨fun _ is => (by cases is), fun _ _ => trivial⟩
    · refine ⟨fun l is => ?_, fun none_ _ => ?_⟩
      · obtain rfl := Option.some.inj (told.symm.trans is)
        exact ⟨rfl, by simp only [call, GapCall.key, stored, Option.getD_some]⟩
      · cases told.symm.trans none_
  | sessionWentOn callsign =>
    obtain ⟨-, ⟨none_, -⟩ | ⟨-, a, -, -, ⟨same, none_⟩ | ⟨-, -, ⟨gap, why, -, lowered⟩, -⟩⟩⟩ :=
      s.sessionWentOn_cases (r := r) callsign
    · simp only [call, none_]
      exact ⟨fun _ is => (by cases is), fun _ _ => trivial⟩
    · simp only [call, none_]
      exact ⟨fun _ is => (by cases is), fun _ _ => same⟩
    · rcases lowered with ⟨-, stored, told⟩ | ⟨-, stored, told⟩
      · refine ⟨fun l is => ?_, fun none_ _ => ?_⟩
        · obtain rfl := Option.some.inj (told.symm.trans is)
          exact ⟨rfl, by simp only [call, GapCall.key, stored, Option.getD_none]⟩
        · cases told.symm.trans none_
      · refine ⟨fun l is => ?_, fun none_ _ => ?_⟩
        · obtain rfl := Option.some.inj (told.symm.trans is)
          exact ⟨rfl, by simp only [call, GapCall.key, stored, Option.getD_some]⟩
        · cases told.symm.trans none_

/-- A loss told of raises the gap by one step, as far as the most. -/
theorem call_raises (s : LearnedGaps K) {c : GapCall K} (asks : c.isCalled = true ∨ c.isProbed = true) {l : Learned K}
    (told : (s.call r c).2 = some l) : l.gapS = min (r.round ((s.gaps.get? c.key).getD 0 + stepS)) mostS := by
  cases c with
  | called callsign atS =>
    rcases s.called_cases (r := r) callsign atS with none_ | ⟨b, -, -, -, ⟨-, -, why, is⟩, -⟩
    · simp only [call, none_, reduceCtorEq] at told
    · obtain rfl := Option.some.inj (is.symm.trans told)
      rfl
  | probed callsign atS =>
    rcases s.probe_cases (r := r) callsign atS with none_ | ⟨b, -, -, ⟨-, -, why, is⟩, -⟩
    · simp only [call, none_, reduceCtorEq] at told
    · obtain rfl := Option.some.inj (is.symm.trans told)
      rfl
  | _ => rcases asks with is | is <;> cases is

/-- Every gap stored is one to wait, and no longer than the most. -/
def Within (s : LearnedGaps K) : Prop := ∀ k gap, s.gaps.get? k = some gap → 0 < gap ∧ gap ≤ mostS

theorem Raised.within [IsStrictOrderedRing K] {call : Text} {done : LearnedGaps K × Option (Learned K)}
    (raised : Raised r s call done) (within : s.Within) : done.1.Within := by
  intro k gap found
  by_cases here : k = call
  · rw [here, raised.stored] at found
    obtain rfl := Option.some.inj found
    have before : 0 ≤ (s.gaps.get? call).getD 0 := by
      cases stored : s.gaps.get? call with
      | none => exact le_rfl
      | some gap => exact (within call gap stored).1.le
    have step : 0 < (stepS : K) := by unfold stepS; positivity
    have most : 0 < (mostS : K) := by unfold mostS; positivity
    have rounded : stepS ≤ r.round ((s.gaps.get? call).getD 0 + stepS) := by
      conv_lhs => rw [← r.step]
      exact r.monotone (le_add_of_nonneg_left before)
    exact ⟨lt_min (step.trans_le rounded) most, min_le_right ..⟩
  · rw [raised.others k here] at found
    exact within k gap found

theorem Within.call [IsStrictOrderedRing K] (within : s.Within) (c : GapCall K) : (s.call r c).1.Within := by
  have kept {s' : LearnedGaps K} (same : s'.gaps = s.gaps) : s'.Within := fun k gap found => within k gap (same ▸ found)
  cases c with
  | remember callsign gapS =>
    simp only [LearnedGaps.call, remember]
    split
    · rename_i positive
      intro k gap found
      rw [Keyed.get?_insert] at found
      split at found
      · obtain rfl := Option.some.inj found
        have most : 0 < (mostS : K) := by unfold mostS; positivity
        exact ⟨lt_min positive most, min_le_right ..⟩
      · exact within k gap found
    · exact within
  | accepted callsign atS => exact kept rfl
  | probeAnswered callsign atS => exact kept rfl
  | called callsign atS =>
    rcases s.called_cases (r := r) callsign atS with none_ | ⟨b, -, -, -, raised, -⟩
    · simp only [LearnedGaps.call, none_]
      exact within
    · exact raised.within within
  | probed callsign atS =>
    rcases s.probe_cases (r := r) callsign atS with none_ | ⟨b, -, -, raised, -⟩
    · simp only [LearnedGaps.call, none_]
      exact within
    · exact raised.within within
  | sessionWentOn callsign =>
    obtain ⟨-, ⟨none_, -⟩ | ⟨-, a, -, -, ⟨same, -⟩ | ⟨-, -, ⟨gap, why, stood, lowered⟩, others⟩⟩⟩ :=
      s.sessionWentOn_cases (r := r) callsign
    · simp only [LearnedGaps.call, none_]
      exact within
    · exact kept same
    · intro k gap' found
      by_cases here : k = gapKey callsign
      · rw [here] at found
        rcases lowered with ⟨-, stored, -⟩ | ⟨least, stored, -⟩
        · cases stored.symm.trans found
        · obtain rfl := Option.some.inj (stored.symm.trans found)
          refine ⟨r.least.trans_le least, ?_⟩
          conv_rhs => rw [← r.most]
          exact r.monotone ((sub_le_self gap easeS_nonneg).trans (within _ gap stood).2)
      · exact within k gap' ((others k here).symm.trans found)

/-! ### Many calls -/

/-- The gaps after calls, from none learned. -/
def after (r : Rounding K) (calls : List (GapCall K)) : LearnedGaps K := (Stream.run (step r) default_ calls).1

def told (r : Rounding K) (s : LearnedGaps K) (calls : List (GapCall K)) : List (GapCall K × Option (Learned K)) :=
  (Stream.run (step r) s calls).2

theorem after_concat (r : Rounding K) (calls : List (GapCall K)) (c : GapCall K) :
    after r (calls ++ [c]) = ((after r calls).call r c).1 := by
  rw [after, Stream.run_append]
  rfl

theorem within_after [IsStrictOrderedRing K] (r : Rounding K) (calls : List (GapCall K)) : (after r calls).Within := by
  induction calls using List.reverseRecOn with
  | nil => exact nofun
  | append_singleton calls c ih =>
    rw [after_concat]
    exact ih.call c

/-- A call that raised a gap, or a session that lowered one. -/
def changed_ (kind : GapCall K → Bool) (entry : GapCall K × Option (Learned K)) : Bool := kind entry.1 && entry.2.isSome

theorem countP_step (kind : GapCall K → Bool) (s : LearnedGaps K) (c : GapCall K) :
    (step r s c).2.countP (changed_ kind) = if kind c && (s.call r c).2.isSome then 1 else 0 := by
  rw [step, List.countP_singleton]
  rfl

/-- What becomes of the acceptance watched, at any call but another acceptance: it stands and the
call says nothing of it; or it is counted lost; or it is taken. -/
theorem accepted_cases [IsStrictOrderedRing K] (r : Rounding K) (s : LearnedGaps K) {c : GapCall K} (other : c.isAccepted = false) :
    ((s.call r c).1.accepted = s.accepted ∧ (c.isCalled = true → (s.call r c).2 = none) ∧
      (c.isSessionWentOn = true → (s.call r c).2 = none ∧ ∀ a, s.accepted = some a → a.callsign ≠ c.key)) ∨
    (c.isCalled = true ∧ c.isSessionWentOn = false ∧ (s.call r c).2.isSome = true ∧ ∃ b, s.accepted = some b ∧
      b.callsign = c.key ∧ b.counted = false ∧ (s.call r c).1.accepted = some { b with counted := true }) ∨
    (c.isSessionWentOn = true ∧ c.isCalled = false ∧ (s.call r c).1.accepted = none ∧ ∃ a, s.accepted = some a ∧
      a.callsign = c.key ∧ ((s.call r c).2.isSome = true → a.counted = false ∧ a.afterLoss = false)) := by
  cases c with
  | remember callsign gapS =>
    refine .inl ⟨?_, fun hit => (by cases hit), fun hit => (by cases hit)⟩
    simp only [call, remember]
    split <;> rfl
  | accepted callsign atS => cases other
  | probeAnswered callsign atS => exact .inl ⟨rfl, fun hit => (by cases hit), fun hit => (by cases hit)⟩
  | called callsign atS =>
    rcases s.called_cases (r := r) callsign atS with none_ | ⟨b, is, here, fresh, ⟨-, -, why, told⟩, counted, -⟩
    · simp only [call, none_]
      exact .inl ⟨trivial, fun _ => trivial, fun hit => (by cases hit)⟩
    · refine .inr (.inl ⟨rfl, rfl, ?_, b, is, here, fresh, counted⟩)
      simp only [call, told, Option.isSome_some]
  | probed callsign atS =>
    refine .inl ⟨?_, fun hit => (by cases hit), fun hit => (by cases hit)⟩
    rcases s.probe_cases (r := r) callsign atS with none_ | ⟨b, -, -, -, -, same⟩
    · simp only [call, none_]
    · exact same
  | sessionWentOn callsign =>
    obtain ⟨-, ⟨none_, others⟩ | ⟨taken, a, is, here, said⟩⟩ := s.sessionWentOn_cases (r := r) callsign
    · simp only [call, none_]
      exact .inl ⟨trivial, fun _ => trivial, fun _ => ⟨trivial, others⟩⟩
    · refine .inr (.inr ⟨rfl, rfl, taken, a, is, here, fun some_ => ?_⟩)
      rcases said with ⟨-, none_⟩ | ⟨counted, afterLoss, -⟩
      · simp only [call, none_, Option.isSome_none, Bool.false_eq_true] at some_
      · exact ⟨counted, afterLoss⟩

theorem probed_cases [IsStrictOrderedRing K] (r : Rounding K) (s : LearnedGaps K) {c : GapCall K} (other : c.isProbeAnswered = false) :
    ((s.call r c).1.probed = s.probed ∧ (c.isProbed = true → (s.call r c).2 = none)) ∨
    (c.isProbed = true ∧ (s.call r c).2.isSome = true ∧ ∃ b, s.probed = some b ∧ b.counted = false ∧
      (s.call r c).1.probed = some { b with counted := true }) := by
  cases c with
  | remember callsign gapS =>
    refine .inl ⟨?_, fun hit => (by cases hit)⟩
    simp only [call, remember]
    split <;> rfl
  | accepted callsign atS => exact .inl ⟨rfl, fun hit => (by cases hit)⟩
  | probeAnswered callsign atS => cases other
  | called callsign atS =>
    refine .inl ⟨?_, fun hit => (by cases hit)⟩
    rcases s.called_cases (r := r) callsign atS with none_ | ⟨b, -, -, -, -, -, same⟩
    · simp only [call, none_]
    · exact same
  | probed callsign atS =>
    rcases s.probe_cases (r := r) callsign atS with none_ | ⟨b, is, fresh, ⟨-, -, why, told⟩, counted, -⟩
    · simp only [call, none_]
      exact .inl ⟨trivial, fun _ => trivial⟩
    · refine .inr ⟨rfl, ?_, b, is, fresh, counted⟩
      simp only [call, told, Option.isSome_some]
  | sessionWentOn callsign => exact .inl ⟨(s.sessionWentOn_cases (r := r) callsign).1, fun hit => (by cases hit)⟩

/-- An answer that has been counted lost, or is no longer watched. -/
def Spent (answered : Option (Answered K)) : Prop := ∀ a, answered = some a → a.counted = true

omit [Field K] [LinearOrder K] in
theorem spent_fresh {b : Answered K} (spent : Spent (some b)) (fresh : b.counted = false) : False := by
  rw [spent b rfl] at fresh
  cases fresh

omit [Field K] [LinearOrder K] in
theorem spent_counted (b : Answered K) : Spent (some { b with counted := true }) := by
  intro a is
  obtain rfl := Option.some.inj is
  rfl

/-- Between two acceptances one call at most raises a gap. -/
theorem called_once [IsStrictOrderedRing K] (r : Rounding K) (s : LearnedGaps K) {calls : List (GapCall K)}
    (between : ∀ c ∈ calls, c.isAccepted = false) : (told r s calls).countP (changed_ GapCall.isCalled) ≤ 1 := by
  refine (Stream.run_once (fun s : LearnedGaps K => Spent s.accepted) (fun {s c} other spent => ?_)
    (fun {s c} other => ?_) between s).2
  · rw [countP_step]
    rcases accepted_cases r s other with ⟨same, silent, -⟩ | ⟨-, -, -, b, is, -, fresh, -⟩ | ⟨-, not_, taken, -⟩
    · refine ⟨by rw [step, same]; exact spent, if_neg fun hit => ?_⟩
      obtain ⟨called, some_⟩ := Bool.and_eq_true_iff.mp hit
      rw [silent called] at some_
      cases some_
    · exact (spent_fresh (is ▸ spent) fresh).elim
    · exact ⟨by rw [step, taken]; exact nofun, by simp [not_]⟩
  · rw [countP_step]
    rcases accepted_cases r s other with ⟨-, silent, -⟩ | ⟨called, -, some_, b, -, -, -, counted⟩ | ⟨-, not_, -⟩
    · refine .inl (if_neg fun hit => ?_)
      obtain ⟨called, some_⟩ := Bool.and_eq_true_iff.mp hit
      rw [silent called] at some_
      cases some_
    · exact .inr ⟨by simp [called, some_], by rw [step, counted]; exact spent_counted b⟩
    · exact .inl (by simp [not_])

theorem probed_once [IsStrictOrderedRing K] (r : Rounding K) (s : LearnedGaps K) {calls : List (GapCall K)}
    (between : ∀ c ∈ calls, c.isProbeAnswered = false) : (told r s calls).countP (changed_ GapCall.isProbed) ≤ 1 := by
  refine (Stream.run_once (fun s : LearnedGaps K => Spent s.probed) (fun {s c} other spent => ?_)
    (fun {s c} other => ?_) between s).2
  · rw [countP_step]
    rcases probed_cases r s other with ⟨same, silent⟩ | ⟨-, -, b, is, fresh, -⟩
    · refine ⟨by rw [step, same]; exact spent, if_neg fun hit => ?_⟩
      obtain ⟨probed, some_⟩ := Bool.and_eq_true_iff.mp hit
      rw [silent probed] at some_
      cases some_
    · exact (spent_fresh (is ▸ spent) fresh).elim
  · rw [countP_step]
    rcases probed_cases r s other with ⟨-, silent⟩ | ⟨probed, some_, b, -, -, counted⟩
    · refine .inl (if_neg fun hit => ?_)
      obtain ⟨probed, some_⟩ := Bool.and_eq_true_iff.mp hit
      rw [silent probed] at some_
      cases some_
    · exact .inr ⟨by simp [probed, some_], by rw [step, counted]; exact spent_counted b⟩

/-- Between two acceptances one session at most lowers a gap, and none does without an acceptance. -/
theorem session_once [IsStrictOrderedRing K] (r : Rounding K) (s : LearnedGaps K) {calls : List (GapCall K)}
    (between : ∀ c ∈ calls, c.isAccepted = false) :
    (s.accepted = none → (told r s calls).countP (changed_ GapCall.isSessionWentOn) = 0) ∧
      (told r s calls).countP (changed_ GapCall.isSessionWentOn) ≤ 1 := by
  refine Stream.run_once (fun s : LearnedGaps K => s.accepted = none) (fun {s c} other taken => ?_)
    (fun {s c} other => ?_) between s
  · rw [countP_step]
    rcases accepted_cases r s other with ⟨same, -, silent⟩ | ⟨-, -, -, b, is, -⟩ | ⟨-, -, -, a, is, -⟩
    · refine ⟨by rw [step, same]; exact taken, if_neg fun hit => ?_⟩
      obtain ⟨session, some_⟩ := Bool.and_eq_true_iff.mp hit
      rw [(silent session).1] at some_
      cases some_
    · cases taken.symm.trans is
    · cases taken.symm.trans is
  · rw [countP_step]
    rcases accepted_cases r s other with ⟨-, -, silent⟩ | ⟨-, not_, -⟩ | ⟨session, -, taken, -⟩
    · refine .inl (if_neg fun hit => ?_)
      obtain ⟨session, some_⟩ := Bool.and_eq_true_iff.mp hit
      rw [(silent session).1] at some_
      cases some_
    · exact .inl (by simp [not_])
    · cases (s.call r c).2.isSome with
      | false => exact .inl (by simp)
      | true => exact .inr ⟨by simp [session], taken⟩

/-- Of a run of calls, an unbroken exchange with a station: from an acceptance of its call, every
acceptance of its calls, and no frame of a session with it. -/
def Exchange (key : Text) (calls : List (GapCall K)) : Prop :=
  (∃ callsign atS rest, calls = .accepted callsign atS :: rest ∧ gapKey callsign = key) ∧
    ∀ c ∈ calls, (c.isAccepted = true → c.key = key) ∧ (c.isSessionWentOn = true → c.key ≠ key)

/-- Throughout an exchange the last acceptance of it is watched, and remembers what was lost. -/
theorem exchange_watched [IsStrictOrderedRing K] (r : Rounding K) (s : LearnedGaps K) {key : Text} {calls : List (GapCall K)}
    (exchange : Exchange key calls) : ∃ a, (Stream.run (step r) s calls).1.accepted = some a ∧ a.callsign = key ∧
      ((∃ entry ∈ told r s calls, changed_ GapCall.isCalled entry = true) → a.counted = true ∨ a.afterLoss = true) := by
  obtain ⟨⟨callsign, atS, rest, rfl, rfl⟩, each⟩ := exchange
  induction rest using List.reverseRecOn with
  | nil =>
    refine ⟨_, rfl, rfl, ?_⟩
    rintro ⟨entry, member, hit⟩
    obtain rfl := List.mem_singleton.mp member
    cases hit
  | append_singleton rest c ih =>
    rw [← List.cons_append] at each
    obtain ⟨a, watched, here, lost_⟩ := ih fun c' member => each c' (List.mem_append_left _ member)
    obtain ⟨sameKey, noSession⟩ := each c (List.mem_append_right _ (List.mem_singleton.mpr rfl))
    unfold told at lost_ ⊢
    rw [← List.cons_append, Stream.run_append]
    generalize Stream.run (step r) s (.accepted callsign atS :: rest) = ran at watched lost_
    have before (silent : c.isCalled = true → (ran.1.call r c).2 = none) :
        (∃ entry ∈ ran.2 ++ (Stream.run (step r) ran.1 [c]).2, changed_ GapCall.isCalled entry = true) →
          a.counted = true ∨ a.afterLoss = true := by
      rintro ⟨entry, member, hit⟩
      rcases List.mem_append.mp member with earlier | last
      · exact lost_ ⟨entry, earlier, hit⟩
      · obtain rfl := List.mem_singleton.mp last
        obtain ⟨called, some_⟩ := Bool.and_eq_true_iff.mp hit
        rw [silent called] at some_
        cases some_
    cases again : c.isAccepted with
    | true =>
      cases c with
      | accepted callsign' atS' =>
        have same : gapKey callsign' = gapKey callsign := sameKey rfl
        refine ⟨_, rfl, same, fun hit => .inr ?_⟩
        simpa [watched, here, same] using before nofun hit
      | _ => cases again
    | false =>
      rcases accepted_cases r ran.1 again with ⟨stands, silent, -⟩ | ⟨-, -, -, b, is, at_, -, counted⟩ |
        ⟨session, -, -, b, is, at_, -⟩
      · exact ⟨a, stands.trans watched, here, before silent⟩
      · obtain rfl := Option.some.inj (watched.symm.trans is)
        exact ⟨_, counted, here, fun _ => .inl rfl⟩
      · obtain rfl := Option.some.inj (watched.symm.trans is)
        exact absurd (at_.symm.trans here) (noSession session)

/-- So a session lowers no gap after an exchange with a loss in it. -/
theorem exchange_clean [IsStrictOrderedRing K] (r : Rounding K) (s : LearnedGaps K) {calls : List (GapCall K)}
    {callsign : Text} (exchange : Exchange (gapKey callsign) calls)
    (lost_ : ∃ entry ∈ told r s calls, changed_ GapCall.isCalled entry = true) :
    ((Stream.run (step r) s calls).1.sessionWentOn r callsign).2 = none := by
  obtain ⟨a, watched, here, flagged⟩ := exchange_watched r s exchange
  obtain ⟨-, ⟨none_, -⟩ | ⟨-, b, is, -, ⟨-, none_⟩ | ⟨counted, afterLoss, -⟩⟩⟩ :=
    (Stream.run (step r) s calls).1.sessionWentOn_cases (r := r) callsign
  · rw [none_]
  · exact none_
  · obtain rfl := Option.some.inj (watched.symm.trans is)
    rcases flagged lost_ with is | is
    · cases counted.symm.trans is
    · cases afterLoss.symm.trans is

end LearnedGaps

open LearnedGaps

/-- The learned gaps move on evidence only: after any calls every gap is within its bounds; another
call moves its own station's alone, tells of it as it then stands and raises it by one step; between
two acceptances (answers to probes) one call (one probe) at most raises a gap and one session at most
lowers one; and no session does after an exchange in which an acceptance was counted lost. -/
theorem gaps_on_evidence [IsStrictOrderedRing K] (r : Rounding K) (calls : List (GapCall K)) :
    let s := after r calls;
    s.Within ∧
    (∀ c k, k ≠ GapCall.key c → (s.call r c).1.gaps.get? k = s.gaps.get? k) ∧
    (∀ c l, (s.call r c).2 = some l → l.callsign = c.key ∧ l.gapS = ((s.call r c).1.gaps.get? c.key).getD 0) ∧
    (∀ c l, (s.call r c).2 = some l → c.isCalled = true ∨ c.isProbed = true →
      l.gapS = min (r.round ((s.gaps.get? c.key).getD 0 + stepS)) mostS) ∧
    (∀ c, (s.call r c).2 = none → (∀ callsign gapS, c ≠ .remember callsign gapS) → (s.call r c).1.gaps = s.gaps) ∧
    (∀ more : List (GapCall K), (∀ c ∈ more, c.isProbeAnswered = false) →
      (told r s more).countP (changed_ GapCall.isProbed) ≤ 1) ∧
    (∀ more : List (GapCall K), (∀ c ∈ more, c.isAccepted = false) →
      (told r s more).countP (changed_ GapCall.isCalled) ≤ 1 ∧
      (told r s more).countP (changed_ GapCall.isSessionWentOn) ≤ 1 ∧
      (calls = [] → (told r s more).countP (changed_ GapCall.isSessionWentOn) = 0)) ∧
    ∀ (callsign : Text) (more : List (GapCall K)), Exchange (gapKey callsign) more →
      (∃ entry ∈ told r s more, changed_ GapCall.isCalled entry = true) →
      ((Stream.run (step r) s more).1.sessionWentOn r callsign).2 = none := by
  intro s
  refine ⟨within_after r calls, fun c k => call_others s c, fun c l => (call_told s c).1 l,
    fun c l told asks => call_raises s asks told, fun c => (call_told s c).2, fun more => probed_once r s,
    fun more between => ⟨called_once r s between, (session_once r s between).2, ?_⟩,
    fun callsign more => exchange_clean r s⟩
  rintro rfl
  exact (session_once r s between).1 rfl

def exactly : Rounding ℚ := ⟨id, monotone_id, rfl, rfl, by norm_num⟩

/-- A call accepted, heard again and accepted again: the session that comes up lowers nothing. -/
theorem gaps_on_evidence_twice : (((Stream.run (step exactly) (after exactly [])
    [.accepted "ND1J".toList 0, .called "ND1J".toList 7, .accepted "ND1J".toList 7]).1.sessionWentOn exactly "ND1J".toList)).2 =
      none := by
  refine (gaps_on_evidence exactly []).2.2.2.2.2.2.2 "ND1J".toList _ ⟨⟨_, _, _, rfl, rfl⟩, ?_⟩ ?_
  · decide
  · decide +kernel

end AetherHF.Daemon
