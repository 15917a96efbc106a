import Mathlib.Data.List.Infix
import Mathlib.Data.Set.Insert
import Mathlib.Logic.Function.Basic
import Mathlib.Logic.Relation

/-! Selective repeat, seen from above. A sender cuts its stream into blocks, never more
than a window of them past the first it holds unacknowledged; a receiver holds blocks
out of order and passes them on in order; a block is acknowledged only by what the
receiver knows. Blocks are numbered without end here; the last section says when
numbers modulo `M` tell them apart. -/
namespace AetherHF.SelectiveRepeat

variable {β : Type*}

/-- Both ends of a stream. -/
structure Stream (β : Type*) where
  /-- Every block cut, in order. -/
  sent : List β := []
  /-- All below it are acknowledged. -/
  base : ℕ := 0
  acked : Set ℕ := ∅
  /-- How many the receiver has passed on. -/
  got : ℕ := 0
  held : ℕ → Option β := fun _ => none

namespace Stream

variable (s : Stream β)

/-- The receiver has passed the block on, or holds it. -/
def Known (k : ℕ) : Prop := k < s.got ∨ (s.held k).isSome = true

/-- Nothing held is due. -/
def Settled : Prop := s.held s.got = none

def passedOn : List β := s.sent.take s.got

def cut (b : β) : Stream β := { s with sent := s.sent ++ [b] }

def mark (ks : Set ℕ) : Stream β := { s with acked := s.acked ∪ ks }

def release : Stream β := { s with base := s.base + 1 }

def hold (k : ℕ) (b : β) : Stream β := { s with held := Function.update s.held k (some b) }

def deliver : Stream β := { s with got := s.got + 1, held := Function.update s.held s.got none }

end Stream

/-- One step of either end, with a window of `W` blocks. -/
inductive Step (W : ℕ) (s : Stream β) : Stream β → Prop
  | cut (b : β) (room : s.sent.length < s.base + W) : Step W s (s.cut b)
  | mark (ks : Set ℕ) (known : ∀ k ∈ ks, s.Known k) : Step W s (s.mark ks)
  | release (marked : s.base ∈ s.acked) (settled : s.Settled) : Step W s s.release
  | hold (k : ℕ) (b : β) (copy : s.sent[k]? = some b) (due : s.got ≤ k) : Step W s (s.hold k b)
  | deliver (turn : (s.held s.got).isSome = true) : Step W s s.deliver

abbrev Steps (W : ℕ) : Stream β → Stream β → Prop := Relation.ReflTransGen (Step W)

/-- The two ends agree. -/
structure Inv (W : ℕ) (s : Stream β) : Prop where
  behind : s.base ≤ s.got
  ahead : s.got ≤ s.sent.length
  room : s.sent.length ≤ s.base + W
  held : ∀ k b, s.held k = some b → s.got ≤ k ∧ s.sent[k]? = some b
  acked : ∀ k ∈ s.acked, s.Known k

variable {W : ℕ} {s s' : Stream β}

theorem Inv.start : Inv W ({} : Stream β) where
  behind := le_rfl
  ahead := le_rfl
  room := Nat.zero_le _
  held _ _ none_ := by cases none_
  acked _ none_ := none_.elim

/-! ### What a step keeps -/

/-- What the receiver knows it goes on knowing. -/
theorem Step.known (step : Step W s s') {k : ℕ} (known : s.Known k) : s'.Known k := by
  cases step with
  | cut b room => exact known
  | mark ks marked => exact known
  | release marked settled => exact known
  | hold j b copy due =>
    refine known.imp id fun held => ?_
    by_cases same : k = j
    · simp [Stream.hold, same]
    · simpa [Stream.hold, Function.update_of_ne same] using held
  | deliver turn =>
    rcases known with below | held
    · exact .inl (Nat.lt_succ_of_lt below)
    · by_cases same : k = s.got
      · exact .inl (by simp [Stream.deliver, same])
      · exact .inr (by simpa [Stream.deliver, Function.update_of_ne same] using held)

theorem Step.got_le (step : Step W s s') : s.got ≤ s'.got := by
  cases step with
  | deliver turn => exact Nat.le_succ _
  | _ => exact le_rfl

theorem Step.base_le (step : Step W s s') : s.base ≤ s'.base := by
  cases step with
  | release marked settled => exact Nat.le_succ _
  | _ => exact le_rfl

theorem Step.acked_subset (step : Step W s s') : s.acked ⊆ s'.acked := by
  cases step with
  | mark ks known => exact Set.subset_union_left
  | _ => exact subset_rfl

theorem Step.sent_prefix (step : Step W s s') : s.sent <+: s'.sent := by
  cases step with
  | cut b room => exact List.prefix_append _ _
  | mark ks marked => exact List.prefix_rfl
  | release marked settled => exact List.prefix_rfl
  | hold k b copy due => exact List.prefix_rfl
  | deliver turn => exact List.prefix_rfl

theorem Inv.held_lt (inv : Inv W s) {k : ℕ} (held : (s.held k).isSome = true) : k < s.sent.length := by
  obtain ⟨b, is⟩ := Option.isSome_iff_exists.mp held
  exact (List.getElem?_eq_some_iff.mp (inv.held k b is).2).1

theorem Inv.known_lt (inv : Inv W s) {k : ℕ} (known : s.Known k) : k < s.sent.length :=
  known.elim (fun below => below.trans_le inv.ahead) inv.held_lt

/-- A block held is in the receiver's window. -/
theorem Inv.held_window (inv : Inv W s) {k : ℕ} (held : (s.held k).isSome = true) :
    s.got ≤ k ∧ k < s.got + W := by
  obtain ⟨b, is⟩ := Option.isSome_iff_exists.mp held
  have last := inv.held_lt held
  have room := inv.room
  have behind := inv.behind
  exact ⟨(inv.held k b is).1, by omega⟩

theorem Inv.step (inv : Inv W s) (step : Step W s s') : Inv W s' := by
  have known (k : ℕ) (marked : k ∈ s.acked) : s'.Known k := step.known (inv.acked k marked)
  cases step with
  | cut b room =>
    refine ⟨inv.behind, ?_, ?_, fun k c held => ⟨(inv.held k c held).1, ?_⟩, known⟩
    · simp only [Stream.cut, List.length_append, List.length_singleton]
      exact inv.ahead.trans (Nat.le_succ _)
    · simp only [Stream.cut, List.length_append, List.length_singleton]
      exact room
    · have copy := (inv.held k c held).2
      rw [Stream.cut, List.getElem?_append_left (List.getElem?_eq_some_iff.mp copy).1]
      exact copy
  | mark ks marked =>
    refine ⟨inv.behind, inv.ahead, inv.room, inv.held, fun k either => ?_⟩
    exact either.elim (known k) (marked k)
  | release marked settled =>
    have below : s.base < s.got := by
      rcases inv.acked _ marked with below | held
      · exact below
      · have due := (inv.held_window held).1
        have here : s.base = s.got := le_antisymm inv.behind due
        rw [here, settled] at held
        cases held
    exact ⟨below, inv.ahead, inv.room.trans (by simp only [Stream.release]; omega), inv.held, known⟩
  | hold k b copy due =>
    refine ⟨inv.behind, inv.ahead, inv.room, fun j c held => ?_, known⟩
    by_cases same : j = k
    · subst same
      simp only [Stream.hold, Function.update_self, Option.some.injEq] at held
      exact ⟨due, held ▸ copy⟩
    · simp only [Stream.hold, Function.update_of_ne same] at held
      exact inv.held j c held
  | deliver turn =>
    have last := inv.held_lt turn
    refine ⟨inv.behind.trans (Nat.le_succ _), last, inv.room, fun j c held => ?_, known⟩
    by_cases same : j = s.got
    · simp [Stream.deliver, same] at held
    · simp only [Stream.deliver, Function.update_of_ne same] at held
      obtain ⟨due, copy⟩ := inv.held j c held
      exact ⟨lt_of_le_of_ne due (Ne.symm same), copy⟩

/-! ### Runs -/

theorem Inv.steps (inv : Inv W s) (steps : Steps W s s') : Inv W s' := by
  induction steps with
  | refl => exact inv
  | tail _ step ih => exact ih.step step

theorem Steps.known (steps : Steps W s s') {k : ℕ} (known : s.Known k) : s'.Known k := by
  induction steps with
  | refl => exact known
  | tail _ step ih => exact step.known ih

theorem Steps.got_le (steps : Steps W s s') : s.got ≤ s'.got := by
  induction steps with
  | refl => exact le_rfl
  | tail _ step ih => exact ih.trans step.got_le

theorem Steps.base_le (steps : Steps W s s') : s.base ≤ s'.base := by
  induction steps with
  | refl => exact le_rfl
  | tail _ step ih => exact ih.trans step.base_le

theorem Steps.acked_subset (steps : Steps W s s') : s.acked ⊆ s'.acked := by
  induction steps with
  | refl => exact subset_rfl
  | tail _ step ih => exact ih.trans step.acked_subset

theorem Steps.sent_prefix (steps : Steps W s s') : s.sent <+: s'.sent := by
  induction steps with
  | refl => exact List.prefix_rfl
  | tail _ step ih => exact ih.trans step.sent_prefix

theorem Steps.sent_get (steps : Steps W s s') {k : ℕ} {b : β} (sent : s.sent[k]? = some b) :
    s'.sent[k]? = some b := by
  obtain ⟨more, longer⟩ := steps.sent_prefix
  rw [← longer, List.getElem?_append_left (List.getElem?_eq_some_iff.mp sent).1]
  exact sent

/-- What the receiver passed on is the first of what was cut. -/
theorem Stream.passedOn_prefix (s : Stream β) : s.passedOn <+: s.sent := List.take_prefix _ _

/-- Only a delivery passes anything on. -/
theorem Inv.passedOn_same (inv : Inv W s) (steps : Steps W s s') (got : s'.got = s.got) :
    s'.passedOn = s.passedOn := by
  obtain ⟨more, longer⟩ := steps.sent_prefix
  unfold Stream.passedOn
  rw [got, ← longer, List.take_append_of_le_length inv.ahead]

/-- Once every block is acknowledged, every block has been passed on. -/
theorem Inv.all_acked (inv : Inv W s) (settled : s.Settled)
    (all : ∀ k, s.base ≤ k → k < s.sent.length → k ∈ s.acked) : s.got = s.sent.length := by
  by_contra short
  have more : s.got < s.sent.length := lt_of_le_of_ne inv.ahead short
  rcases inv.acked _ (all s.got inv.behind more) with below | held
  · exact lt_irrefl _ below
  · rw [settled] at held
    cases held

/-! ### Numbers modulo `M` -/

section

variable {M d : ℤ}

/-- A difference no further back than `M - W` is in the window exactly when it looks so. -/
theorem emod_lt_window {W : ℤ} (low : W - M ≤ d) (high : d < M) (least : 0 ≤ W) :
    d % M < W ↔ 0 ≤ d ∧ d < W := by
  by_cases ahead : 0 ≤ d
  · rw [Int.emod_eq_of_lt ahead high]
    exact ⟨fun near => ⟨ahead, near⟩, And.right⟩
  · have round : d % M = d + M := by
      rw [← Int.add_emod_right, Int.emod_eq_of_lt (by omega) (by omega)]
    rw [round]
    omega

end

end AetherHF.SelectiveRepeat
