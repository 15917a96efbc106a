import AetherHF.Base.Stream

/-! Monitors of what passes between a machine and its surroundings: what the surroundings
are trusted to do, and what the machine then owes. -/
namespace AetherHF

/-- A monitor, state by state. -/
structure Monitor (σ ε : Type*) where
  /-- What the surroundings may do here. -/
  expects : σ → ε → Prop
  /-- What the machine may do here. -/
  permits : σ → ε → Prop
  enter : σ → ε → σ

namespace Monitor

variable {σ ε τ α : Type*} (m : Monitor σ ε)

/-- Along the entries, as far as each was expected, each is permitted, and `P` holds after
the last. -/
def Keeps (P : σ → Prop) : σ → List ε → Prop
  | x, [] => P x
  | x, e :: rest => m.expects x e → m.permits x e ∧ Keeps P (m.enter x e) rest

/-- Monitors can be run. -/
instance Keeps.decidable [∀ x, DecidablePred (m.expects x)] [∀ x, DecidablePred (m.permits x)] (P : σ → Prop)
    [DecidablePred P] : ∀ x xs, Decidable (m.Keeps P x xs)
  | x, [] => inferInstanceAs (Decidable (P x))
  | x, e :: rest =>
    have := Keeps.decidable P (m.enter x e) rest
    inferInstanceAs (Decidable (m.expects x e → m.permits x e ∧ m.Keeps P (m.enter x e) rest))

variable {m} {P Q : σ → Prop} {x : σ} {xs ys : List ε}

@[simp] theorem keeps_nil : m.Keeps P x [] ↔ P x := Iff.rfl

theorem keeps_cons {e : ε} :
    m.Keeps P x (e :: xs) ↔ (m.expects x e → m.permits x e ∧ m.Keeps P (m.enter x e) xs) := Iff.rfl

theorem keeps_append : m.Keeps P x (xs ++ ys) ↔ m.Keeps (fun y => m.Keeps P y ys) x xs := by
  induction xs generalizing x with
  | nil => rfl
  | cons e rest ih =>
    rw [List.cons_append, keeps_cons, keeps_cons]
    exact imp_congr_right fun _ => and_congr_right fun _ => ih

theorem Keeps.mono (h : m.Keeps P x xs) (weaker : ∀ y, P y → Q y) : m.Keeps Q x xs := by
  induction xs generalizing x with
  | nil => exact weaker x h
  | cons e rest ih => exact fun expected => ⟨(h expected).1, ih (h expected).2⟩

/-- One stretch after another. -/
theorem Keeps.trans (h : m.Keeps P x xs) (next : ∀ y, P y → m.Keeps Q y ys) : m.Keeps Q x (xs ++ ys) :=
  keeps_append.mpr (h.mono next)

/-- What another monitor keeps, where it expects as much. -/
theorem Keeps.along {σ' : Type*} {m' : Monitor σ' ε} {C : Prop} {y : σ'} (h : m.Keeps P x xs)
    (also : m'.Keeps (fun _ => C) y xs) (expects : ∀ x y e, m.expects x e → m'.expects y e) :
    m.Keeps (fun z => P z ∧ C) x xs := by
  induction xs generalizing x y with
  | nil => exact ⟨h, also⟩
  | cons e rest ih =>
    intro expected
    exact ⟨(h expected).1, ih (h expected).2 (also (expects x y e expected)).2⟩

/-- Along the entries the surroundings do what is expected. -/
def Expected (m : Monitor σ ε) : σ → List ε → Prop
  | _, [] => True
  | x, e :: rest => m.expects x e ∧ m.Expected (m.enter x e) rest

instance Expected.decidable [∀ x, DecidablePred (m.expects x)] : ∀ x xs, Decidable (m.Expected x xs)
  | _, [] => .isTrue trivial
  | x, e :: rest =>
    have := Expected.decidable (m.enter x e) rest
    inferInstanceAs (Decidable (m.expects x e ∧ m.Expected (m.enter x e) rest))

/-- Where everything is expected, what is kept holds of the account of all of it. -/
theorem Keeps.reached (h : m.Keeps P x xs) (expected : m.Expected x xs) : P (xs.foldl m.enter x) := by
  induction xs generalizing x with
  | nil => exact h
  | cons e rest ih => exact ih (h expected.1).2 expected.2

/-- A machine whose steps each keep a relation with the monitor. -/
theorem keeps_run {R : τ → σ → Prop} {step : τ → α → τ × List ε}
    (kept : ∀ {s x}, R s x → ∀ a, m.Keeps (R (step s a).1) x (step s a).2) {s : τ} (related : R s x)
    (inputs : List α) : m.Keeps (R (Stream.run step s inputs).1) x (Stream.run step s inputs).2 := by
  induction inputs generalizing s x with
  | nil => exact related
  | cons a rest ih =>
    rw [Stream.run_cons]
    exact (kept related a).trans fun y related' => ih related'

end Monitor

end AetherHF
