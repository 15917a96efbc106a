import AetherHF.Link.Granted.Receiving

/-! The receiver's buffers: every number they are kept under is of the window that
starts at the next block to deliver. -/
namespace AetherHF.Link

theorem seqDistance_self (s : UInt8) : seqDistance s s = 0 := by simp [seqDistance]

theorem seqDistance_pos {s base : UInt8} (apart : s ≠ base) : 0 < seqDistance s base := by
  rw [seqDistance, Nat.pos_iff_ne_zero]
  intro zero
  apply apart
  have same : s - base = 0 := UInt8.toNat_inj.mp zero
  rw [← UInt8.sub_add_cancel s base, same, UInt8.zero_add]

/-- Once the window moves on by one, a number is one place nearer its start. -/
theorem seqDistance_next {s base : UInt8} (apart : s ≠ base) :
    seqDistance s (seqAfter base 1) = seqDistance s base - 1 := by
  have near : s - seqAfter base 1 = s - base - 1 := by
    rw [seqAfter]
    grind
  have one : (1 : UInt8) ≤ s - base := UInt8.le_iff_toNat_le.mpr (seqDistance_pos apart)
  rw [seqDistance, near, UInt8.toNat_sub_of_le _ _ one]
  rfl

theorem seqDistance_passed (base : UInt8) : seqDistance base (seqAfter base 1) = 255 := by
  have back : base - seqAfter base 1 = 255 := by
    rw [seqAfter]
    grind
  rw [seqDistance, back]
  rfl

namespace Receiver

/-- What holds of the buffers while blocks are taken from them: no number out of the
window, none past the furthest seen, and no block both whole and in pieces. -/
structure Filled (rx : Receiver) : Prop where
  furthest : ∀ s, rx.buf.contains s = true → ∃ seen, rx.maxSeen = some seen ∧
    seqDistance s rx.base ≤ seqDistance seen rx.base ∧ inWindow seen rx.base window = true
  harq : ∀ s, rx.harq.contains s = true → inWindow s rx.base window = true
  pieces : ∀ s, rx.pieces.contains s = true → inWindow s rx.base window = true
  apart : ∀ s, rx.buf.contains s = true → rx.pieces.contains s = false

/-- What holds of them between any two steps: the next block to deliver is not there. -/
structure Windowed (rx : Receiver) : Prop extends Filled rx where
  base : rx.buf.contains rx.base = false
  seen : ∀ s, rx.maxSeen = some s → inWindow s rx.base window = true

variable {rx rx' : Receiver}

theorem Filled.buf (filled : rx.Filled) {s : UInt8} (held : rx.buf.contains s = true) :
    inWindow s rx.base window = true := by
  obtain ⟨seen, _, nearer, inside⟩ := filled.furthest s held
  simp only [inWindow, decide_eq_true_eq] at inside ⊢
  omega

theorem windowed_empty : ({} : Receiver).Windowed where
  furthest _ held := by cases held
  harq _ held := by cases held
  pieces _ held := by cases held
  apart _ held := by cases held
  base := rfl
  seen _ seen := by cases seen

/-- What is filed of the transmission being received is no matter. -/
theorem Windowed.of_eq (windowed : rx.Windowed)
    (same : (rx'.base, rx'.buf, rx'.pieces, rx'.maxSeen, rx'.harq) =
      (rx.base, rx.buf, rx.pieces, rx.maxSeen, rx.harq)) : rx'.Windowed := by
  simp only [Prod.mk.injEq] at same
  obtain ⟨base, buf, pieces, maxSeen, harq⟩ := same
  refine ⟨⟨?_, ?_, ?_, ?_⟩, ?_, ?_⟩
  · rw [buf, maxSeen, base]
    exact windowed.furthest
  · rw [harq, base]
    exact windowed.harq
  · rw [pieces, base]
    exact windowed.pieces
  · rw [buf, pieces]
    exact windowed.apart
  · rw [buf, base]
    exact windowed.base
  · rw [maxSeen, base]
    exact windowed.seen

/-- Buffers of copies may go, and one of the window may come. -/
theorem Windowed.harq_within (windowed : rx.Windowed) {harq : Keyed UInt8 (HarqBuffer × Nat × Nat)}
    (within : ∀ s, harq.contains s = true → inWindow s rx.base window = true) :
    { rx with harq }.Windowed :=
  ⟨⟨windowed.furthest, within, windowed.pieces, windowed.apart⟩, windowed.base, windowed.seen⟩

/-! ### Each operation -/

theorem foldl_erase_contains {ν : Type*} (keys : List UInt8) (m : Keyed UInt8 ν) {s : UInt8}
    (left : (keys.foldl Keyed.erase m).contains s = true) : m.contains s = true := by
  induction keys generalizing m with
  | nil => exact left
  | cons k rest ih => exact ((Keyed.contains_erase m k s).mp (ih _ left)).2

theorem Windowed.piecesHeard (windowed : rx.Windowed) : rx.piecesHeard.Windowed := by
  unfold Receiver.piecesHeard
  split
  · exact windowed
  · exact (windowed.harq_within fun s left => windowed.harq s (foldl_erase_contains _ _ left)).of_eq rfl

theorem Windowed.measurementHeard (windowed : rx.Windowed) (new : Bool) :
    (rx.measurementHeard new).Windowed := by
  unfold Receiver.measurementHeard
  split
  · exact windowed
  · exact (windowed.harq_within fun s (none_ : Keyed.contains [] s = true) => by cases none_).of_eq rfl

theorem Windowed.noteOpening (windowed : rx.Windowed) (ctl : GrantFrame) :
    (rx.noteOpening ctl).Windowed := by
  unfold Receiver.noteOpening
  split
  · exact windowed.measurementHeard _
  · split
    · exact windowed.of_eq rfl
    · exact windowed

/-- A copy's buffer is held under a number of the window. -/
theorem Windowed.hold (windowed : rx.Windowed) {guess : UInt8} (inside : inWindow guess rx.base window = true)
    (entry : HarqBuffer × Nat × Nat) : { rx with harq := rx.harq.insert guess entry }.Windowed := by
  refine windowed.harq_within fun s held => ?_
  rcases (Keyed.contains_insert _ _ _ _).mp held with rfl | before
  · exact inside
  · exact windowed.harq s before

/-! ### A block taken -/

/-- The furthest number seen, with one of the window just read. -/
def seeing (rx : Receiver) (seq : UInt8) : Receiver :=
  if rx.furthest seq then { rx with maxSeen := some seq } else rx

theorem seeing_stays (seq : UInt8) : (rx.seeing seq).base = rx.base ∧ (rx.seeing seq).buf = rx.buf ∧
    (rx.seeing seq).pieces = rx.pieces ∧ (rx.seeing seq).harq = rx.harq := by
  unfold seeing
  split
  · exact ⟨rfl, rfl, rfl, rfl⟩
  · exact ⟨rfl, rfl, rfl, rfl⟩

/-- What was furthest is no further than what is now. -/
theorem seeing_furthest (windowed : rx.Windowed) {seq : UInt8} (inside : inWindow seq rx.base window = true) :
    ∃ seen, (rx.seeing seq).maxSeen = some seen ∧ seqDistance seq rx.base ≤ seqDistance seen rx.base ∧
      inWindow seen rx.base window = true ∧
      ∀ before, rx.maxSeen = some before → seqDistance before rx.base ≤ seqDistance seen rx.base := by
  unfold seeing furthest
  cases was : rx.maxSeen with
  | none => exact ⟨seq, rfl, le_rfl, inside, nofun⟩
  | some before =>
    by_cases nearer : seqDistance seq rx.base ≤ seqDistance before rx.base
    · refine ⟨before, ?_, nearer, windowed.seen _ was, ?_⟩
      · simp [nearer, was]
      · rintro _ ⟨⟩
        exact le_rfl
    · refine ⟨seq, ?_, le_rfl, inside, ?_⟩
      · simp [nearer]
      · rintro _ ⟨⟩
        omega

/-- With one number of the window seen, the buffers may hold it too. -/
structure Sees (rx : Receiver) (seq : UInt8) : Prop extends Filled rx where
  inside : inWindow seq rx.base window = true
  nearer : ∃ seen, rx.maxSeen = some seen ∧ seqDistance seq rx.base ≤ seqDistance seen rx.base ∧
    inWindow seen rx.base window = true

theorem Windowed.seeing (windowed : rx.Windowed) {seq : UInt8} (inside : inWindow seq rx.base window = true) :
    (rx.seeing seq).Sees seq := by
  obtain ⟨base, buf, pieces, harq⟩ := rx.seeing_stays seq
  obtain ⟨seen, is, nearer, within, further⟩ := seeing_furthest windowed inside
  refine ⟨⟨?_, ?_, ?_, ?_⟩, ?_, ?_⟩
  · rw [buf, base]
    intro s held
    obtain ⟨before, was, distance, _⟩ := windowed.furthest s held
    exact ⟨seen, is, distance.trans (further before was), within⟩
  · rw [harq, base]
    exact windowed.harq
  · rw [pieces, base]
    exact windowed.pieces
  · rw [buf, pieces]
    exact windowed.apart
  · rw [base]
    exact inside
  · rw [base]
    exact ⟨seen, is, nearer, within⟩

theorem Sees.blockOf {header : DataHeader} (sees : rx.Sees header.seq) (body : Bytes) :
    (rx.blockOf header body).2.Sees header.seq := by
  unfold Receiver.blockOf
  split
  · exact sees
  · split
    · exact sees
    · rename_i absent
      refine ⟨⟨sees.furthest, sees.harq, fun s held => ?_, fun s held => ?_⟩, sees.inside, sees.nearer⟩
      · rcases (Keyed.contains_insert _ _ _ _).mp held with rfl | before
        · exact sees.inside
        · exact sees.pieces s before
      · have other : s ≠ header.seq := by
          rintro rfl
          exact absent held
        rw [← Bool.not_eq_true, Keyed.contains_insert, sees.apart s held]
        simp [other]

theorem Sees.keepBlock {seq : UInt8} (sees : rx.Sees seq) (block : Bytes) : (rx.keepBlock seq block).Filled where
  furthest s held := by
    have here : s = seq ∨ rx.buf.contains s = true := by
      unfold Receiver.keepBlock at held
      dsimp only at held
      split at held
      · exact .inr held
      · exact (Keyed.contains_insert _ _ _ _).mp held
    rcases here with rfl | before
    · exact sees.nearer
    · exact sees.furthest s before
  harq s held := sees.harq s ((Keyed.contains_erase _ _ _).mp held).2
  pieces s held := sees.pieces s ((Keyed.contains_erase _ _ _).mp held).2
  apart s held := by
    rw [← Bool.not_eq_true]
    intro both
    obtain ⟨other, before⟩ := (Keyed.contains_erase _ _ _).mp both
    have was : rx.buf.contains s = true := by
      unfold Receiver.keepBlock at held
      dsimp only at held
      split at held
      · exact held
      · exact ((Keyed.contains_insert _ _ _ _).mp held).resolve_left other
    rw [sees.apart s was] at before
    cases before

theorem Sees.keepWhole {seq : UInt8} (sees : rx.Sees seq) (block : Option Bytes) :
    (rx.keepWhole seq block).Filled := by
  cases block with
  | some block => exact sees.keepBlock block
  | none => exact sees.toFilled

/-! ### What is let go -/

/-- One block let go: the window starts one further, and what else is held is one
place nearer its start. -/
theorem Filled.letGo (filled : rx.Filled) :
    { rx with
      buf := rx.buf.erase rx.base
      harq := rx.harq.erase rx.base
      pieces := rx.pieces.erase rx.base
      base := seqAfter rx.base 1 : Receiver }.Filled := by
  have nearer {s : UInt8} (other : s ≠ rx.base) (inside : inWindow s rx.base window = true) :
      inWindow s (seqAfter rx.base 1) window = true := by
    simp only [inWindow, decide_eq_true_eq, seqDistance_next other] at inside ⊢
    omega
  refine ⟨fun s held => ?_, fun s held => ?_, fun s held => ?_, fun s held => ?_⟩
  · obtain ⟨other, before⟩ := (Keyed.contains_erase _ _ _).mp held
    obtain ⟨seen, is, distance, inside⟩ := filled.furthest s before
    have further : seen ≠ rx.base := by
      rintro rfl
      rw [seqDistance_self] at distance
      have ahead := seqDistance_pos other
      omega
    refine ⟨seen, is, ?_, nearer further inside⟩
    rw [seqDistance_next other, seqDistance_next further]
    omega
  · obtain ⟨other, before⟩ := (Keyed.contains_erase _ _ _).mp held
    exact nearer other (filled.harq s before)
  · obtain ⟨other, before⟩ := (Keyed.contains_erase _ _ _).mp held
    exact nearer other (filled.pieces s before)
  · obtain ⟨other, before⟩ := (Keyed.contains_erase _ _ _).mp held
    rw [← Bool.not_eq_true, Keyed.contains_erase, filled.apart s before]
    simp

theorem Filled.deliverReady (filled : rx.Filled) (turns : Nat) : (Receiver.deliverReady turns rx).2.Filled := by
  induction turns generalizing rx with
  | zero => exact filled
  | succ turns ih =>
    unfold Receiver.deliverReady
    split
    · exact filled
    · exact ih filled.letGo

/-- With a turn for each block held, the next one is not there at the end. -/
theorem deliverReady_base (turns : Nat) (enough : rx.buf.length ≤ turns) :
    (Receiver.deliverReady turns rx).2.buf.contains (Receiver.deliverReady turns rx).2.base = false := by
  induction turns generalizing rx with
  | zero =>
    have none_ : rx.buf = [] := List.length_eq_zero_iff.mp (Nat.le_zero.mp enough)
    change rx.buf.contains rx.base = false
    rw [none_]
    rfl
  | succ turns ih =>
    unfold Receiver.deliverReady
    split
    · rename_i absent
      rw [Keyed.contains, absent]
      rfl
    · rename_i data found
      exact ih (Nat.le_of_lt_succ ((Keyed.length_erase_lt found).trans_le enough))

theorem Filled.forgetSeen (filled : rx.Filled) (base : rx.buf.contains rx.base = false) :
    rx.forgetSeen.Windowed := by
  unfold Receiver.forgetSeen
  cases is : rx.maxSeen with
  | none =>
    refine ⟨filled, base, fun s seen => ?_⟩
    simp [is] at seen
  | some seen =>
    by_cases out : seqDistance seen rx.base ≥ window
    · have empty : ∀ s, rx.buf.contains s = true → False := by
        intro s held
        obtain ⟨seen', is', _, inside⟩ := filled.furthest s held
        cases is.symm.trans is'
        simp only [inWindow, decide_eq_true_eq] at inside
        omega
      simp only [Option.any_some, out, decide_true, if_true]
      exact ⟨⟨fun s held => (empty s held).elim, filled.harq, filled.pieces, filled.apart⟩, base, nofun⟩
    · simp only [Option.any_some, out, decide_false, Bool.false_eq_true, if_false]
      refine ⟨filled, base, fun s seen' => ?_⟩
      cases is.symm.trans seen'
      simpa [inWindow] using out

/-- What is held with the block of a frame read, before anything is let go. -/
def holding (rx : Receiver) (header : DataHeader) (body : Bytes) : Receiver :=
  ((rx.seeing header.seq).blockOf header body).2.keepWhole header.seq ((rx.seeing header.seq).blockOf header body).1

theorem takeBlock_snd (header : DataHeader) (body : Bytes) : (rx.takeBlock header body).2 =
    (Receiver.deliverReady (rx.holding header body).buf.length (rx.holding header body)).2.forgetSeen := rfl

theorem Windowed.takeBlock (windowed : rx.Windowed) {header : DataHeader}
    (inside : inWindow header.seq rx.base window = true) (body : Bytes) :
    (rx.takeBlock header body).2.Windowed := by
  have filled : (rx.holding header body).Filled := ((windowed.seeing inside).blockOf body).keepWhole _
  rw [takeBlock_snd]
  exact (filled.deliverReady _).forgetSeen (deliverReady_base _ le_rfl)

end Receiver

/-! ### The engine's data -/

namespace Engine

variable {e : Engine}

theorem acceptMeasure_windowed (windowed : e.rx.Windowed) (seq : UInt8) :
    (e.acceptMeasure seq).rx.Windowed := by
  have heard := windowed.measurementHeard true
  unfold acceptMeasure
  dsimp only
  split
  · exact heard.of_eq rfl
  · exact heard

theorem acceptData_windowed (windowed : e.rx.Windowed) (header : DataHeader) (body : Bytes) (late : Bool) :
    (e.acceptData header body late).rx.Windowed := by
  unfold acceptData
  extract_lets e' rx rx'
  have read : rx.Windowed := by
    unfold rx
    split
    · exact windowed
    · exact windowed.of_eq rfl
  have placed : rx'.Windowed := by
    unfold rx'
    split
    · exact read.piecesHeard
    · exact read
  split
  · rename_i inside
    exact placed.takeBlock inside body
  · exact placed

end Engine

end AetherHF.Link
